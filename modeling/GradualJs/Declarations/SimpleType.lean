import GradualJs.Resolve

/-! The type of a value that can be read off its expression alone, without following the
flow of the program. -/
namespace GradualJs

def Literal.type : Literal → Ty
  | .number _ => .number
  | .string _ => .string
  | .boolean _ => .boolean
  | .null => .null
  | .undefined => .undefined

def UnaryOperator.resultType : UnaryOperator → Ty
  | .not | .delete => .boolean
  | .typeof => .string
  | .void => .undefined
  | .negative | .positive | .bitNot => .number

namespace Registry

def literalType (r : Registry) (id : Nat) : Ty :=
  .function (match r.function? id with
    | some decl => decl.signature.toFunctionType
    | none => .any)

def nominalNamed? (r : Registry) (name : String) : Option NominalId :=
  match r.lookup name with
  | some (.nominal id) => some id
  | _ => none

def rawInstance (r : Registry) (id : NominalId) : Instance :=
  ⟨id,List.replicate (r.nominal id).typeParams.length .unknown⟩

/-- A name in a constructor may be one of its formals. -/
def nameType (r : Registry) (constructor : Option Nat) (name : String) : Ty :=
  match (constructor.bind r.function?).bind fun decl =>
      decl.signature.params.find? (·.name = name) with
  | some param => param.type.getD .unknown
  | none => ((r.global? name).bind memberType).getD .unknown

def sumType (left right : Ty) : Ty :=
  if left.isString || right.isString then .string
  else if left.isNumber && right.isNumber then .number
  else .unknown

mutual
def simpleType (r : Registry) (constructor : Option Nat) : Expression → Option Ty
  | ⟨_,kind⟩ => simpleTypeKind r constructor kind

def simpleTypeKind (r : Registry) (constructor : Option Nat) : ExpressionKind → Option Ty
  | .literal value => some value.type
  | .object properties => do
    let fields ← simpleFields r constructor properties
    return .record ⟨fields.foldl (fun done f => Field.put f done) [],true,false⟩
  | .array elements => do
    let types ← simpleTypes r constructor elements
    let element ← if types.isEmpty then some .unknown else Lattice.joinAll {registry := r} types
    return arrayOf element
  | .function literal => some (r.literalType literal.id)
  | .new callee _ =>
    match callee.qualifiedName.bind r.nominalNamed? with
    | some id => some (.object (.nominal (r.rawInstance id)))
    | none => some .unknown
  | .identifier id => some (r.nameType constructor id.name)
  | .cast type _ => do
    match ← ((r.resolver []).expr type).run with
    | .ok t => return t
    | .error _ => return .unknown
  | .unary operator _ => some operator.resultType
  | .binary operator left right =>
    if operator.isArithmetic then some .number
    else if operator.isRelational || operator.isEquality then some .boolean
    else match operator with
      | .instanceOf | .isIn => some .boolean
      | _ => do
        let leftType ← simpleType r constructor left
        return sumType leftType (← simpleType r constructor right)
  | _ => some .unknown

def simpleTypes (r : Registry) (constructor : Option Nat) : List Expression → Option (List Ty)
  | [] => some []
  | e :: rest => do
    let first ← simpleType r constructor e
    return first :: (← simpleTypes r constructor rest)

def simpleFields (r : Registry) (constructor : Option Nat) : List ObjectProperty → Option (List Field)
  | [] => some []
  | ⟨key,value,_,_⟩ :: rest => do
    let type ← simpleType r constructor value
    return {name := key, type} :: (← simpleFields r constructor rest)
end

end Registry
end GradualJs
