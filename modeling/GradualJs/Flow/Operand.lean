import GradualJs.Flow.Walk

/-! What operators ask of their operands and give. -/
namespace GradualJs.Walk

def expectNumber (c : WalkContext) (type : Ty) (role : String) (span : Span) : Walk Unit := do
  if ← isSubtype c type .number then return
  report .invalidOperandType (role ++ " must be number, found " ++ c.describe type) span

def isStringy (t : Ty) : Bool := t.primitives.intersects .stringOnly || t.hasObjects || t.isTop

def sumType (left right : Ty) : Ty :=
  if left.isUnknown || right.isUnknown then .unknown
  else if isStringy left || isStringy right then .string
  else .number

def bothFit (c : WalkContext) (left right expected : Ty) : Walk Bool := do
  if ← isSubtype c left expected then isSubtype c right expected else return false

def areComparable (c : WalkContext) (left right : Ty) : Walk Bool := do
  if ← bothFit c left right .number then return true
  bothFit c left right .string

def erasedInstance (constructed : Ty) : Ty :=
  match constructed.objects with
  | [.nominal i] => .nominal i.id (List.replicate i.args.length .unknown)
  | _ => constructed

def isFunctionInstance : Obj → Bool
  | .nominal i => i.id = .function
  | _ => false

def constructorMember? (c : WalkContext) (type : Ty) : Option (NominalId × FunctionType) :=
  match type.objects with
  | [.namespaceValue id] => c.registry.constructorOf id
  | _ => none

def instanceOfTarget (c : WalkContext) (target : Ty) (span : Span) : Walk (Option Ty) := do
  match target with
  | .union u =>
    match constructorMember? c target, target.functionMember with
    | some (_,constructor), _ =>
      return some (erasedInstance (constructor.constructs.getD .unknown))
    | none, some function => return function.constructs
    | none, none =>
      if !u.objects.any isFunctionInstance then
        report .invalidInstanceofTarget
          ("right side of instanceof must be a constructor, found " ++ c.describe target) span
      return none
  | _ => return none

def binaryResult (c : WalkContext) (operator : BinaryOperator) (left right : Ty)
    (leftSpan rightSpan : Span) : Walk Ty := do
  if operator.isArithmetic then
    expectNumber c left ("left operand of " ++ operator.symbol) leftSpan
    expectNumber c right ("right operand of " ++ operator.symbol) rightSpan
    return .number
  if operator.isRelational then
    if !(← areComparable c left right) then
      report .invalidOperandType (operator.symbol ++ " cannot compare " ++ c.describe left ++
        " with " ++ c.describe right) (leftSpan.cover rightSpan)
    return .boolean
  match operator with
  | .add => return sumType left right
  | .instanceOf =>
    discard (instanceOfTarget c right rightSpan)
    return .boolean
  | .isIn =>
    if right.isScalarOnly then
      report .invalidOperandType ("right operand of in must be an object, found " ++ c.describe right) rightSpan
    return .boolean
  | _ => return .boolean

end GradualJs.Walk
