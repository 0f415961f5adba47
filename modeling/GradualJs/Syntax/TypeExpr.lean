import GradualJs.Span

/-! Type annotations and the documentation comments that carry them. -/
namespace GradualJs

mutual
structure TypeExpr where
  kind : TypeExprKind
  span : Span := {}

inductive TypeExprKind where
  /-- Every value, written `*`. -/
  | any
  /-- A type left open, written `?`. -/
  | unknown
  | named (name : String) (arguments : List TypeExpr)
  | nullable (inner : TypeExpr)
  | nonNull (inner : TypeExpr)
  | optional (inner : TypeExpr)
  | rest (inner : TypeExpr)
  | union (members : List TypeExpr)
  | record (fields : List RecordField)
  | function (shape : FunctionTypeExpr)

structure RecordField where
  name : String
  typeExpr : Option TypeExpr

structure FunctionTypeExpr where
  thisType : Option TypeExpr
  newType : Option TypeExpr
  parameters : List TypeExpr
  returnType : Option TypeExpr
end

namespace TypeExpr

instance : Inhabited TypeExpr := ⟨⟨.unknown,{}⟩⟩

def isOptional (a : TypeExpr) : Bool :=
  match a.kind with
  | .optional _ => true
  | _ => false

def isRest (a : TypeExpr) : Bool :=
  match a.kind with
  | .rest _ => true
  | _ => false

mutual
def label : TypeExpr → String
  | ⟨kind,_⟩ => labelKind kind
def labelKind : TypeExprKind → String
  | .named name _ => name
  | .nullable inner | .nonNull inner | .optional inner | .rest inner => label inner
  | .any => "*"
  | .unknown => "?"
  | .union _ => "union"
  | .record _ => "record"
  | .function _ => "function"
end

mutual
def same : TypeExpr → TypeExpr → Bool
  | ⟨kind,span⟩, ⟨otherKind,otherSpan⟩ => sameKind kind otherKind && span = otherSpan
def sameKind : TypeExprKind → TypeExprKind → Bool
  | .any, .any | .unknown, .unknown => true
  | .named name arguments, .named otherName others => name = otherName && sameList arguments others
  | .nullable inner, .nullable other | .nonNull inner, .nonNull other
  | .optional inner, .optional other | .rest inner, .rest other => same inner other
  | .union members, .union others => sameList members others
  | .record fields, .record others => sameFields fields others
  | .function shape, .function other => sameFunction shape other
  | _, _ => false
def sameList : List TypeExpr → List TypeExpr → Bool
  | [], [] => true
  | first :: rest, other :: others => same first other && sameList rest others
  | _, _ => false
def sameOption : Option TypeExpr → Option TypeExpr → Bool
  | none, none => true
  | some one, some other => same one other
  | _, _ => false
def sameFields : List RecordField → List RecordField → Bool
  | [], [] => true
  | first :: rest, other :: others => sameField first other && sameFields rest others
  | _, _ => false
def sameField : RecordField → RecordField → Bool
  | ⟨name,typeExpr⟩, ⟨otherName,other⟩ => name = otherName && sameOption typeExpr other
def sameFunction : FunctionTypeExpr → FunctionTypeExpr → Bool
  | ⟨thisType,newType,parameters,returnType⟩, ⟨otherThis,otherNew,others,otherReturn⟩ =>
    sameOption thisType otherThis && sameOption newType otherNew && sameList parameters others &&
      sameOption returnType otherReturn
end

end TypeExpr

inductive DeclarationKind where
  | constructor
  | interface
  | record
  deriving DecidableEq

/-- How the properties of a class may be reached: by name only, by brackets only, or
either way. -/
inductive AccessDiscipline where
  | struct
  | dict
  | unrestricted
  deriving DecidableEq, Inhabited

structure ParamTag where
  name : String
  typeExpr : TypeExpr

structure JsDoc where
  declaredType : Option TypeExpr := none
  params : List ParamTag := []
  returnType : Option TypeExpr := none
  thisType : Option TypeExpr := none
  templates : List String := []
  kind : Option DeclarationKind := none
  supertypes : List TypeExpr := []
  interfaces : List TypeExpr := []
  isEnum : Bool := false
  enumType : Option TypeExpr := none
  typedefType : Option TypeExpr := none
  isTypedef : Bool := false
  isConst : Bool := false
  isAbstract : Bool := false
  access : Option AccessDiscipline := none
  suppressions : List String := []
  span : Span := {}

namespace JsDoc

instance : Inhabited JsDoc := ⟨{}⟩

/-- The first tag for a parameter counts. -/
def param (doc : JsDoc) (name : String) : Option TypeExpr := (doc.params.find? (·.name = name)).map (·.typeExpr)

def hasFunctionInfo (doc : JsDoc) : Bool :=
  !doc.params.isEmpty || doc.returnType.isSome || doc.thisType.isSome ||
    !doc.templates.isEmpty || doc.kind.isSome

def isNominalDeclaration (doc : JsDoc) : Bool := doc.kind.isSome

end JsDoc
end GradualJs
