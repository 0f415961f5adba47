import GradualJs.Ty.Primitive

/-! Types. A type is bottom, top, unknown, or a union of primitive values, enums, template
variables and objects. Declared things are referred to by number; what a number stands
for is kept in a registry. -/
namespace GradualJs

structure NominalId where
  index : Nat
  deriving DecidableEq, Inhabited

structure NamespaceId where
  index : Nat
  deriving DecidableEq, Inhabited

structure EnumId where
  index : Nat
  deriving DecidableEq, Inhabited

structure TypedefId where
  index : Nat
  deriving DecidableEq, Inhabited

namespace NominalId

def object : NominalId := ⟨0⟩
def function : NominalId := ⟨1⟩
def array : NominalId := ⟨2⟩

end NominalId

def NamespaceId.global : NamespaceId := ⟨0⟩

mutual
inductive Ty where
  | bottom
  /-- Every value. Only top and unknown are above it. -/
  | top
  /-- The gradual type, which fits in both directions. -/
  | unknown
  | union (members : Union)

structure Union where
  primitives : PrimitiveSet := {}
  enums : List EnumId := []
  /-- Template variables, qualified by the declaration that binds them. -/
  vars : List String := []
  objects : List Obj := []

inductive Obj where
  | nominal (value : Instance)
  | record (value : Record)
  | function (value : FunctionType)
  /-- A namespace, a constructor with its static properties, or an enum object. -/
  | namespaceValue (id : NamespaceId)

structure Instance where
  id : NominalId
  args : List Ty

/-- A structural object type. All properties of an exact record are known. A loose record
stands for what is known so far of an undeclared value: it fits every object whose
matching properties agree. -/
structure Record where
  fields : List Field
  exact : Bool := false
  loose : Bool := false

structure Field where
  name : String
  type : Ty
  optional : Bool := false
  declared : Bool := false
  constant : Bool := false

structure FunctionType where
  required : List Ty := []
  optional : List Ty := []
  rest : Option Ty := none
  returnType : Ty
  receiver : Option Ty := none
  /-- What `new` gives; only constructors have it. -/
  constructs : Option Ty := none
  typeParams : List String := []
  /-- Some function of which nothing is known. It fits every function. -/
  loose : Bool := false
end

instance : Inhabited Ty := ⟨.unknown⟩
instance : Inhabited Union := ⟨{}⟩
instance : Inhabited FunctionType := ⟨{returnType := .unknown}⟩
instance : Inhabited Instance := ⟨⟨default,[]⟩⟩
instance : Inhabited Record := ⟨⟨[],false,false⟩⟩
instance : Inhabited Field := ⟨⟨"",.unknown,false,false,false⟩⟩

namespace Field

def find? (fields : List Field) (name : String) : Option Field := fields.find? (·.name = name)

def put (field : Field) : List Field → List Field
  | [] => [field]
  | other :: rest =>
    if other.name = field.name then field :: rest else other :: put field rest

end Field

namespace FunctionType

def any : FunctionType := {rest := some .unknown, returnType := .unknown, loose := true}
def minArity (f : FunctionType) : Nat := f.required.length
def positional (f : FunctionType) : List Ty := f.required ++ f.optional
def positionalLength (f : FunctionType) : Nat := f.required.length + f.optional.length

def maxArity (f : FunctionType) : Option Nat :=
  if f.rest.isSome then none else some f.positionalLength

/-- The type of the formal at a position; the rest type covers all later ones. -/
def param (f : FunctionType) (index : Nat) : Option Ty :=
  match f.positional[index]? with
  | some type => some type
  | none => f.rest

def isConstructor (f : FunctionType) : Bool := f.constructs.isSome
def isGeneric (f : FunctionType) : Bool := !f.typeParams.isEmpty

end FunctionType

namespace Obj

/-- A union holds at most one object of each kind, and one for each nominal type and
each namespace. -/
inductive Identity where
  | nominal (id : NominalId)
  | namespaceValue (id : NamespaceId)
  | record
  | function
  deriving DecidableEq

def identity : Obj → Identity
  | .nominal i => .nominal i.id
  | .namespaceValue id => .namespaceValue id
  | .record _ => .record
  | .function _ => .function

namespace Identity

def rank : Identity → Nat × Nat
  | .nominal id => (0,id.index)
  | .namespaceValue id => (1,id.index)
  | .record => (2,0)
  | .function => (3,0)

def notAfter (a b : Identity) : Bool := a.rank.1 < b.rank.1 || (a.rank.1 == b.rank.1 && a.rank.2 ≤ b.rank.2)

end Identity
end Obj

namespace Union

def isEmpty (u : Union) : Bool := u.primitives.isEmpty && u.enums.isEmpty && u.vars.isEmpty && u.objects.isEmpty

def memberCount (u : Union) : Nat :=
  (PrimitiveSet.tags.filter u.primitives.contains).length + u.enums.length + u.vars.length + u.objects.length

end Union

namespace Ty

/-- A union without members is bottom. -/
def ofUnion (u : Union) : Ty := if u.isEmpty then .bottom else .union u
def primitive (set : PrimitiveSet) : Ty := ofUnion {primitives := set}
def null : Ty := primitive .nullOnly
def undefined : Ty := primitive .undefinedOnly
def boolean : Ty := primitive .boolean
def number : Ty := primitive .numberOnly
def string : Ty := primitive .stringOnly
def object (o : Obj) : Ty := .union {objects := [o]}
def nominal (id : NominalId) (args : List Ty) : Ty := object (.nominal ⟨id,args⟩)
def record (r : Record) : Ty := object (.record r)
def function (f : FunctionType) : Ty := object (.function f)
def namespaceValue (id : NamespaceId) : Ty := object (.namespaceValue id)
def enumMember (id : EnumId) : Ty := .union {enums := [id]}
def var (name : String) : Ty := .union {vars := [name]}

def isBottom : Ty → Bool
  | .bottom => true
  | _ => false

def isTop : Ty → Bool
  | .top => true
  | _ => false

def isUnknown : Ty → Bool
  | .unknown => true
  | _ => false

def members? : Ty → Option Union
  | .union u => some u
  | _ => none

def primitives : Ty → PrimitiveSet
  | .union u => u.primitives
  | _ => {}

def objects : Ty → List Obj
  | .union u => u.objects
  | _ => []

def hasObjects (t : Ty) : Bool := !t.objects.isEmpty

def isPrimitive (set : PrimitiveSet) : Ty → Bool
  | .union u => u.primitives = set && u.enums.isEmpty && u.vars.isEmpty && u.objects.isEmpty
  | _ => false

def isNumber (t : Ty) : Bool := t.isPrimitive .numberOnly
def isString (t : Ty) : Bool := t.isPrimitive .stringOnly

def isScalarOnly : Ty → Bool
  | .union u => u.objects.isEmpty && u.vars.isEmpty
  | _ => false

def isNullable (t : Ty) : Bool := t.primitives.intersects .nullOrUndefined

def isNullOrUndefined : Ty → Bool
  | .union u => !u.primitives.isEmpty && PrimitiveSet.nullOrUndefined.contains u.primitives &&
      u.enums.isEmpty && u.vars.isEmpty && u.objects.isEmpty
  | _ => false

def withoutNullOrUndefined : Ty → Ty
  | .union u => ofUnion {u with primitives := u.primitives.without .nullOrUndefined}
  | t => t

def memberCount : Ty → Nat
  | .union u => u.memberCount
  | _ => 1

def members : Ty → List Ty
  | .union u =>
    (PrimitiveSet.tags.filter u.primitives.contains).map primitive ++ u.enums.map enumMember ++
      u.vars.map var ++ u.objects.map object
  | t => [t]

def functionMember (t : Ty) : Option FunctionType :=
  t.objects.findSome? fun
    | .function f => some f
    | _ => none

def truthy : Ty → Ty
  | .union u => ofUnion {u with primitives := u.primitives.without (.union .nullOrUndefined .falseOnly)}
  | t => t

end Ty
end GradualJs
