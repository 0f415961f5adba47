import GradualJs.Name
import GradualJs.Syntax.TypeExpr
import GradualJs.Ty.Substitute

/-! Everything a program declares: nominal types, namespaces, enums, typedefs and the
signatures of functions. Declared things refer to each other by number, so a class may
mention itself. A number that was never handed out stands for an empty declaration. -/
namespace GradualJs

inductive NominalKind where
  | classType
  | interface
  /-- An interface that is compared by structure. -/
  | record
  deriving DecidableEq, Inhabited

def NominalKind.isInterface : NominalKind → Bool
  | .classType => false
  | .interface | .record => true

structure PropertyDecl where
  type : Ty
  declared : Bool
  constant : Bool := false
  optional : Bool := false
  isAbstract : Bool := false
  /-- The number of the literal when the property is a method with a body. -/
  function : Option Nat := none
  span : Span
  deriving Inhabited

def PropertyDecl.toField (p : PropertyDecl) (name : String) : Field :=
  {name, type := p.type, optional := p.optional, declared := p.declared, constant := p.constant}

structure Nominal where
  name : String := ""
  kind : NominalKind := .interface
  typeParams : List String := []
  superclass : Option Instance := none
  interfaces : List Instance := []
  properties : Table String PropertyDecl := {}
  access : AccessDiscipline := .struct
  isAbstract : Bool := false
  constructor : Option FunctionType := none
  statics : NamespaceId := ⟨0⟩
  span : Span := {}
  builtin : Bool := false
  deriving Inhabited

namespace Nominal

def isGeneric (n : Nominal) : Bool := !n.typeParams.isEmpty
def supertypes (n : Nominal) : List Instance := n.superclass.toList ++ n.interfaces

end Nominal

inductive NamespaceKind where
  | global
  /-- Declared as a constant object. -/
  | real
  /-- Brought about by a qualified declaration such as `a.b.C = …`. -/
  | incidental
  | constructor (id : NominalId)
  | enumObject (id : EnumId)
  deriving DecidableEq, Inhabited

inductive Member where
  | value (decl : PropertyDecl)
  | inner (id : NamespaceId)
  | typedef (id : TypedefId)
  deriving Inhabited

structure Namespace where
  name : String := ""
  kind : NamespaceKind := .incidental
  members : Table String Member := {}
  span : Span := {}
  deriving Inhabited

structure EnumDecl where
  name : String := ""
  backing : Ty := .unknown
  members : Table String Span := {}
  space : NamespaceId := ⟨0⟩
  span : Span := {}
  deriving Inhabited

structure TypedefDecl where
  name : String := ""
  meaning : Option TypeExpr := none
  resolved : Option Ty := none
  span : Span := {}
  deriving Inhabited

inductive Declaration where
  | nominal (id : NominalId)
  | space (id : NamespaceId)
  | enumType (id : EnumId)
  | typedef (id : TypedefId)
  deriving DecidableEq

inductive ParamKind where
  | required
  | optional
  | rest
  deriving DecidableEq

structure DeclaredParam where
  name : String
  type : Option Ty
  kind : ParamKind

structure Signature where
  params : List DeclaredParam := []
  returnType : Option Ty := none
  receiver : Option Ty := none
  constructs : Option Ty := none
  typeParams : List String := []

namespace Signature

instance : Inhabited Signature := ⟨{}⟩

def isComplete (s : Signature) : Bool := s.returnType.isSome && s.params.all (·.type.isSome)
def hasUndeclaredParams (s : Signature) : Bool := s.params.any (·.type.isNone)

def paramTypes (s : Signature) (kind : ParamKind) : List Ty :=
  (s.params.filter (·.kind = kind)).map fun p => p.type.getD .unknown

/-- The declared shape; what has no type is unknown, but a constructor returns nothing. -/
def toFunctionType (s : Signature) : FunctionType where
  required := s.paramTypes .required
  optional := s.paramTypes .optional
  rest := (s.paramTypes .rest).getLast?
  returnType := match s.returnType, s.constructs with
    | some type, _ => type
    | none, some _ => .undefined
    | none, none => .unknown
  receiver := s.receiver
  constructs := s.constructs
  typeParams := s.typeParams

end Signature

structure FunctionDecl where
  id : Nat
  name : String
  signature : Signature
  owner : Option NominalId := none
  fromExterns : Bool := false
  span : Span := {}
  deriving Inhabited

structure Registry where
  nominals : List Nominal := []
  namespaces : List Namespace := []
  enums : List EnumDecl := []
  typedefs : List TypedefDecl := []
  declarations : Table String Declaration := {}
  functions : Table Nat FunctionDecl := {}
  frozen : Bool := false
  deriving Inhabited

namespace Registry

def nominal (r : Registry) (id : NominalId) : Nominal := (r.nominals[id.index]?).getD {}
def space (r : Registry) (id : NamespaceId) : Namespace := (r.namespaces[id.index]?).getD {}
def enumDecl (r : Registry) (id : EnumId) : EnumDecl := (r.enums[id.index]?).getD {}
def typedef (r : Registry) (id : TypedefId) : TypedefDecl := (r.typedefs[id.index]?).getD {}
def enumBacking (r : Registry) (id : EnumId) : Ty := (r.enumDecl id).backing
def function? (r : Registry) (id : Nat) : Option FunctionDecl := r.functions.get? id
def lookup (r : Registry) (name : String) : Option Declaration := r.declarations.get? name
def global? (r : Registry) (name : String) : Option Member := (r.space .global).members.get? name
def nominalIds (r : Registry) : List NominalId := (List.range r.nominals.length).map (⟨·⟩)
def namespaceIds (r : Registry) : List NamespaceId := (List.range r.namespaces.length).map (⟨·⟩)
def typedefIds (r : Registry) : List TypedefId := (List.range r.typedefs.length).map (⟨·⟩)

/-- Later declarations of a name replace earlier ones. -/
def declare (r : Registry) (name : String) (declaration : Declaration) : Registry :=
  {r with declarations := r.declarations.insert name declaration}

def freeze (r : Registry) : Registry := {r with frozen := true}

def modifyNominal (r : Registry) (id : NominalId) (f : Nominal → Nominal) : Registry :=
  {r with nominals := r.nominals.modify id.index f}

def modifyNamespace (r : Registry) (id : NamespaceId) (f : Namespace → Namespace) : Registry :=
  {r with namespaces := r.namespaces.modify id.index f}

def modifyEnum (r : Registry) (id : EnumId) (f : EnumDecl → EnumDecl) : Registry :=
  {r with enums := r.enums.modify id.index f}

def modifyTypedef (r : Registry) (id : TypedefId) (f : TypedefDecl → TypedefDecl) : Registry :=
  {r with typedefs := r.typedefs.modify id.index f}

def setProperty (r : Registry) (id : NominalId) (name : String) (decl : PropertyDecl) : Registry :=
  r.modifyNominal id fun n => {n with properties := n.properties.insert name decl}

def setMember (r : Registry) (id : NamespaceId) (name : String) (member : Member) : Registry :=
  r.modifyNamespace id fun n => {n with members := n.members.insert name member}

def nextNamespace (r : Registry) : NamespaceId := ⟨r.namespaces.length⟩

def addNominal (r : Registry) (name : String) (kind : NominalKind) (span : Span) : NominalId × Registry :=
  let id : NominalId := ⟨r.nominals.length⟩
  let access := if kind.isInterface then .struct else .unrestricted
  (id,{ r with
    namespaces := r.namespaces ++ [{name, kind := .constructor id, span}]
    nominals := r.nominals ++ [{name, kind, access, statics := r.nextNamespace, span}]
    declarations := r.declarations.insert name (.nominal id) })

def addNamespace (r : Registry) (name : String) (kind : NamespaceKind) (span : Span) : NamespaceId × Registry :=
  let id := r.nextNamespace
  (id,{ r with
    namespaces := r.namespaces ++ [{name, kind, span}]
    declarations := r.declarations.insert name (.space id) })

def addEnum (r : Registry) (name : String) (backing : Ty) (span : Span) : EnumId × Registry :=
  let id : EnumId := ⟨r.enums.length⟩
  (id,{ r with
    namespaces := r.namespaces ++ [{name, kind := .enumObject id, span}]
    enums := r.enums ++ [{name, backing, space := r.nextNamespace, span}]
    declarations := r.declarations.insert name (.enumType id) })

def addTypedef (r : Registry) (name : String) (meaning : Option TypeExpr) (span : Span) : TypedefId × Registry :=
  let id : TypedefId := ⟨r.typedefs.length⟩
  (id,{ r with
    typedefs := r.typedefs ++ [{name, meaning, span}]
    declarations := r.declarations.insert name (.typedef id) })

def addFunction (r : Registry) (decl : FunctionDecl) : Registry := {r with functions := r.functions.insert decl.id decl}

def arrayElement : String := Name.qualify "Array" "T"
def arrayOf (element : Ty) : Ty := .nominal .array [element]
def objectInstance : Instance := ⟨.object,[]⟩

def builtinObject : Nominal where
  name := "Object"
  kind := .classType
  access := .unrestricted
  constructor := some {
    optional := [.unknown]
    returnType := .undefined
    constructs := some (.nominal .object []) }
  statics := ⟨1⟩
  builtin := true

def builtinFunction : Nominal where
  name := "Function"
  kind := .classType
  superclass := some objectInstance
  access := .unrestricted
  statics := ⟨2⟩
  builtin := true

def builtinArray : Nominal where
  name := "Array"
  kind := .classType
  typeParams := [arrayElement]
  superclass := some objectInstance
  properties := ⟨[
    ("length",{type := .number, declared := true, span := {}}),
    ("push",{
      type := .function {
        rest := some (.var arrayElement)
        returnType := .number
        receiver := some (arrayOf (.var arrayElement)) }
      declared := true
      span := {} })]⟩
  access := .unrestricted
  constructor := some {
    rest := some .unknown
    returnType := .undefined
    constructs := some (arrayOf (.var arrayElement))
    typeParams := [arrayElement] }
  statics := ⟨3⟩
  builtin := true

/-- The registry before any declaration: the global namespace, `Object`, `Function` and
`Array`. -/
def initial : Registry where
  nominals := [builtinObject,builtinFunction,builtinArray]
  namespaces := [
    {name := "global", kind := .global},
    {name := "Object", kind := .constructor .object},
    {name := "Function", kind := .constructor .function},
    {name := "Array", kind := .constructor .array}]
  declarations := ⟨[("Object",.nominal .object),("Function",.nominal .function), ("Array",.nominal .array)]⟩

def memberType : Member → Option Ty
  | .value decl => some decl.type
  | .inner id => some (.namespaceValue id)
  | .typedef _ => none

def selfType (r : Registry) (id : NominalId) : Ty := .nominal id ((r.nominal id).typeParams.map .var)

def constructorOf (r : Registry) (id : NamespaceId) : Option (NominalId × FunctionType) :=
  match (r.space id).kind with
  | .constructor owner =>
    let n := r.nominal owner
    some (owner,n.constructor.getD {
      returnType := .undefined
      constructs := some (r.selfType owner)
      typeParams := n.typeParams })
  | _ => none

def namespaceProperty (r : Registry) (id : NamespaceId) (name : String) : Option Ty :=
  let space := r.space id
  match space.members.get? name with
  | some member => memberType member
  | none =>
    match space.kind with
    | .enumObject owner =>
      if (r.enumDecl owner).members.contains name then some (.enumMember owner) else none
    | _ => none

end Registry

inductive RegistryError where
  | frozen
  deriving DecidableEq

def RegistryError.message : RegistryError → String
  | .frozen => "registry mutated after freeze"

def Registry.edit (r : Registry) (change : Registry → α) : Except RegistryError α :=
  if r.frozen then .error .frozen else .ok (change r)

end GradualJs
