import GradualJs.Declarations.Property
import GradualJs.Lattice.Explain

/-! Checks on declared types: overriding properties fit what they override, classes have
what their interfaces ask for, abstract methods get a body. -/
namespace GradualJs

namespace Obj

def withoutReceiver : Obj → Obj
  | .function f => .function {f with receiver := none}
  | o => o

end Obj

namespace Ty

/-- A method type without the type of `this`, which differs from class to class. -/
def withoutReceiver : Ty → Ty
  | .union u => .union {u with objects := u.objects.map Obj.withoutReceiver}
  | t => t

end Ty

namespace Collecting

def selfInstance (r : Registry) (id : NominalId) : Instance := ⟨id,(r.nominal id).typeParams.map .var⟩

def checkAccess (id : NominalId) : Collecting Unit := do
  let registry ← registry
  let decl := registry.nominal id
  match decl.superclass with
  | none => return
  | some parent =>
    match decl.access, registry.accessOf parent.id with
    | .struct, .dict | .dict, .struct =>
      report .structDictInheritanceMismatch (decl.name ++ " and its superclass " ++
        (registry.nominal parent.id).name ++ " disagree on struct/dict access") decl.span
    | _, _ => return

def overrideProblem (l : Lattice) (id : NominalId) (name : String) (decl : PropertyDecl)
    (supertype : Instance) : Option (Option Diagnostic) := do
  match l.registry.lookupProperty supertype name with
  | none => return none
  | some inherited =>
    if !inherited.decl.declared then return none
    let found := decl.type.withoutReceiver
    let expected := inherited.decl.type.withoutReceiver
    if ← l.isSubtype found expected then return none
    let detail := match ← l.explainMismatch found expected with
      | some text => " (" ++ text ++ ")"
      | none => ""
    return some (.report .invalidPropertyOverride ((l.registry.nominal id).name ++ "." ++ name ++
      " has type " ++ l.describe found ++ " which is incompatible with " ++ l.describe expected ++
      " inherited from " ++ (l.registry.nominal inherited.owner).name ++ detail) decl.span)

/-- Compatibility mode compares parameters in either direction. -/
def overrideLattice (legacy : Bool) : Collecting Lattice := do
  return {registry := ← registry, bivariant := legacy}

def reportAll (found : List Diagnostic) : Collecting Unit :=
  modify fun c => {c with diagnostics := c.diagnostics ++ found}

def checkOverrides (legacy : Bool) (id : NominalId) : Collecting Unit := do
  let l ← overrideLattice legacy
  let supertypes := l.registry.supertypesOf (selfInstance l.registry id)
  let own := (l.registry.nominal id).properties.entries.filter (·.2.declared)
  let problems ← ask (own.mapM fun (name,decl) =>
    supertypes.filterMapM (overrideProblem l id name decl))
  reportAll problems.flatten

def implementation? (r : Registry) (self : Instance) (name : String) : Option Registry.PropertyLookup :=
  (r.superclassChain self.id).findSome? fun ancestor => do
    let viewed ← r.upcast self ancestor
    if (r.nominal ancestor).properties.contains name then r.lookupProperty viewed name else none

def interfaceProblem (l : Lattice) (self interface : Instance) (name : String)
    (expected : Registry.PropertyLookup) : Option (Option Diagnostic) := do
  let owner := l.registry.nominal self.id
  let interfaceName := (l.registry.nominal interface.id).name
  match implementation? l.registry self name with
  | none =>
    if expected.decl.optional || owner.isAbstract then return none
    return some (.report .interfaceMemberNotImplemented ("property " ++ name ++ " of interface " ++
      interfaceName ++ " is not implemented by " ++ owner.name) owner.span)
  | some found =>
    let type := found.decl.type.withoutReceiver
    let wanted := expected.decl.type.withoutReceiver
    if !found.decl.declared then return none
    if ← l.isSubtype type wanted then return none
    return some (.report .invalidPropertyOverride (owner.name ++ "." ++ name ++ " has type " ++
      l.describe type ++ " but interface " ++ interfaceName ++ " requires " ++ l.describe wanted)
      owner.span)

def checkInterfaces (legacy : Bool) (id : NominalId) : Collecting Unit := do
  let l ← overrideLattice legacy
  let self := selfInstance l.registry id
  let interfaces := (l.registry.ancestry self).filter fun i =>
    (l.registry.nominal i.id).kind.isInterface
  let problems ← ask (interfaces.mapM fun interface =>
    (l.registry.allProperties interface).entries.filterMapM fun (name,expected) =>
      interfaceProblem l self interface name expected)
  reportAll problems.flatten

/-- The nearest declarations of properties along a chain of superclasses, with the class
that declares each. -/
def nearestProperties (r : Registry) (chain : List NominalId) : Table String (PropertyDecl × NominalId) :=
  (chain.flatMap fun id => (r.nominal id).properties.entries.map fun (name,decl) =>
    (name,decl,id)).foldl (fun t (name,found) => t.insertNew name found) {}

/-- Abstract methods of the class itself are misplaced, and reported as such; here they
only hide inherited ones. -/
def checkAbstract (id : NominalId) : Collecting Unit := do
  let registry ← registry
  let decl := registry.nominal id
  if decl.isAbstract then return
  let nearest := (nearestProperties registry (registry.superclassChain id)).entries
  let missing := nearest.filter fun (_,found,owner) => found.isAbstract && owner ≠ id
  reportAll (missing.map fun (name,_,owner) =>
    .report .abstractMethodNotImplemented ("abstract method " ++ (registry.nominal owner).name ++
      "." ++ name ++ " is not implemented by " ++ decl.name) decl.span)

def conflicts (l : Lattice) (decl : Nominal) :
    Table String Registry.PropertyLookup → List (String × Registry.PropertyLookup) →
      Option (Table String Registry.PropertyLookup × List Diagnostic)
  | seen, [] => some (seen,[])
  | seen, (name,found) :: rest => do
    if decl.properties.contains name then return ← conflicts l decl seen rest
    match seen.get? name with
    | none => conflicts l decl (seen.insert name found) rest
    | some first =>
      let related ← if first.owner = found.owner then some true
        else if ← l.isSubtype first.decl.type found.decl.type then some true
        else l.isSubtype found.decl.type first.decl.type
      let (seen,others) ← conflicts l decl seen rest
      if related then return (seen,others)
      return (seen,.report .superInterfaceConflict (decl.name ++ " inherits property " ++ name ++
        " with incompatible types " ++ l.describe first.decl.type ++ " and " ++
        l.describe found.decl.type) decl.span :: others)

def checkSuperInterfaces (id : NominalId) : Collecting Unit := do
  let l : Lattice := {registry := ← registry}
  let decl := l.registry.nominal id
  if decl.interfaces.length < 2 then return
  let inherited := decl.interfaces.flatMap fun i => (l.registry.allProperties i).entries
  reportAll (← ask (conflicts l decl {} inherited)).2

def checkNominal (legacy : Bool) (id : NominalId) : Collecting Unit := do
  checkAccess id
  checkOverrides legacy id
  if ((← registry).nominal id).kind = .classType then
    checkInterfaces legacy id
    checkAbstract id
  else checkSuperInterfaces id

def checkNominals (legacy : Bool) : Collecting Unit := do
  (← get).nominals.forM fun site => checkNominal legacy site.id

end Collecting
end GradualJs
