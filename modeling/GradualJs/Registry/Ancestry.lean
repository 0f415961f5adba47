import GradualJs.Registry.Basic

/-! Ancestors. The ancestors of an instance are visited breadth first, each nominal type
once and with the arguments of its first visit. Inheritance may be cyclic. -/
namespace GradualJs.Registry

/-- Maps the template variables of a nominal type to the arguments of an instance; a
missing argument is unknown. -/
def substitutionFor (r : Registry) (i : Instance) : Substitution :=
  .ofList ((r.nominal i.id).typeParams.zipIdx.map fun (name,index) =>
    (name,(i.args[index]?).getD .unknown))

/-- A class without a superclass extends `Object`. -/
def extendsObject (r : Registry) (id : NominalId) : Bool :=
  let n := r.nominal id
  n.superclass.isNone && n.kind = .classType && id ≠ .object

def supertypesOf (r : Registry) (i : Instance) : List Instance :=
  let mapping := r.substitutionFor i
  let explicit := (r.nominal i.id).supertypes.map fun s =>
    (⟨s.id,s.args.map (·.instantiateVars mapping)⟩ : Instance)
  if r.extendsObject i.id then explicit ++ [objectInstance] else explicit

/-- Breadth-first visits: each key once, in the order in which it is reached. -/
def visit (key : α → NominalId) (expand : α → List α) : Nat → List NominalId → List α → List α
  | 0, _, _ => []
  | _ + 1, _, [] => []
  | steps + 1, seen, a :: queue =>
    if seen.contains (key a) then visit key expand steps seen queue
    else a :: visit key expand steps (key a :: seen) (queue ++ expand a)

/-- Every visit takes one entry off the queue, and an entry is the start or comes from a
supertype edge of a nominal type that was not seen before. -/
def visitBound (r : Registry) : Nat := (r.nominals.map fun n => n.supertypes.length + 1).foldr (· + ·) 0 + 2
def ancestry (r : Registry) (i : Instance) : List Instance := visit (·.id) r.supertypesOf r.visitBound [] [i]

def reachable (r : Registry) (id : NominalId) : List NominalId :=
  visit (fun id => id) (fun id => (r.nominal id).supertypes.map (·.id)) r.visitBound [] [id]

def inherits (r : Registry) (sub sup : NominalId) : Bool :=
  sub = sup || (sup = .object && (r.nominal sub).kind = .classType) || (r.reachable sub).contains sup

def upcast (r : Registry) (i : Instance) (target : NominalId) : Option Instance :=
  if i.id = target then some i else (r.ancestry i).find? (·.id = target)

def chainFrom (r : Registry) : Nat → List NominalId → NominalId → List NominalId
  | 0, _, id => [id]
  | steps + 1, seen, id =>
    match (r.nominal id).superclass with
    | none => [id]
    | some parent =>
      if seen.contains parent.id then [id]
      else id :: chainFrom r steps (parent.id :: seen) parent.id

def superclassChain (r : Registry) (id : NominalId) : List NominalId := r.chainFrom r.nominals.length [id] id

def commonSuperclass (r : Registry) (a b : NominalId) : Option NominalId :=
  if (r.nominal a).kind = .classType && (r.nominal b).kind = .classType then
    let others := r.superclassChain b
    (r.superclassChain a).find? fun candidate =>
      candidate ≠ .object && others.contains candidate
  else none

structure PropertyLookup where
  decl : PropertyDecl
  owner : NominalId

def ownProperty (r : Registry) (name : String) (i : Instance) : Option PropertyLookup :=
  ((r.nominal i.id).properties.get? name).map fun decl =>
    ⟨{decl with type := decl.type.instantiateVars (r.substitutionFor i)},i.id⟩

def ownProperties (r : Registry) (i : Instance) : List (String × PropertyLookup) :=
  let mapping := r.substitutionFor i
  (r.nominal i.id).properties.entries.map fun (name,decl) =>
    (name,⟨{decl with type := decl.type.instantiateVars mapping},i.id⟩)

/-- Visits types until one has the property. -/
def findProperty (own : Instance → Option PropertyLookup) (expand : Instance → List Instance) :
    Nat → List NominalId → List Instance → Option PropertyLookup
  | 0, _, _ => none
  | _ + 1, _, [] => none
  | steps + 1, seen, i :: queue =>
    if seen.contains i.id then findProperty own expand steps seen queue
    else match own i with
      | some found => some found
      | none => findProperty own expand steps (i.id :: seen) (queue ++ expand i)

def lookupProperty (r : Registry) (i : Instance) (name : String) : Option PropertyLookup :=
  findProperty (r.ownProperty name) r.supertypesOf r.visitBound [] [i]

/-- Visits all types; the first that has a property decides on it. -/
def gatherProperties (own : Instance → List (String × PropertyLookup)) (expand : Instance → List Instance) :
    Nat → List NominalId → List Instance → Table String PropertyLookup → Table String PropertyLookup
  | 0, _, _, done => done
  | _ + 1, _, [], done => done
  | steps + 1, seen, i :: queue, done =>
    if seen.contains i.id then gatherProperties own expand steps seen queue done
    else gatherProperties own expand steps (i.id :: seen) (queue ++ expand i)
      ((own i).foldl (fun t (name,found) => t.insertNew name found) done)

def allProperties (r : Registry) (i : Instance) : Table String PropertyLookup :=
  gatherProperties r.ownProperties r.supertypesOf r.visitBound [] [i] {}

def instanceFields (r : Registry) (i : Instance) : List Field :=
  (r.allProperties i).entries.map fun (name,found) => found.decl.toField name

/-- How the properties of a type may be reached: the nearest superclass that restricts
it decides. -/
def accessOf (r : Registry) (id : NominalId) : AccessDiscipline :=
  (((r.superclassChain id).map fun ancestor => (r.nominal ancestor).access).find?
    (· ≠ .unrestricted)).getD .unrestricted

def isConstructorNamespace (r : Registry) (id : NamespaceId) : Bool :=
  match (r.space id).kind with
  | .constructor _ => true
  | _ => false

def namespaceFields (r : Registry) (id : NamespaceId) : List Field :=
  (r.space id).members.entries.filterMap fun (name,member) =>
    match member with
    | .value decl => some (decl.toField name)
    | .inner inner => some {name, type := .namespaceValue inner, declared := true}
    | .typedef _ => none

def fieldsOf (r : Registry) : Obj → List Field × Bool
  | .record record => (record.fields,record.loose)
  | .nominal i => (r.instanceFields i,false)
  | .namespaceValue id => (r.namespaceFields id,false)
  | .function _ => ([],false)

end GradualJs.Registry
