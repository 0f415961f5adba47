import GradualJs.Lattice.Basic

/-! Finding the types that template variables stand for: a template is laid over a
concrete type, and each variable is bound to what stands in its place. -/
namespace GradualJs

/-- A variable was bound to two types of which neither is wider. -/
structure UnifyError where
  var : String
  first : Ty
  second : Ty

def UnifyError.message (e : UnifyError) : String := "type variable `" ++ e.var ++ "` has no unique instantiation"

/-- Bindings made before a failure are kept. -/
abbrev Unify := ExceptT UnifyError (StateT Substitution Option)

namespace Lattice

def ask (answer : Option α) : Unify α := ExceptT.lift (StateT.lift answer)

/-- A variable that is bound twice keeps the wider type. -/
def bind (l : Lattice) (var : String) (type : Ty) : Unify Unit := do
  match (← get).get? var with
  | none | some .unknown => modify (·.insert var type)
  | some existing =>
    if ← ask (l.isSubtype type existing) then return
    if ← ask (l.isSubtype existing type) then
      modify (·.insert var type)
    else throw ⟨var,existing,type⟩

/-- What is left of a concrete union for the variables of a template: the parts that the
template neither names nor matches. -/
def remainder (l : Lattice) (params : List String) (template concrete : Union) (unmatched : List Obj) : Option Ty := do
  let fixed := template.objects.filter (!Ty.mentionsObject params.contains ·)
  let objects ← unmatched.filterM fun object => do
    return !(← fixed.anyM fun f => l.isSubtype (.object object) (.object f))
  return .ofUnion {
    primitives := concrete.primitives.without template.primitives
    enums := concrete.enums.filter (!template.enums.contains ·)
    vars := concrete.vars
    objects }

/-- Binds the only variable of a template union to what is left for it. With several
variables the split would be arbitrary, so they stay as they are. -/
def bindRemainder (l : Lattice) (params : List String) (template concrete : Union)
    (matched : List Bool) : Unify Unit := do
  match template.vars.filter params.contains with
  | [] => return
  | free =>
    let unmatched := ((concrete.objects.zip matched).filter (!·.2)).map (·.1)
    let rest ← ask (l.remainder params template concrete unmatched)
    match free with
    | [var] => if !rest.isBottom then l.bind var rest
    | _ => return

def markMatches (attempt : Obj → Option (Unify Unit)) : List Obj → List Bool → Unify (List Bool)
  | o :: rest, mark :: marks => do
    match attempt o with
    | some action =>
      action
      return true :: (← markMatches attempt rest marks)
    | none => return mark :: (← markMatches attempt rest marks)
  | _, _ => pure []

/-- Every value may stand in the place of the variables. -/
def unifyTop (l : Lattice) (params : List String) (template : Union) : Unify Unit :=
  (template.vars.filter params.contains).forM fun var => l.bind var .top

mutual
def unify (l : Lattice) (params : List String) : Ty → Ty → Unify Unit
  | .union template, concrete =>
    if params.isEmpty then pure ()
    else match concrete with
    | .bottom | .unknown => pure ()
    | .top => unifyTop l params template
    | .union other => unifyUnion l params template other
  | .bottom, _ | .top, _ | .unknown, _ => pure ()
termination_by structural template => template
def unifyUnion (l : Lattice) (params : List String) : Union → Union → Unify Unit
  | ⟨primitives,enums,vars,objects⟩, concrete => do
    let matched ← unifyObjects l params objects concrete.objects (List.replicate concrete.objects.length false)
    l.bindRemainder params ⟨primitives,enums,vars,objects⟩ concrete matched
termination_by structural template => template
/-- Lays each object of a template over each concrete object, and marks those it
matches. -/
def unifyObjects (l : Lattice) (params : List String) : List Obj → List Obj → List Bool → Unify (List Bool)
  | [], _, matched => pure matched
  | o :: rest, concrete, matched => do
    let matched ← if Ty.mentionsObject params.contains o then unifyEach l params o concrete matched else pure matched
    unifyObjects l params rest concrete matched
termination_by structural template => template
def unifyEach (l : Lattice) (params : List String) : Obj → List Obj → List Bool → Unify (List Bool)
  | .nominal expected, concrete, matched =>
    let attempt (o : Obj) : Option (Unify Unit) := match o with
      | .nominal found => (l.registry.upcast found expected.id).map fun viewed =>
        unifyInstance l params expected viewed.args
      | _ => none
    markMatches attempt concrete matched
  | .record expected, concrete, matched =>
    let attempt (o : Obj) : Option (Unify Unit) := some (unifyRecord l params expected (l.registry.fieldsOf o).1)
    markMatches attempt concrete matched
  | .function expected, concrete, matched =>
    let attempt (o : Obj) : Option (Unify Unit) := match o with
      | .function found => some (unifyFunction l params expected found)
      | .namespaceValue id => (l.registry.constructorOf id).map fun found =>
        unifyFunction l params expected found.2
      | _ => none
    markMatches attempt concrete matched
  | .namespaceValue _, _, matched => pure matched
termination_by structural template => template
def unifyInstance (l : Lattice) (params : List String) : Instance → List Ty → Unify Unit
  | ⟨_,args⟩, found => unifyList l params args found
termination_by structural template => template
def unifyRecord (l : Lattice) (params : List String) : Record → List Field → Unify Unit
  | ⟨fields,_,_⟩, found => unifyFields l params fields found
termination_by structural template => template
def unifyFields (l : Lattice) (params : List String) : List Field → List Field → Unify Unit
  | [], _ => pure ()
  | f :: rest, found => do
    unifyField l params f found
    unifyFields l params rest found
termination_by structural template => template
def unifyField (l : Lattice) (params : List String) : Field → List Field → Unify Unit
  | ⟨name,type,_,_,_⟩, found =>
    match Field.find? found name with
    | some other => unify l params type other.type
    | none => pure ()
termination_by structural template => template
def unifyFunction (l : Lattice) (params : List String) : FunctionType → FunctionType → Unify Unit
  | ⟨required,optional,rest,returnType,_,_,_,_⟩, found =>
    if found.loose then pure ()
    else do
      unifyList l params required found.positional
      unifyList l params optional (found.positional.drop required.length)
      unifyOption l params rest found.rest
      unify l params returnType found.returnType
termination_by structural template => template
def unifyList (l : Lattice) (params : List String) : List Ty → List Ty → Unify Unit
  | t :: rest, c :: concrete => do
    unify l params t c
    unifyList l params rest concrete
  | _, _ => pure ()
termination_by structural template => template
def unifyOption (l : Lattice) (params : List String) : Option Ty → Option Ty → Unify Unit
  | some t, some c => unify l params t c
  | _, _ => pure ()
termination_by structural template => template
end

end Lattice
end GradualJs
