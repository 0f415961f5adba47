import GradualJs.Order
import GradualJs.Ty.Shape

/-! Joining types. How a join treats two different nominal types, parameters of functions
and enums depends on what is known about the declarations, so the shape of the
operation is given once, over rules for those. `Ty.merge` is the join that knows no
declarations. -/
namespace GradualJs

variable {m : Type → Type} [Monad m]

structure MergeRules (m : Type → Type) where
  join : Ty → Ty → m Ty
  meet : Ty → Ty → m Ty
  /-- Combines instances of different nominal types, if they have a common type. -/
  distinct : Instance → Instance → m (Option Obj)
  settle : Union → m Union

def padArgs : List Ty → List Ty → List (Ty × Ty)
  | [], bs => bs.map fun b => (.unknown,b)
  | a :: as, [] => (a,.unknown) :: padArgs as []
  | a :: as, b :: bs => (a,b) :: padArgs as bs

def joinInstances (join : Ty → Ty → m Ty) (x y : Instance) : m Instance := do
  return ⟨x.id,← (padArgs x.args y.args).mapM fun (a,b) => join a b⟩

namespace MergeRules

/-- A property of one record. If only one side has it, it becomes optional, unless the
other side is loose. -/
def joinField (rules : MergeRules m) (y : Record) (f : Field) : m Field :=
  match Field.find? y.fields f.name with
  | some g => do
    return {
      name := f.name
      type := ← rules.join f.type g.type
      optional := f.optional || g.optional
      declared := f.declared && g.declared
      constant := f.constant && g.constant }
  | none => pure (if y.loose then f else {f with optional := true})

def joinRecords (rules : MergeRules m) (x y : Record) : m Record := do
  let left ← x.fields.mapM (joinField rules y)
  let right := (y.fields.filter fun g => (Field.find? x.fields g.name).isNone).map fun g =>
    if x.loose then g else {g with optional := true}
  return ⟨left ++ right,x.exact && y.exact,x.loose || y.loose⟩

def bothOr (combine : Ty → Ty → m Ty) : Option Ty → Option Ty → m (Option Ty)
  | some a, some b => some <$> combine a b
  | _, _ => pure none

def sameShape (f g : FunctionType) : Bool :=
  f.required.length = g.required.length && f.optional.length = g.optional.length &&
    f.rest.isSome = g.rest.isSome && f.constructs.isSome = g.constructs.isSome &&
    f.typeParams.isEmpty && g.typeParams.isEmpty

/-- Functions of different shapes have only the loose function above them. -/
def joinFunctions (rules : MergeRules m) (f g : FunctionType) : m FunctionType :=
  if Ty.sameFunction f g then pure f
  else if f.loose || g.loose || !sameShape f g then pure .any
  else do
    let meetPair (pair : Ty × Ty) : m Ty := rules.meet pair.1 pair.2
    return {
      required := ← (f.required.zip g.required).mapM meetPair
      optional := ← (f.optional.zip g.optional).mapM meetPair
      rest := ← bothOr rules.meet f.rest g.rest
      returnType := ← rules.join f.returnType g.returnType
      receiver := ← bothOr rules.meet f.receiver g.receiver
      constructs := ← bothOr rules.join f.constructs g.constructs }

def combine (rules : MergeRules m) : Obj → Obj → m (Option Obj)
  | .nominal x, .nominal y =>
    if x.id = y.id then (fun i => some (.nominal i)) <$> joinInstances rules.join x y
    else rules.distinct x y
  | .record x, .record y => (fun r => some (.record r)) <$> rules.joinRecords x y
  | .function f, .function g => (fun h => some (.function h)) <$> rules.joinFunctions f g
  | .namespaceValue x, .namespaceValue y =>
    pure (if x = y then some (.namespaceValue x) else none)
  | _, _ => pure none

end MergeRules

def takeCombined (combine : Obj → Obj → m (Option Obj)) (pending : Obj) : List Obj → m (Option (List Obj × Obj))
  | [] => pure none
  | o :: rest => do
    match ← combine o pending with
    | some combined => return some (rest,combined)
    | none =>
      match ← takeCombined combine pending rest with
      | some (others,combined) => return some (o :: others,combined)
      | none => return none

/-- Adds an object to objects that do not combine with each other. Every combination
takes one of them out, so as many rounds as there are objects are enough. -/
def absorb (combine : Obj → Obj → m (Option Obj)) : Nat → List Obj → Obj → m (List Obj)
  | 0, done, pending => pure (done ++ [pending])
  | rounds + 1, done, pending => do
    match ← takeCombined combine pending done with
    | some (others,combined) => absorb combine rounds others combined
    | none => return done ++ [pending]

def normalizeObjects (combine : Obj → Obj → m (Option Obj)) (objects : List Obj) : m (List Obj) := do
  let merged ← objects.foldlM (fun done o => absorb combine done.length done o) []
  return stableSort (fun a b => a.identity.notAfter b.identity) merged

def MergeRules.joinUnions (rules : MergeRules m) (u v : Union) : m Ty := do
  let objects ← normalizeObjects rules.combine (u.objects ++ v.objects)
  let joined : Union := {
    primitives := u.primitives.union v.primitives
    enums := mergeSorted (fun a b => a.index ≤ b.index) u.enums v.enums
    vars := mergeSorted (fun a b => a ≤ b) u.vars v.vars
    objects }
  return .ofUnion (← rules.settle joined)

def MergeRules.joinStep (rules : MergeRules m) : Ty → Ty → m Ty
  | .bottom, t | t, .bottom => pure t
  | .top, _ | _, .top => pure .top
  | .unknown, _ | _, .unknown => pure .unknown
  | .union u, .union v => rules.joinUnions u v

namespace Ty

/-- Without declarations, different parameters of joined functions become unknown. -/
def plainRules (join : Ty → Ty → Ty) : MergeRules Id where
  join a b := pure (join a b)
  meet a b := pure (if a.same b then a else .unknown)
  distinct _ _ := pure none
  settle u := pure u

def mergeWithin : Nat → Ty → Ty → Ty
  | 0, _, _ => .unknown
  | levels + 1, a, b => (plainRules (mergeWithin levels)).joinStep a b |>.run

def merge (a b : Ty) : Ty := mergeWithin (max a.height b.height + 1) a b

def normalizePlain (objects : List Obj) : List Obj :=
  normalizeObjects (plainRules (mergeWithin (heightObjects objects + 1))).combine objects |>.run

end Ty
end GradualJs
