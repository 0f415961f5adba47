import GradualJs.Proofs.Flow.Emits
import GradualJs.Proofs.Flow.Merge
import GradualJs.Proofs.Lattice.Invariant

/-! What an environment knows of a variable that a function literal is stored in. Where all paths
have stored the literal last, the environment has the type of the literal, or no type at all where
a test has left nothing of it. -/
namespace GradualJs

variable {f : FunctionType} {t : Ty} {joined : Env}

lemma Lattice.join_function (r : Registry) (depth : Nat) (eq : Ty.sameFunction f f = true) :
    join {registry := r, depth := depth + 1} (.function f) (.function f) = some (.function f) := by
  have merged : (Relations.mergeRules r (.within r depth)).joinFunctions f f = some f := by
    simp [MergeRules.joinFunctions,eq]
  change (Relations.mergeRules r (.within r depth)).joinStep (.function f) (.function f) = _
  simp [MergeRules.joinStep,MergeRules.joinUnions,Ty.function,Ty.object,normalizeObjects,absorb,
    takeCombined,MergeRules.combine,merged]
  rfl

namespace Ty

/-- What a test leaves of a type: all of it or nothing. -/
def LeftOf (type t : Ty) : Prop := t = type ∨ t = .bottom

namespace LeftOf

variable {f : FunctionType} {t : Ty} {l : Lattice}

lemma truthy (of : LeftOf (.function f) t) : LeftOf (.function f) t.truthy := by
  rcases of with rfl | rfl
  · exact .inl rfl
  · exact .inr rfl

lemma falsy (of : LeftOf (.function f) t) : LeftOf (.function f) (l.falsy t) := by
  rcases of with rfl | rfl
  · exact .inr rfl
  · exact .inr rfl

lemma of_objects {objects : List Obj} (few : objects = [.function f] ∨ objects = []) :
    LeftOf (.function f) (.ofUnion {objects}) := by
  rcases few with rfl | rfl
  · exact .inl rfl
  · exact .inr rfl

lemma narrowTypeof (of : LeftOf (.function f) t)
    (ended : l.narrowTypeof tag positive t = some left) : LeftOf (.function f) left := by
  rcases of with rfl | rfl
  · obtain ⟨objects,normal,eq⟩ := Option.bind_eq_some_iff.mp ended
    have few : objects = [.function f] ∨ objects = [] := by
      by_cases kept : l.objectHasTag tag (.function f) = positive
      · have narrowed : l.narrowObject tag positive (.function f) = some (.function f) := by
          simp [Lattice.narrowObject,kept]
        cases positive <;> simp only [List.filterMap,narrowed] at normal <;> cases normal <;> exact .inl rfl
      · have narrowed : l.narrowObject tag positive (.function f) = none := by
          simp [Lattice.narrowObject,kept]
        cases positive <;> simp only [List.filterMap,narrowed] at normal <;> cases normal <;> exact .inr rfl
    cases positive <;> cases eq <;> exact of_objects few
  · cases ended
    exact .inr rfl

lemma exclude (of : LeftOf (.function f) t) (ended : l.exclude t removed = some left) : LeftOf (.function f) left := by
  rcases of with rfl | rfl
  · cases removed with
    | bottom | unknown => cases ended; exact .inl rfl
    | top => cases ended; exact .inr rfl
    | union r =>
      obtain ⟨objects,filtered,eq⟩ := Option.bind_eq_some_iff.mp ended
      cases eq
      exact of_objects (List.sublist_singleton.mp (Lattice.run_filterM_sublist filtered)).symm
  · cases removed <;> cases ended <;> exact .inr rfl

lemma specialize {set : PrimitiveSet} (of : LeftOf (.function f) t)
    (ended : l.specialize t (.primitive set) = some left) : LeftOf (.function f) left := by
  rw [Ty.primitive_eq] at ended
  split at ended
  · cases ended
    exact .inr rfl
  rcases of with rfl | rfl
  · obtain ⟨fits,-,ended⟩ := Option.bind_eq_some_iff.mp ended
    split at ended
    · cases ended
      exact .inl rfl
    · cases ended
      exact .inr rfl
  · cases ended
    exact .inr rfl

lemma join (eq : sameFunction f f = true) (first : LeftOf (.function f) t) (second : LeftOf (.function f) u) :
    ∃ left, Lattice.join {registry := r} t u = some left ∧ LeftOf (.function f) left := by
  rcases first with rfl | rfl
  · rcases second with rfl | rfl
    · exact ⟨_,Lattice.join_function r 4095 eq,.inl rfl⟩
    · exact ⟨_,rfl,.inl rfl⟩
  · exact ⟨u,rfl,second⟩

end LeftOf
end Ty

namespace Env

variable {type : Ty} {e other : Env}

/-- All that is known of the name is what tests have left of the type. -/
def HoldsOnly (name : String) (type : Ty) (e : Env) : Prop := ∃ t, e.get? name = some t ∧ type.LeftOf t

lemma HoldsOnly.refine (held : e.HoldsOnly name type)
    (kept : path = name → type.LeftOf t) : (e.refine path t).HoldsOnly name type := by
  by_cases eq : path = name
  · exact ⟨t,by simp [eq],kept eq⟩
  · obtain ⟨u,known,left⟩ := held
    exact ⟨u,by rw [get?,Env.refine,Table.get?_insert_of_ne _ _ eq]; exact known,left⟩

lemma HoldsOnly.set (undotted : Name.isDotted name = false) (held : e.HoldsOnly name type)
    (kept : path ≠ name) : (e.set path t).HoldsOnly name type := by
  obtain ⟨u,known,left⟩ := held
  exact ⟨u,by rw [get?_set_of_ne undotted kept]; exact known,left⟩

lemma HoldsOnly.join (eq : Ty.sameFunction f f = true) (left : e.HoldsOnly name (.function f))
    (right : other.HoldsOnly name (.function f)) (live : e.live = true) (otherLive : other.live = true)
    (ended : e.join {registry := r} other = some joined) : joined.HoldsOnly name (.function f) := by
  obtain ⟨t,known,isLeft⟩ := left
  obtain ⟨u,otherKnown,isRight⟩ := right
  have found := get?_join live otherLive ended name
  rw [known,otherKnown] at found
  obtain ⟨v,isJoin,left⟩ := isLeft.join (r := r) eq isRight
  exact ⟨v,found.trans isJoin,left⟩

end Env

lemma WalkContext.exists_functionValue_eq (c : WalkContext) (id : Nat) : ∃ f, c.functionValue id = .function f := by
  unfold functionValue
  split
  · exact ⟨_,rfl⟩
  · exact ⟨_,rfl⟩

/-- A call of a local of the scope, and a function literal that may be stored in the local. Its type
fits what is declared, and no record in it has a property twice. -/
structure Binding (c : WalkContext) extends CallPoint where
  decl : Local
  literal : Nat
  own : c.tree.resolve c.scope name = some (c.scope,decl)
  undotted : Name.isDotted name = false
  notThis : name ≠ "this"
  fits : ∀ declared ∈ decl.declared, c.lattice.isSubtype (c.functionValue literal) declared = some true
  regular : (c.functionValue literal).same (c.functionValue literal) = true

namespace Binding

variable {c : WalkContext} (b : Binding c)

def type : Ty := c.functionValue b.literal
def read (env : Env) : Ty := (env.get? b.name).getD (b.decl.declared.getD .unknown)

/-- Some path has stored a value of the kind, and the environment describes it. -/
def Tracks (values : Stored → Prop) (env : Env) : Prop :=
  env.live = true → ∃ v, values v ∧ (v = .literal b.literal → env.HoldsOnly b.name b.type)

variable {b}

lemma exists_type_eq : ∃ f, b.type = .function f ∧ Ty.sameFunction f f = true := by
  obtain ⟨f,isFunction⟩ := c.exists_functionValue_eq b.literal
  have regular := b.regular
  rw [isFunction] at regular
  refine ⟨f,isFunction,?_⟩
  simpa [Ty.same,Ty.sameUnion,Ty.sameObjects,Ty.sameObject,Ty.function,Ty.object] using regular

lemma leftOf_read {env : Env} (held : env.HoldsOnly b.name b.type) : b.type.LeftOf (b.read env) := by
  obtain ⟨t,known,left⟩ := held
  rw [read,known]
  exact left

namespace Tracks

variable {env : Env}

lemma of_dead (dead : env.live = false) : b.Tracks values env := fun live => by
  rw [dead] at live
  cases live

lemma mono (tracks : b.Tracks values env) (implies : ∀ v, values v → weaker v) : b.Tracks weaker env := fun live =>
  (tracks live).imp fun v => And.imp_left (implies v)

lemma refine (tracks : b.Tracks values env) (kept : path = b.name → env.HoldsOnly b.name b.type → b.type.LeftOf t) :
    b.Tracks values (env.refine path t) := fun live => by
  obtain ⟨v,stored,described⟩ := tracks live
  exact ⟨v,stored,fun isLiteral => (described isLiteral).refine fun eq => kept eq (described isLiteral)⟩

lemma set (tracks : b.Tracks values env) (other : path ≠ b.name) : b.Tracks values (env.set path t) := fun live => by
  obtain ⟨v,stored,described⟩ := tracks live
  exact ⟨v,stored,fun isLiteral => (described isLiteral).set b.undotted other⟩

lemma store (tracks : b.Tracks (fun _ => values v) env)
    (typed : v = .literal b.literal → t = b.type) : b.Tracks values (env.set b.name t) := fun live => by
  obtain ⟨_,stored,-⟩ := tracks live
  exact ⟨v,stored,fun isLiteral => ⟨t,by simp,.inl (typed isLiteral)⟩⟩

/-- A merge describes what it describes on one of its sides, because both sides have to
describe the literal for it to count. -/
lemma join (left : b.Tracks values env) (right : b.Tracks values other)
    (ended : env.join c.lattice other = some joined) : b.Tracks values joined := by
  cases otherLive : other.live with
  | false =>
    rw [Env.join_of_not_live _ _ otherLive] at ended
    cases ended
    exact left
  | true =>
    cases live : env.live with
    | false =>
      rw [Env.join_of_live _ live otherLive] at ended
      cases ended
      exact right
    | true =>
      obtain ⟨v,stored,described⟩ := left live
      obtain ⟨w,otherStored,otherDescribed⟩ := right otherLive
      obtain ⟨f,isFunction,eq⟩ := b.exists_type_eq
      intro _
      by_cases isLiteral : v = .literal b.literal
      · refine ⟨w,otherStored,fun isOther => ?_⟩
        have first := described isLiteral
        have second := otherDescribed isOther
        rw [isFunction] at first second ⊢
        exact first.join eq second live otherLive ended
      · exact ⟨v,stored,fun is => absurd is isLiteral⟩

end Tracks

end Binding
end GradualJs
