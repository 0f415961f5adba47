import GradualJs.Proofs.Flow.Roles
import GradualJs.Proofs.Table

/-! What a walk keeps true of a local with a declared type. All that is known of the local fits the
type, as long as what fits is not joined or extended to something that does not. -/
namespace GradualJs

variable {t : Ty} {joined env : Env} {l : Local} {id : Identifier}

/-- The record with a new property, as an assignment to the property leaves it. -/
def Record.extended (r : Record) (name : String) (stored : Ty) : Record :=
  {r with fields := Field.put {name, type := stored} r.fields}

namespace Lattice

def Below (l : Lattice) (type t : Ty) : Prop := l.isSubtype t type = some true

/-- What fits the type still fits it when it is joined with something that fits, and when it is
a record that gets a new property. -/
structure Closed (l : Lattice) (type : Ty) : Prop where
  self : l.Below type type
  join {a b t : Ty} : l.Below type a → l.Below type b → l.join a b = some t → l.Below type t
  extend {r : Record} {name : String} (stored : Ty) : l.Below type (.record r) → r.loose = false →
    Field.find? r.fields name = none →
    l.Below type (.record (r.extended name stored))

end Lattice

namespace Env

def Holds (p : Ty → Prop) (name : String) (e : Env) : Prop := ∀ t, (name,t) ∈ e.values.entries → p t

variable {p : Ty → Prop} {e other : Env}

lemma holds_of_empty (empty : e.values.entries = []) : e.Holds p name := by
  intro t mem
  rw [empty] at mem
  cases mem

lemma Holds.get? (held : e.Holds p name) (found : e.get? name = some t) : p t := held t (Table.mem_of_lookup found)

lemma Holds.mono (held : e.Holds p name) (weaker : ∀ t, p t → q t) : e.Holds q name :=
  fun t mem => weaker t (held t mem)

lemma Holds.refine (held : e.Holds p name) (stored : path = name → p type) : (e.refine path type).Holds p name := by
  intro t mem
  rcases Table.mem_put mem with eq | old
  · cases eq
    exact stored rfl
  · exact held t old

lemma Holds.set (held : e.Holds p name) (stored : path = name → p type) : (e.set path type).Holds p name := by
  intro t mem
  rcases Table.mem_put mem with eq | old
  · cases eq
    exact stored rfl
  · exact held t ((List.mem_filter.mp old).1)

section Join

variable {l : Lattice} (joins : ∀ a b t, p a → p b → l.join a b = some t → p t)
include joins

lemma Holds.joinEntries {entries joined : List (String × Ty)} {values : Table String Ty}
    (left : ∀ t, (name,t) ∈ entries → p t) (right : ∀ t, (name,t) ∈ values.entries → p t)
    (ended : Env.joinEntries l values entries = some joined) : ∀ t, (name,t) ∈ joined → p t := by
  induction entries generalizing joined with
  | nil =>
    cases ended
    simp
  | cons entry rest ih =>
    obtain ⟨key,type⟩ := entry
    obtain ⟨later,continued,ended⟩ := Option.bind_eq_some_iff.mp ended
    have others := ih (fun t mem => left t (List.mem_cons_of_mem _ mem)) continued
    cases found : values.get? key with
    | some otherType =>
      simp only [found] at ended
      obtain ⟨both,joined,eq⟩ := Option.bind_eq_some_iff.mp ended
      cases eq
      intro t mem
      rcases List.mem_cons.mp mem with eq | inLater
      · cases eq
        exact joins _ _ _ (left _ List.mem_cons_self) (right _ (Table.mem_of_lookup found)) joined
      · exact others t inLater
    | none =>
      simp only [found] at ended
      cases ended
      split
      · exact others
      · intro t mem
        rcases List.mem_cons.mp mem with eq | inLater
        · cases eq
          exact left _ List.mem_cons_self
        · exact others t inLater

lemma Holds.join (left : e.Holds p name) (right : other.Holds p name)
    (ended : Env.join l e other = some joined) : joined.Holds p name := by
  unfold Env.join at ended
  split at ended
  · cases ended
    exact left
  · cases ended
    exact right
  · obtain ⟨entries,first,eq⟩ := Option.bind_eq_some_iff.mp ended
    cases eq
    intro t mem
    rcases List.mem_append.mp mem with matched | unmatched
    · exact Holds.joinEntries joins left right first t matched
    · exact right t ((List.mem_filter.mp unmatched).1)

end Join

end Env

lemma Name.isDotted_of_isBelow (below : isBelow path key = true) : isDotted key = true := by
  obtain ⟨rest,eq⟩ := List.isPrefixOf_iff_prefix.mp below
  simp [isDotted,← eq]

lemma Env.get?_set_of_ne {e : Env} (undotted : Name.isDotted name = false) (other : path ≠ name) :
    (e.set path type).get? name = e.get? name := by
  have above : Name.isBelow path name = false := by
    refine Bool.eq_false_iff.mpr fun below => ?_
    simpa [undotted] using Name.isDotted_of_isBelow below
  rw [get?,set,Table.get?_insert_of_ne _ _ other,Table.get?_filterKeys,above]
  rfl

lemma PrimitiveSet.eq_empty {set : PrimitiveSet} (none : tags.filter set.contains = []) : set = {} := by
  obtain ⟨null,undefined,trueValue,falseValue,number,string⟩ := set
  revert none
  cases null <;> cases undefined <;> cases trueValue <;> cases falseValue <;> cases number <;>
    cases string <;> decide

lemma Ty.eq_object_of_memberCount (only : t.objects = [o]) (single : t.memberCount = 1) : t = .object o := by
  cases t with
  | union u =>
    obtain ⟨primitives,enums,vars,objects⟩ := u
    obtain rfl : objects = [o] := only
    simp only [Ty.memberCount,Union.memberCount,List.length_singleton] at single
    obtain rfl : enums = [] := List.length_eq_zero_iff.mp (by omega)
    obtain rfl : vars = [] := List.length_eq_zero_iff.mp (by omega)
    obtain rfl : primitives = {} := PrimitiveSet.eq_empty (List.length_eq_zero_iff.mp (by omega))
    rfl
  | _ => cases only

namespace Walk

/-- If all visited environments had the property, they still have it. -/
def Visits (good : Env → Prop) (s s' : WalkState) : Prop := (∀ e ∈ s.visited, good e) → ∀ e ∈ s'.visited, good e

/-- Nothing is sent elsewhere, and all visited environments keep the property. -/
structure Calm (good : Env → Prop) (s s' : WalkState) : Prop where
  jumps : s'.jumps = s.jumps
  tryFrames : s'.tryFrames = s.tryFrames
  visits : Visits good s s'

lemma Visits.of_same {s s' : WalkState} (eq : s'.visited = s.visited) : Visits good s s' := fun all => eq ▸ all

lemma Visits.trans (first : Visits good s mid)
    (second : Visits good mid s') : Visits good s s' := fun all => second (first all)

lemma Calm.of_same {s s' : WalkState} (jumps : s'.jumps = s.jumps)
    (tryFrames : s'.tryFrames = s.tryFrames) (visited : s'.visited = s.visited) : Calm good s s' :=
  ⟨jumps,tryFrames,.of_same visited⟩

instance : Frame (Visits good) where
  refl _ := .of_same rfl
  trans := .trans
  reported _ _ _ := .of_same rfl
  muted moved := moved

instance : Frame (Calm good) where
  refl _ := .of_same rfl rfl rfl
  trans first second := ⟨second.jumps.trans first.jumps,second.tryFrames.trans first.tryFrames,
    first.visits.trans second.visits⟩
  reported _ _ _ := .of_same rfl rfl rfl
  muted moved := ⟨moved.jumps,moved.tryFrames,moved.visits⟩

instance (c : WalkContext) : Deferring c (Calm good) where
  resolved _ _ _ := .of_same rfl rfl rfl
  deferred _ _ _ _ := .of_same rfl rfl rfl

lemma yields_visiting {α : Type} {post : α → Prop} {left : α → List Env} {walk : Env → Walk α}
    (entered : good env) (walks : Yields (Calm good) (walk env) post)
    (leaves : ∀ a, post a → ∀ e ∈ left a, good e) : Yields (Calm good) (visiting left walk env) post := by
  have noted {envs : List Env} (all : ∀ e ∈ envs, good e) :
      Yields (Calm good) (modify fun s => {s with visited := envs ++ s.visited}) fun _ => True := by
    intro s _ _ ran
    cases ran
    exact ⟨⟨rfl,rfl,fun others => List.forall_mem_append.mpr ⟨all,others⟩⟩,trivial⟩
  exact (noted (List.forall_mem_singleton.mpr entered)).bind fun _ _ => walks.bind fun a held =>
    (noted (leaves a held)).bind fun _ _ => .pure held

/-- A local of the current scope with a declared type. -/
structure Declares (c : WalkContext) (name : String) (type : Ty) : Prop where
  found : ∃ l, c.tree.resolve c.scope name = some (c.scope,l) ∧ l.declared = some type
  undotted : Name.isDotted name = false

/-- What fits the declared type of the local keeps fitting it. -/
structure Guards (c : WalkContext) (name : String) (type : Ty) : Prop extends Declares c name type where
  closed : c.lattice.Closed type

lemma Declares.resolved {c : WalkContext} (declares : Declares c name type)
    (resolved : c.tree.resolve c.scope written = some (scope,l)) (eq : written = name) :
    l.declared = some type := by
  obtain ⟨l',found,declared⟩ := declares.found
  rw [eq,found] at resolved
  cases resolved
  exact declared

section Declared

variable {c : WalkContext} (guards : Guards c name type)

abbrev Fitting (c : WalkContext) (name : String) (type : Ty) : Env → Prop := Env.Holds (c.lattice.Below type) name

lemma below_unknown (c : WalkContext) (type : Ty) : c.lattice.Below type .unknown := by
  cases type <;> rfl

lemma yields_checkStored : Yields (Calm good) (checkStored c what value wanted span) fun fits =>
      fits = true → c.lattice.Below wanted value := by
  refine (Yields.ask _).bind fun fits asked => ?_
  split
  · rename_i granted
    cases granted
    exact .pure fun _ => asked
  · exact .moves_then fun _ => .pure nofun

section Writing

variable {env : Env} (held : Fitting c name type env)
include held

lemma yields_writeLocal (fits : written = name → c.lattice.Below type stored) :
    Yields (Calm (Fitting c name type)) (writeLocal c env written stored) (Fitting c name type) :=
  (Yields.writeLocal fun _ _ => .of_same rfl rfl rfl).mono fun _ eq => eq ▸ held.set fits

include guards

lemma yields_assignLocal (eq : written = name → l.declared = some type) :
    Yields (Calm (Fitting c name type)) (assignLocal c env written l value span declaring) (Fitting c name type) := by
  unfold assignLocal
  dsimp only
  cases declared : l.declared with
  | none =>
    have other : written ≠ name := fun isName => by simp [declared] at eq; exact eq isName
    exact .guarded (.moves_then fun _ => yields_writeLocal held fun isName => absurd isName other)
  | some wanted =>
    refine .guarded (yields_checkStored.bind fun fits granted => ?_)
    refine (Yields.pure rfl).bind fun stored isStored => yields_writeLocal held fun isName => ?_
    obtain rfl : wanted = type := Option.some.inj (declared.symm.trans (eq isName))
    rw [← isStored]
    split
    · rename_i fitting
      simp only [Bool.and_eq_true] at fitting
      exact granted fitting.1.1
    · exact guards.closed.self

lemma yields_assignName :
    Yields (Calm (Fitting c name type)) (assignName c id value span env) (Fitting c name type) := by
  obtain ⟨_,_,resolved,-,eq⟩ | ⟨check,moves,eq⟩ := Moves.assignName_cases c id value span env
  · exact eq ▸ yields_assignLocal guards held (guards.resolved resolved)
  · have := moves (Calm (Fitting c name type))
    exact eq ▸ .moves_then fun _ => .pure held

lemma fitting_extendRecord (known : path = name → path ≠ "this" → c.lattice.Below type object) :
    Fitting c name type (extendRecord object path prop stored env) := by
  unfold extendRecord
  split
  · exact held
  · rename_i simple
    simp only [Bool.or_eq_true,decide_eq_true_eq,not_or] at simple
    split
    · rename_i r only
      split
      · rename_i added
        simp only [Bool.and_eq_true,Bool.not_eq_true',Option.isNone_iff_eq_none,decide_eq_true_eq] at added
        obtain ⟨⟨strict,fresh⟩,single⟩ := added
        refine held.refine fun eq => ?_
        have below := known eq simple.2
        rw [Ty.eq_object_of_memberCount only single] at below
        exact guards.closed.extend stored below strict fresh
      · exact held
    · exact held

lemma yields_writeProperty (known : path = some name → name ≠ "this" → c.lattice.Below type object) :
    Yields (Calm (Fitting c name type)) (writeProperty c object path prop value span env) (Fitting c name type) := by
  refine (Yields.writeProperty).mono ?_
  rintro _ ⟨stored,rfl⟩
  cases path with
  | none => exact held
  | some path =>
    refine (fitting_extendRecord guards held fun eq => ?_).set fun isName => ?_
    · exact eq ▸ known (by rw [eq])
    · exact absurd isName (Name.property_ne guards.undotted path prop)

end Writing

section Reading

include guards

lemma yields_readName (held : Fitting c name type env) (eq : id.name = name) :
    Yields (Calm (Fitting c name type)) (readName c id env) (c.lattice.Below type) := by
  obtain ⟨l,found,declared⟩ := guards.found
  unfold readName
  rw [eq,found]
  refine .pure ?_
  simp only [WalkContext.isOwn,decide_true,if_true]
  cases known : env.get? name with
  | some t => exact held.get? known
  | none => simpa [declared] using guards.closed.self

lemma yields_join (left : Fitting c name type a) (right : Fitting c name type b) :
    Yields (Calm (Fitting c name type)) (join c a b) (Fitting c name type) :=
  (Yields.ask _).mono fun _ joined => left.join (fun _ _ _ => guards.closed.join) right joined

end Reading

end Declared

end Walk
end GradualJs
