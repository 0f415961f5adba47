import GradualJs.Check
import GradualJs.Proofs.Flow.Fitting
import GradualJs.Proofs.Registry.Outline

/-! What is known where two paths meet. A property path is known if both sides know it, and a
local if one of them does. `this` is kept under a name without a dot, as a local is, although
only tests bind it. -/
namespace GradualJs

open PrimitiveSet Table Option

lemma Ty.primitive_eq (set : PrimitiveSet) :
    primitive set = if set = {} then .bottom else .union {primitives := set} := by
  by_cases empty : set = {} <;>
    simp [primitive,ofUnion,Union.isEmpty,PrimitiveSet.isEmpty,PrimitiveSet.empty,empty]

namespace Lattice

lemma join_primitive (r : Registry) (depth : Nat) (a b : PrimitiveSet) :
    join {registry := r, depth := depth + 1} (.primitive a) (.primitive b) = some (.primitive (a.union b)) := by
  change (Relations.mergeRules r (.within r depth)).joinStep (.primitive a) (.primitive b) = _
  by_cases emptyA : a = {}
  · subst emptyA
    have eq : union {} b = b := by simp [union,zipWith]
    simp [Ty.primitive_eq,eq,MergeRules.joinStep]
  by_cases emptyB : b = {}
  · subst emptyB
    have eq : a.union {} = a := by simp [union,zipWith]
    simp [Ty.primitive_eq,eq,emptyA,MergeRules.joinStep]
  · rw [Ty.primitive_eq,Ty.primitive_eq,if_neg emptyA,if_neg emptyB]
    rfl

lemma below_primitive (r : Registry) (depth : Nat) {a b : PrimitiveSet} (listed : b.contains a = true) :
    Below {registry := r, depth := depth + 1} (.primitive b) (.primitive a) := by
  change StateT.run' (Relations.subtypeStep r (.within r depth) false (.primitive a) (.primitive b)) [] = _
  by_cases emptyA : a = {}
  · simp [Ty.primitive_eq,emptyA,Relations.subtypeStep]
  by_cases emptyB : b = {}
  · have none : a = {} := by
      rw [← of_decide_eq_true listed,emptyB]
      simp [inter,zipWith]
    exact absurd none emptyA
  · simp [Ty.primitive_eq,emptyA,emptyB,Relations.subtypeStep,Relations.subtypeUnions,listed]

end Lattice

namespace Env

variable {l : Lattice} {e other joined : Env}

lemma lookup_joinEntries {values : Table String Ty} {entries joined : List (String × Ty)}
    (ended : joinEntries l values entries = some joined) (path : String) :
    lookup path joined = match lookup path entries, values.get? path with
      | some a, some b => l.join a b
      | some a, none => if Name.isDotted path then none else some a
      | none, _ => none := by
  induction entries generalizing joined with
  | nil =>
    cases ended
    rfl
  | cons entry rest ih =>
    obtain ⟨key,type⟩ := entry
    obtain ⟨later,continued,ended⟩ := bind_eq_some_iff.mp ended
    have others := ih continued
    by_cases eq : key = path
    · subst eq
      cases found : values.get? key with
      | some otherType =>
        simp only [found] at ended
        obtain ⟨both,isJoin,eq⟩ := bind_eq_some_iff.mp ended
        cases eq
        simp [lookup,isJoin]
      | none =>
        simp only [found] at ended others
        cases ended
        cases dotted : Name.isDotted key with
        | true =>
          simp only [dotted,if_true,lookup] at others ⊢
          cases again : lookup key rest <;> simpa [again] using others
        | false => simp [lookup]
    · cases found : values.get? key with
      | some otherType =>
        simp only [found] at ended
        obtain ⟨both,isJoin,written⟩ := bind_eq_some_iff.mp ended
        cases written
        simpa [lookup,eq] using others
      | none =>
        simp only [found] at ended
        cases ended
        split
        · simpa [lookup,eq] using others
        · simpa [lookup,eq] using others

lemma get?_join (live : e.live = true) (otherLive : other.live = true)
    (ended : e.join l other = some joined) (path : String) :
    joined.get? path = match e.get? path, other.get? path with
      | some a, some b => l.join a b
      | some a, none | none, some a => if Name.isDotted path then none else some a
      | none, none => none := by
  simp only [join,live,otherLive] at ended
  obtain ⟨entries,first,eq⟩ := bind_eq_some_iff.mp ended
  cases eq
  have unmatchedAt : Table.lookup path (unmatched e.values other.values) =
      if !Name.isDotted path && !e.values.contains path then other.get? path else none :=
    Table.lookup_filter (fun key => !Name.isDotted key && !e.values.contains key) path _
  have split : get? {values := ⟨entries ++ unmatched e.values other.values⟩} path = (Table.lookup path entries).or
      (Table.lookup path (unmatched e.values other.values)) := Table.lookup_append path _ _
  rw [split,lookup_joinEntries first path,unmatchedAt]
  cases known : e.get? path with
  | some a =>
    have here : e.values.get? path = some a := known
    have listed : Table.lookup path e.values.entries = some a := known
    cases otherKnown : other.get? path with
    | some b =>
      have there : other.values.get? path = some b := otherKnown
      simp [here,listed,there,Table.contains]
    | none =>
      have there : other.values.get? path = none := otherKnown
      simp [here,listed,there,Table.contains]
  | none =>
    have here : e.values.get? path = none := known
    have listed : Table.lookup path e.values.entries = none := known
    cases otherKnown : other.get? path with
    | some b => cases dotted : Name.isDotted path <;> simp [here,listed,Table.contains]
    | none => simp [listed]

def Primitive (e : Env) : Prop := ∀ entry ∈ e.values.entries, ∃ set, entry.2 = .primitive set

lemma Primitive.get? (primitive : e.Primitive) (found : e.get? path = some t) : ∃ set, t = .primitive set :=
  primitive _ (mem_of_lookup found)

lemma Primitive.exists_join (left : e.Primitive) (right : other.Primitive) :
    ∃ joined, e.join {registry := r, depth := depth + 1} other = some joined := by
  have entries (list : List (String × Ty)) (all : ∀ entry ∈ list, ∃ set, entry.2 = .primitive set) :
      ∃ joined, joinEntries {registry := r, depth := depth + 1} other.values list = some joined := by
    induction list with
    | nil => exact ⟨[],rfl⟩
    | cons entry rest ih =>
      obtain ⟨key,type⟩ := entry
      obtain ⟨⟨set,rfl⟩,others⟩ := List.forall_mem_cons.mp all
      obtain ⟨later,continued⟩ := ih others
      cases found : other.values.get? key with
      | none => exact ⟨_,by simp [joinEntries,continued,found]; rfl⟩
      | some t =>
        obtain ⟨otherSet,rfl⟩ := right.get? found
        exact ⟨_,by simp [joinEntries,continued,found,Lattice.join_primitive]; rfl⟩
  obtain ⟨joined,ended⟩ := entries _ left
  unfold join
  split
  · exact ⟨_,rfl⟩
  · exact ⟨_,rfl⟩
  · exact ⟨_,by rw [ended]; rfl⟩

def KnownInOne (e other : Env) (path : String) : Prop := (e.get? path).isSome ≠ (other.get? path).isSome

instance (e other : Env) (path : String) : Decidable (KnownInOne e other path) :=
  inferInstanceAs (Decidable ((e.get? path).isSome ≠ (other.get? path).isSome))

end Env

/-- What a test can narrow besides a local: `this`, and properties. -/
def Name.isRefinable (path : String) : Bool := path = "this" || isDotted path

namespace WalkContext

/-- The type of `this` where the environment is known. -/
def readThis (c : WalkContext) (e : Env) : Ty := (e.get? "this").getD c.receiver
def Covers (c : WalkContext) (after pre : Env) : Prop := c.lattice.Below (c.readThis after) (c.readThis pre)

instance (c : WalkContext) (after pre : Env) : Decidable (c.Covers after pre) :=
  inferInstanceAs (Decidable (c.lattice.isSubtype (c.readThis pre) (c.readThis after) = some true))

end WalkContext

section Merged

variable {c : WalkContext} {first second merged : Env} (live : first.live = true)
  (otherLive : second.live = true) (joined : first.join c.lattice second = some merged)
include live otherLive joined

lemma Env.get?_join_of_dotted (dotted : Name.isDotted path = true)
    (inOne : Env.KnownInOne first second path) : merged.get? path = none := by
  rw [Env.get?_join live otherLive joined path]
  cases left : first.get? path <;> cases right : second.get? path <;> simp_all [Env.KnownInOne]

lemma Env.get?_join_this (inOne : Env.KnownInOne first second "this") : merged.get? "this" ≠ none := by
  rw [Env.get?_join live otherLive joined "this"]
  cases left : first.get? "this" <;> cases right : second.get? "this" <;>
    simp_all [Env.KnownInOne,Name.isDotted]

/-- Where one side narrows `this` and the other does not, the receiver has to fit what is left. -/
lemma WalkContext.covers_merged_iff (primitive : first.Primitive) (otherPrimitive : second.Primitive) :
    (c.Covers merged first ∧ c.Covers merged second) ↔
      match first.get? "this", second.get? "this" with
      | some _, some _ => True
      | some known, none | none, some known => c.lattice.Below known c.receiver
      | none, none => c.lattice.Below c.receiver c.receiver := by
  have fits {a b : PrimitiveSet} (listed : b.contains a = true) :
      c.lattice.Below (.primitive b) (.primitive a) := Lattice.below_primitive c.registry 4095 listed
  have this := Env.get?_join live otherLive joined "this"
  unfold Covers readThis
  cases left : first.get? "this" with
  | some a =>
    obtain ⟨a,rfl⟩ := primitive.get? left
    cases right : second.get? "this" with
    | some b =>
      obtain ⟨b,rfl⟩ := otherPrimitive.get? right
      have both : merged.get? "this" = some (.primitive (a.union b)) := by
        rw [this,left,right]
        exact Lattice.join_primitive c.registry 4095 a b
      simp only [both,getD_some,iff_true]
      exact ⟨fits (contains_union_left a b),fits (contains_union_right a b)⟩
    | none =>
      have one : merged.get? "this" = some (.primitive a) := by simp [this,left,right,Name.isDotted]
      simp only [one,getD_some,getD_none]
      exact and_iff_right (fits (contains_self a))
  | none =>
    cases right : second.get? "this" with
    | some b =>
      obtain ⟨b,rfl⟩ := otherPrimitive.get? right
      have one : merged.get? "this" = some (.primitive b) := by simp [this,left,right,Name.isDotted]
      simp only [one,getD_some,getD_none]
      exact and_iff_left (fits (contains_self b))
    | none =>
      have unknown : merged.get? "this" = none := by simp [this,left,right]
      simp only [unknown,getD_none,and_self]

end Merged

open Env in
/-- A property path that only one side knows is forgotten where paths meet. `this` is forgotten
if and only if it is not known to one side alone, and what is read as `this` covers what was read
on both sides if and only if both know it, or the receiver fits what is left. -/
theorem one_sided_forgotten_iff (c : WalkContext) {first second : Env} (live : first.live = true)
    (otherLive : second.live = true) (primitive : first.Primitive) (otherPrimitive : second.Primitive) :
    ∃ merged, first.join c.lattice second = some merged ∧
      (∀ path, Name.isDotted path = true → KnownInOne first second path → merged.get? path = none) ∧
      ((∀ path, Name.isRefinable path = true → KnownInOne first second path →
        merged.get? path = none) ↔ ¬KnownInOne first second "this") ∧
      ((c.Covers merged first ∧ c.Covers merged second) ↔
        match first.get? "this",second.get? "this" with
        | some _,some _ => True
        | some known,none | none,some known => c.lattice.Below known c.receiver
        | none,none => c.lattice.Below c.receiver c.receiver) := by
  obtain ⟨merged,joined⟩ : ∃ merged, first.join c.lattice second = some merged := primitive.exists_join otherPrimitive
  have dotted (path : String) (isDotted : Name.isDotted path = true)
      (inOne : KnownInOne first second path) : merged.get? path = none :=
    get?_join_of_dotted live otherLive joined isDotted inOne
  refine ⟨merged,joined,dotted,⟨fun forgets inOne => ?_,fun inBoth path refinable inOne => ?_⟩,
    WalkContext.covers_merged_iff live otherLive joined primitive otherPrimitive⟩
  · exact get?_join_this live otherLive joined inOne (forgets "this" rfl inOne)
  · rcases (Bool.or_eq_true _ _).mp refinable with isThis | isDotted
    · exact absurd (of_decide_eq_true isThis ▸ inOne) inBoth
    · exact dotted path isDotted inOne

namespace Halving

def amount : Ty := .primitive (.union .numberOnly .stringOnly)
def context : WalkContext := Flow.context (Outline.registry []) {} ⟨[]⟩ {} 0 amount (some .number)
def knowing (entries : List (String × Ty)) : Env := {values := ⟨entries⟩}
def this : Expression := ⟨{},.this⟩

/-- A test of `this` behind another test, and then `this`. -/
def body : List Statement := [
  .ifStmt ⟨{},.identifier ⟨"sure",{}⟩⟩
    (.ifStmt ⟨{},.binary .strictNotEqual ⟨{},.unary .typeof this⟩ ⟨{},.literal (.string "number")⟩⟩
      (.throwStmt this {}) none {}) none {},
  .returnStmt (some this) {}]

/-- A function that is called on an amount and says it returns a number. -/
def prog (body : List Statement) : Program where
  statements := [.function ⟨"half",{}⟩ {
    id := 0, parameters := [⟨"sure",{}⟩], body := ⟨body,{}⟩,
    jsdoc := some {
      thisType := some ⟨.union [Outline.named "number" [],Outline.named "string" []],{}⟩
      returnType := some (Outline.named "number" [])}}]

def reports (body : List Statement) : Option (List DiagnosticKind) :=
  (Options.check {} (prog body) none).map fun res => res.diagnostics.map (·.kind)

end Halving

open Halving Env in
theorem one_sided_forgotten_halving : ∃ merged, (knowing [("this",.number),("this.unit",.string)]).join context.lattice
        (knowing [("this",.string)]) = some merged ∧ merged.get? "this.unit" = none ∧
      context.Covers merged (knowing [("this",.number),("this.unit",.string)]) ∧
      context.Covers merged (knowing [("this",.string)]) := by
  have numbers : (knowing [("this",.number),("this.unit",.string)]).Primitive := by
    simp [knowing,Env.Primitive,Ty.number,Ty.string]
  have strings : (knowing [("this",.string)]).Primitive := by
    simp [knowing,Env.Primitive,Ty.string]
  obtain ⟨merged,joined,dotted,-,covers⟩ := one_sided_forgotten_iff context rfl rfl numbers strings
  have inBoth := covers.mpr trivial
  exact ⟨merged,joined,dotted "this.unit" rfl (by decide),inBoth.1,inBoth.2⟩

open Halving Env in
/-- A test of `this` on one path outlives the merge, and hides that a result has the wrong type. -/
theorem one_sided_this_kept : KnownInOne (knowing [("this",.number)]) (knowing []) "this" ∧
    (∃ merged, (knowing [("this",.number)]).join context.lattice (knowing []) = some merged ∧
      merged.get? "this" = some .number ∧ ¬context.Covers merged (knowing [])) ∧ reports body = some [] ∧
    reports [.returnStmt (some this) {}] = some [.returnTypeMismatch] := by
  refine ⟨by decide,⟨knowing [("this",.number)],?_,rfl,?_⟩,?_,?_⟩
  · rfl
  · decide +kernel
  · decide +kernel
  · decide +kernel

end GradualJs
