import GradualJs.Declarations.Validate
import GradualJs.Proofs.Registry.Weight
import Mathlib.Logic.Relation

/-! The visits of ancestors leave nothing out. Every type on the chain of superclasses is
among them, and a property is found on the first of them that has it. -/
namespace GradualJs

open List

lemma findSome?_eq_bind_find? {α β : Type} (f : α → Option β) (list : List α) :
    list.findSome? f = (list.find? fun a => (f a).isSome).bind f := by
  induction list with
  | nil => rfl
  | cons a rest ih => cases found : f a <;> simp [found,ih]

namespace Nominal

/-- How a type itself holds a property: not at all, by inference, or by a declaration. -/
def standing (n : Nominal) (name : String) : Option Bool := (n.properties.get? name).map (·.declared)

end Nominal

namespace Registry

/-- The visits that types which have not been seen may still lead to. -/
def outstanding (r : Registry) (seen : List NominalId) : Nat :=
  (r.nominalIds.map fun id => if id ∈ seen then 0 else (r.nominal id).supertypes.length + 1).foldr (· + ·) 0

variable {r : Registry}

lemma outstanding_nil : r.outstanding [] + 2 = r.visitBound := by
  have listed : r.nominalIds.map r.nominal = r.nominals := by
    refine ext_getElem (by simp [nominalIds]) fun index _ inside => ?_
    simp [nominalIds,nominal,inside]
  have lengths : r.nominalIds.map (fun id => (r.nominal id).supertypes.length + 1) =
      r.nominals.map fun n => n.supertypes.length + 1 := by
    conv_rhs => rw [← listed]
    rw [map_map]
    rfl
  simp [outstanding,visitBound,lengths]

/-- The most that a visit may lead to. A type that is not declared inherits nothing. -/
def branching (r : Registry) (id : NominalId) : Nat :=
  if id ∈ r.nominalIds then (r.nominal id).supertypes.length + 1 else 0

variable (i : Instance) {id : NominalId}

lemma length_supertypesOf : (r.supertypesOf i).length ≤ r.branching i.id := by
  unfold branching
  split
  · unfold supertypesOf
    dsimp only
    split <;> simp
  · rename_i absent
    simp [supertypesOf,extendsObject,nominal_of_notMem absent,Nominal.supertypes]

lemma length_supertypes (id : NominalId) : (r.nominal id).supertypes.length ≤ r.branching id := by
  unfold branching
  split
  · omega
  · rename_i absent
    simp [nominal_of_notMem absent,Nominal.supertypes]

lemma outstanding_cons (new : id ∉ seen) : r.outstanding (id :: seen) + r.branching id ≤ r.outstanding seen := by
  have used (ids : List NominalId) (cost : NominalId → Nat) :
      (ids.map fun other => if other ∈ id :: seen then 0 else cost other).foldr (· + ·) 0 +
        (if id ∈ ids then cost id else 0) ≤
      (ids.map fun other => if other ∈ seen then 0 else cost other).foldr (· + ·) 0 := by
    induction ids with
    | nil => simp
    | cons first rest ih =>
      by_cases eq : id = first
      · have less := Nat.le_trans (Nat.le_add_right _ _) ih
        simp only [map_cons,foldr_cons,mem_cons,← eq,true_or,if_true,new,if_false] at less ⊢
        omega
      · simp only [map_cons,foldr_cons,mem_cons,eq,Ne.symm eq,false_or] at ih ⊢
        omega
  exact used r.nominalIds fun id => (r.nominal id).supertypes.length + 1

section Visits

variable {α : Type} {key : α → NominalId} {expand : α → List α} (few : ∀ a, (expand a).length ≤ r.branching (key a))
include few

/-- With enough steps everything in the queue is visited, and everything that a visit leads
to. -/
lemma visit_complete (steps : Nat) (seen : List NominalId) (queue : List α)
    (enough : queue.length + r.outstanding seen ≤ steps) :
    (∀ a ∈ queue, key a ∈ seen ∨ key a ∈ (visit key expand steps seen queue).map key) ∧
    ∀ a ∈ visit key expand steps seen queue, ∀ s ∈ expand a, key s ∈ seen ∨
      key s ∈ (visit key expand steps seen queue).map key := by
  fun_induction visit key expand steps seen queue with
  | case1 seen queue =>
    have empty : queue = [] := length_eq_zero_iff.mp (by omega)
    simp [empty]
  | case2 => simp
  | case3 steps seen i queue present ih =>
    have old : key i ∈ seen := by simpa using present
    obtain ⟨queued,led⟩ := ih (by simp only [length_cons] at enough; omega)
    exact ⟨forall_mem_cons.mpr ⟨.inl old,queued⟩,led⟩
  | case4 steps seen i queue absent ih =>
    have new : key i ∉ seen := by simpa using absent
    have := r.outstanding_cons new
    have := few i
    obtain ⟨queued,led⟩ := ih (by simp only [length_append,length_cons] at enough ⊢; omega)
    have later {s : α} (found : key s ∈ key i :: seen ∨
        key s ∈ (visit key expand steps (key i :: seen) (queue ++ expand i)).map key) :
        key s ∈ seen ∨ key s ∈ (i :: visit key expand steps (key i :: seen) (queue ++ expand i)).map key := by
      rw [mem_cons,or_assoc,or_left_comm] at found
      simpa using found
    refine ⟨forall_mem_cons.mpr ⟨.inr (by simp),fun s queuedS => ?_⟩,
      forall_mem_cons.mpr ⟨fun s inherited => ?_,fun j visited s inherited => ?_⟩⟩
    · exact later (queued s (mem_append_left _ queuedS))
    · exact later (queued s (mem_append_right _ inherited))
    · exact later (led j visited s inherited)

lemma visit_closed (a : α) : key a ∈ (visit key expand r.visitBound [] [a]).map key ∧
    ∀ b ∈ visit key expand r.visitBound [] [a], ∀ s ∈ expand b,
      key s ∈ (visit key expand r.visitBound [] [a]).map key := by
  have := r.outstanding_nil
  obtain ⟨queued,led⟩ := visit_complete few r.visitBound [] [a] (by simp; omega)
  exact ⟨(queued a (by simp)).resolve_left (by simp),
    fun b visited s inherited => (led b visited s inherited).resolve_left (by simp)⟩

lemma mem_visit (edges : ∀ a id, edge (key a) id ↔ ∃ s ∈ expand a, key s = id) (a : α) :
    id ∈ (visit key expand r.visitBound [] [a]).map key ↔ Relation.ReflTransGen edge (key a) id := by
  obtain ⟨start,led⟩ := visit_closed few a
  constructor
  · intro mem
    obtain ⟨b,visited,rfl⟩ := mem_map.mp mem
    refine visit_forall (P := fun b => Relation.ReflTransGen edge (key a) (key b)) ?_ _ _ _ ?_ b visited
    · exact fun b reached s mem => reached.tail ((edges b (key s)).mpr ⟨s,mem,rfl⟩)
    · simpa using .refl
  · intro reached
    induction reached with
    | refl => exact start
    | tail _ step ih =>
      obtain ⟨b,visited,rfl⟩ := mem_map.mp ih
      obtain ⟨s,mem,rfl⟩ := (edges b _).mp step
      exact led b visited s mem

end Visits

/-- One type names the other as its superclass or as one of its interfaces. -/
def Names (r : Registry) (id other : NominalId) : Prop := ∃ s ∈ (r.nominal id).supertypes, s.id = other

lemma mem_reachable : other ∈ r.reachable id ↔ Relation.ReflTransGen r.Names id other := by
  have visited : other ∈ (r.reachable id).map (fun id => id) ↔ Relation.ReflTransGen r.Names id other :=
    mem_visit (fun id => by simpa using length_supertypes id) (by simp [Names]) id
  rwa [map_id_fun'] at visited

lemma ancestry_complete : i.id ∈ (r.ancestry i).map (·.id) ∧
    ∀ j ∈ r.ancestry i, ∀ s ∈ r.supertypesOf j, s.id ∈ (r.ancestry i).map (·.id) :=
  visit_closed length_supertypesOf i

lemma superclass_supertypesOf {i parent : Instance} (extended : (r.nominal i.id).superclass = some parent) :
    ∃ s ∈ r.supertypesOf i, s.id = parent.id := by
  refine ⟨⟨parent.id,parent.args.map (·.instantiateVars (r.substitutionFor i))⟩,?_,rfl⟩
  simp [supertypesOf,extendsObject,extended,Nominal.supertypes]

lemma chainFrom_subset_ancestry (steps : Nat) (seen : List NominalId)
    (id : NominalId) (start : id ∈ (r.ancestry i).map (·.id)) :
    r.chainFrom steps seen id ⊆ (r.ancestry i).map (·.id) := by
  fun_induction chainFrom r steps seen id with
  | case1 | case2 | case3 => simpa using start
  | case4 steps seen id parent extended fresh ih =>
    obtain ⟨j,visited,rfl⟩ := mem_map.mp start
    obtain ⟨s,inherited,eq⟩ := superclass_supertypesOf extended
    refine cons_subset.mpr ⟨start,ih ?_⟩
    rw [← eq]
    exact (ancestry_complete i).2 j visited s inherited

/-- The search for a property stops at the first ancestor that has it. -/
lemma findProperty_eq (own : Instance → Option PropertyLookup) (expand : Instance → List Instance)
    (steps : Nat) (seen : List NominalId) (queue : List Instance) :
    findProperty own expand steps seen queue = (visit (·.id) expand steps seen queue).findSome? own := by
  fun_induction findProperty own expand steps seen queue with
  | case1 | case2 => rfl
  | case3 steps seen i queue present ih => rw [ih,visit,if_pos present]
  | case4 steps seen i queue absent found here => rw [visit,if_neg absent,findSome?_cons,here]
  | case5 steps seen i queue absent none ih => rw [ih,visit,if_neg absent,findSome?_cons,none]

lemma lookupProperty_eq (name : String) : r.lookupProperty i name =
    ((r.ancestry i).find? fun j => ((r.nominal j.id).standing name).isSome).bind (r.ownProperty name) := by
  have owned (j : Instance) : (r.ownProperty name j).isSome = ((r.nominal j.id).standing name).isSome := by
    simp [ownProperty,Nominal.standing]
  rw [lookupProperty,findProperty_eq,findSome?_eq_bind_find?]
  simp only [owned]
  rfl

/-- A property that is looked up by its name is the one among all properties that has the name,
found on the same ancestor and with the same arguments put in. -/
theorem lookupProperty_eq_get? (r : Registry) (i : Instance) (name : String) :
    r.lookupProperty i name = (r.allProperties i).get? name := by
  have own (j : Instance) : r.ownProperty name j = Table.lookup name (r.ownProperties j) :=
    (Table.lookup_map name _ _).symm
  rw [lookupProperty,allProperties,findProperty_eq,gatherProperties_eq,Table.get?_foldl_insertNew,
    Table.lookup_flatMap,funext own]
  rfl

/-- Two ways lead up to a generic type, with different arguments, and from there back down. -/
def diamond : Registry where
  nominals := [
    {interfaces := [⟨⟨1⟩,[]⟩,⟨⟨2⟩,[]⟩]}, {superclass := some ⟨⟨3⟩,[.number]⟩}, {superclass := some ⟨⟨3⟩,[.string]⟩},
    {typeParams := ["T"], superclass := some ⟨⟨0⟩,[]⟩,
     properties := ⟨[("x",{type := .var "T", declared := true, span := {}})]⟩}]

theorem lookupProperty_diamond : ((diamond.allProperties ⟨⟨0⟩,[]⟩).get? "x").map (fun p => (p.owner,p.decl.type)) =
    some (⟨3⟩,.number) := by
  rw [← lookupProperty_eq_get?]
  rfl

end Registry
end GradualJs
