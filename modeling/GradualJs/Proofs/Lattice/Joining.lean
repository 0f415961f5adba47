import GradualJs.Proofs.Subtyping.Fits

/-! What a join keeps of two unions. Primitive values, variables and enums are all kept, but
for enums whose values the rest of the join covers. So a join is above a union as soon as
every object of the union fits one of its objects. -/
namespace GradualJs

open Relations PrimitiveSet
open Option (bind_eq_some_iff)

section Lists

variable {α β : Type}

lemma mem_dropAdjacent [DecidableEq α] (list : List α) : a ∈ dropAdjacent list ↔ a ∈ list := by
  fun_induction dropAdjacent list with
  | case1 | case2 => rfl
  | case3 b rest ih | case4 b c rest differ ih => simp [ih]

@[simp] lemma mem_mergeSorted [DecidableEq α] {a : α} : a ∈ mergeSorted notAfter left right ↔ a ∈ left ∨ a ∈ right := by
  simp [mergeSorted,mem_dropAdjacent]

lemma filterAuxM_eq_some {list kept res : List α} (ended : list.filterAuxM f kept = some res) :
    res = (list.filter fun a => f a = some true).reverse ++ kept ∧ ∀ a ∈ list, ∃ ans, f a = some ans := by
  induction list generalizing kept with
  | nil =>
    cases ended
    simp
  | cons a rest ih =>
    simp only [List.filterAuxM,Option.bind_eq_bind,bind_eq_some_iff] at ended
    obtain ⟨ans,asked,ended⟩ := ended
    obtain ⟨rfl,others⟩ := ih ended
    refine ⟨?_,List.forall_mem_cons.mpr ⟨⟨ans,asked⟩,others⟩⟩
    cases ans <;> simp [asked]

/-- A filter whose questions are all answered keeps what is answered with yes. -/
lemma filterM_eq_some {list res : List α} (ended : list.filterM f = some res) :
    res = list.filter (fun a => f a = some true) ∧ ∀ a ∈ list, ∃ ans, f a = some ans := by
  simp only [List.filterM,Option.bind_eq_bind,bind_eq_some_iff] at ended
  obtain ⟨reversed,aux,eq⟩ := ended
  obtain ⟨rfl,answered⟩ := filterAuxM_eq_some aux
  cases eq
  exact ⟨by simp,answered⟩

lemma filterMapM_eq_some {list : List α} (ended : list.filterMapM f = some res) :
    res = list.filterMap (fun a => (f a).join) ∧ ∀ a ∈ list, ∃ found, f a = some found := by
  induction list generalizing res with
  | nil =>
    cases ended
    simp
  | cons a rest ih =>
    simp only [List.filterMapM_cons,Option.bind_eq_bind,bind_eq_some_iff] at ended
    obtain ⟨found,asked,ended⟩ := ended
    have here : ∃ found, f a = some found := ⟨found,asked⟩
    cases found with
    | none =>
      obtain ⟨eq,others⟩ := ih ended
      exact ⟨by simp [asked,eq],List.forall_mem_cons.mpr ⟨here,others⟩⟩
    | some b =>
      obtain ⟨later,continued,eq⟩ := bind_eq_some_iff.mp ended
      cases eq
      obtain ⟨eq,others⟩ := ih continued
      exact ⟨by simp [asked,eq],List.forall_mem_cons.mpr ⟨here,others⟩⟩

end Lists

/-- Everything of two unions that a join keeps without asking, with the objects it has. -/
def Union.joined (u v : Union) (objects : List Obj) : Union where
  primitives := u.primitives.union v.primitives
  enums := mergeSorted (fun a b => a.index ≤ b.index) u.enums v.enums
  vars := mergeSorted (fun a b => a ≤ b) u.vars v.vars
  objects := objects

namespace Registry

variable {r : Registry}

lemma absorbEnums_eq_some {u settled : Union} (ended : absorbEnums r below u = some settled) :
    ∃ enums, enums.Sublist u.enums ∧ settled = {u with enums} := by
  unfold absorbEnums at ended
  dsimp only at ended
  split at ended
  · cases ended
    exact ⟨u.enums,.refl _,by cases u; rfl⟩
  · obtain ⟨enums,filtered,eq⟩ := bind_eq_some_iff.mp ended
    cases eq
    obtain ⟨rfl,-⟩ := filterM_eq_some filtered
    exact ⟨_,List.filter_sublist,rfl⟩

lemma widens_absorbEnums (lax : Bool) (backed : r.Backed) {u settled : Union}
    (ended : absorbEnums r (.within r depth) u = some settled) :
    r.Widens lax u settled ∧ settled.objects = u.objects ∧ (settled.isEmpty = true → u.isEmpty = true) := by
  unfold absorbEnums at ended
  dsimp only at ended
  split at ended
  · cases ended
    exact ⟨.refl u,rfl,id⟩
  · rename_i asked
    obtain ⟨enums,filtered,eq⟩ := bind_eq_some_iff.mp ended
    cases eq
    obtain ⟨rfl,answered⟩ := filterM_eq_some filtered
    have members : Union.isEmpty {u with enums := []} = false := by
      by_contra empty
      simp_all [Ty.ofUnion,Ty.isBottom]
    have rest : Ty.ofUnion {u with enums := []} = .union {u with enums := []} := by
      simp [Ty.ofUnion,members]
    refine ⟨⟨by simp,List.Subset.refl _,fun id mem => ?_,List.Subset.refl _⟩,rfl,?_⟩
    · obtain ⟨ans,answers⟩ := answered id mem
      cases ans with
      | true => exact .inl (List.mem_filter.mpr ⟨mem,by simpa using answers⟩)
      | false =>
        obtain ⟨covered,isCovered,eq⟩ := bind_eq_some_iff.mp answers
        have yes : covered = true := by simpa using eq
        rw [rest,yes] at isCovered
        obtain ⟨table,ends⟩ := answers_iff.mp ⟨depth,isCovered⟩
        exact .inr ((backed ends).either.widen ⟨by simp,List.Subset.refl _,by simp,List.Subset.refl _⟩)
    · intro empty
      simp_all [Union.isEmpty]

lemma joinUnions_eq_some {u v : Union}
    (ended : (mergeRules r (.within r depth)).joinUnions u v = some t) : ∃ objects settled,
      normalizeObjects (mergeRules r (.within r depth)).combine (u.objects ++ v.objects) =
        some objects ∧ absorbEnums r (.within r depth) (u.joined v objects) = some settled ∧
      t = .ofUnion settled := by
  obtain ⟨objects,normalized,ended⟩ := bind_eq_some_iff.mp ended
  obtain ⟨settled,absorbed,eq⟩ := bind_eq_some_iff.mp ended
  exact ⟨objects,settled,normalized,absorbed,(Option.some.inj eq).symm⟩

section Bound

lemma widens_joined (lax : Bool) (u v : Union)
    (subset : u.objects ⊆ objects) : r.Widens lax u (u.joined v objects) where
  primitives := by simp [Union.joined]
  vars _ mem := by simp [Union.joined,mem]
  enums id mem := .inl (by simp [Union.joined,mem])
  objects := subset

variable {u w settled : Union}

lemma isEmpty_of_contained {whole : Union} (empty : whole.isEmpty = true)
    (primitives : whole.primitives.contains w.primitives) (enums : w.enums ⊆ whole.enums)
    (vars : w.vars ⊆ whole.vars) (objects : ∀ o ∈ w.objects, ∃ p, p ∈ whole.objects) : w.isEmpty = true := by
  simp only [Union.isEmpty,isEmpty,Bool.and_eq_true,decide_eq_true_eq,List.isEmpty_iff] at empty ⊢
  obtain ⟨⟨⟨noPrimitives,noEnums⟩,noVars⟩,noObjects⟩ := empty
  refine ⟨⟨⟨?_,?_⟩,?_⟩,?_⟩
  · have eq : empty.inter w.primitives = w.primitives := by
      simpa [contains,noPrimitives] using primitives
    rw [← eq]
    simp [inter,zipWith,empty]
  · exact List.subset_nil.mp (noEnums ▸ enums)
  · exact List.subset_nil.mp (noVars ▸ vars)
  · refine List.eq_nil_iff_forall_not_mem.mpr fun o mem => ?_
    obtain ⟨p,inWhole⟩ := objects o mem
    simp [noObjects] at inWhole

/-- A join is above a union that it was made from if it has an object above each object of
the union. -/
lemma fits_settled (kinded : r.Kinded) (absorbed : absorbEnums r (.within r depth) (u.joined v objects) = some settled)
    (members : w.isEmpty = false) (part : w = u ∨ w = v)
    (covered : ∀ o ∈ w.objects, ∃ p ∈ objects, r.FitsObject lax o p) :
    r.Fits lax (.union w) (.ofUnion settled) := by
  have primitives : (u.joined v objects).primitives.contains w.primitives := by
    rcases part with rfl | rfl <;> simp [Union.joined]
  have enums : w.enums ⊆ (u.joined v objects).enums := by
    intro id mem
    rcases part with rfl | rfl <;> simp [Union.joined,mem]
  have vars : w.vars ⊆ (u.joined v objects).vars := by
    intro name mem
    rcases part with rfl | rfl <;> simp [Union.joined,mem]
  have above : r.Fits lax (.union w) (.union (u.joined v objects)) := by
    refine fits_union.mpr ⟨primitives,?_,fun id mem => .inl (by simpa using enums mem),covered⟩
    exact List.all_eq_true.mpr fun name mem => by simpa using vars mem
  obtain ⟨widens,-,empty⟩ := widens_absorbEnums lax kinded.backed absorbed
  have whole : settled.isEmpty = false := by
    by_contra lost
    have noMembers := empty (by simpa using lost)
    rw [isEmpty_of_contained noMembers primitives enums vars fun o mem =>
      (covered o mem).imp fun _ => And.left] at members
    cases members
  simpa [Ty.ofUnion,whole] using above.widen widens

end Bound

end Registry
end GradualJs
