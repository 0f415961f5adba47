import GradualJs.Proofs.Ty.Merge
import Mathlib.Data.List.Perm.Subperm
import Mathlib.Data.List.Sort
import Mathlib.Logic.Relation

/-! Normalised objects. Normalisation only combines objects: it loses none and adds none.
Objects that it leaves alone are ordered by what they are, none of them combines with a later
one, and so a union holds one object of each identity. -/
namespace GradualJs

open List
open Option (bind_eq_some_iff)

variable {objects others done res : List Obj} {a b : Obj} {m : Type → Type}

section Sorting

variable {α : Type}

lemma insertSorted_eq_orderedInsert (a : α) (list : List α) :
    insertSorted notAfter a list = list.orderedInsert (notAfter · ·) a := by
  induction list with
  | nil => rfl
  | cons b rest ih => rw [insertSorted,orderedInsert_cons,ih]

lemma stableSort_eq_insertionSort (list : List α) : stableSort notAfter list = list.insertionSort (notAfter · ·) := by
  induction list with
  | nil => rfl
  | cons a rest ih => rw [stableSort,insertionSort_cons,ih,insertSorted_eq_orderedInsert]

lemma pairwise_stableSort (total : ∀ a b, notAfter a b = false → notAfter b a = true)
    (trans : ∀ a b c, notAfter a b → notAfter b c → notAfter a c) (list : List α) :
    (stableSort notAfter list).Pairwise (notAfter · ·) := by
  have : Std.Total fun a b => notAfter a b = true :=
    ⟨fun a b => or_iff_not_imp_left.mpr fun after => total a b (Bool.not_eq_true _ ▸ after)⟩
  have : IsTrans α fun a b => notAfter a b = true := ⟨trans⟩
  exact stableSort_eq_insertionSort list ▸ pairwise_insertionSort _ list

lemma stableSort_eq_self {list : List α} (sorted : list.Pairwise (notAfter · ·)) : stableSort notAfter list = list :=
  (stableSort_eq_insertionSort list).trans sorted.insertionSort_eq

end Sorting

namespace Obj

lemma Identity.notAfter_total (a b : Identity) (after : a.notAfter b = false) : b.notAfter a = true := by
  simp only [notAfter,Bool.or_eq_false_iff,Bool.or_eq_true,Bool.and_eq_true,Bool.and_eq_false_iff,
    decide_eq_true_eq,decide_eq_false_iff_not,beq_iff_eq,beq_eq_false_iff_ne] at *
  omega

lemma Identity.notAfter_trans (a b c : Identity) (first : a.notAfter b = true)
    (second : b.notAfter c = true) : a.notAfter c = true := by
  simp only [notAfter,Bool.or_eq_true,Bool.and_eq_true,decide_eq_true_eq,beq_iff_eq] at *
  omega

/-- Each object comes before the next, and no two are the same thing. -/
def Increasing (objects : List Obj) : Prop :=
  objects.Pairwise fun a b => a.identity.notAfter b.identity = true ∧ a.identity ≠ b.identity

lemma Increasing.of_identities (increasing : Increasing objects)
    (eq : others.map identity = objects.map identity) : Increasing others := by
  have mapped (list : List Obj) : Increasing list ↔
      (list.map identity).Pairwise fun a b => a.notAfter b = true ∧ a ≠ b := by
    simp [Increasing,pairwise_map]
  rw [mapped,eq,← mapped]
  exact increasing

end Obj

section Run

lemma takeCombined_eq_none (ended : takeCombined combine pending objects = some none) :
    ∀ o ∈ objects, combine o pending = some none := by
  induction objects with
  | nil => simp
  | cons o rest ih =>
    simp only [takeCombined,Option.bind_eq_bind,bind_eq_some_iff] at ended
    obtain ⟨combined,first,ended⟩ := ended
    cases combined with
    | some whole => cases ended
    | none =>
      obtain ⟨taken,later,ended⟩ := bind_eq_some_iff.mp ended
      cases taken with
      | some found => cases ended
      | none => exact forall_mem_cons.mpr ⟨first,ih later⟩

lemma takeCombined_eq_some (ended : takeCombined combine pending objects = some (some (others,whole))) :
    ∃ pre o after, objects = pre ++ o :: after ∧ others = pre ++ after ∧ combine o pending = some (some whole) := by
  induction objects generalizing others with
  | nil => cases ended
  | cons o rest ih =>
    simp only [takeCombined,Option.bind_eq_bind,bind_eq_some_iff] at ended
    obtain ⟨combined,first,ended⟩ := ended
    cases combined with
    | some found =>
      cases ended
      exact ⟨[],o,rest,rfl,rfl,first⟩
    | none =>
      obtain ⟨taken,later,ended⟩ := bind_eq_some_iff.mp ended
      cases taken with
      | none => cases ended
      | some found =>
        cases ended
        obtain ⟨pre,p,after,eq,left,combines⟩ := ih later
        exact ⟨o :: pre,p,after,by simp [eq],by simp [left],combines⟩

lemma absorb_succ (ended : absorb combine (rounds + 1) done pending = some res) :
    res = done ++ [pending] ∧ (∀ o ∈ done, combine o pending = some none) ∨
    ∃ pre o after whole, done = pre ++ o :: after ∧ combine o pending = some (some whole) ∧
      absorb combine rounds (pre ++ after) whole = some res := by
  simp only [absorb,Option.bind_eq_bind,bind_eq_some_iff] at ended
  obtain ⟨taken,first,ended⟩ := ended
  cases taken with
  | none =>
    cases ended
    exact .inl ⟨rfl,takeCombined_eq_none first⟩
  | some found =>
    obtain ⟨others,whole⟩ := found
    obtain ⟨pre,o,after,rfl,rfl,combines⟩ := takeCombined_eq_some first
    exact .inr ⟨pre,o,after,whole,rfl,combines,ended⟩

lemma absorb_length (enough : rounds = done.length) (ended : absorb combine rounds done pending = some res) :
    res.length ≤ done.length ∨ res = done ++ [pending] ∧ ∀ o ∈ done, combine o pending = some none := by
  induction rounds generalizing done pending with
  | zero =>
    cases ended
    have none : done = [] := length_eq_zero_iff.mp enough.symm
    exact .inr ⟨rfl,by simp [none]⟩
  | succ rounds ih =>
    rcases absorb_succ ended with whole | ⟨pre,o,after,z,rfl,-,ended⟩
    · exact .inr whole
    · simp only [length_append,length_cons] at enough ⊢
      rcases ih (by rw [length_append]; omega) ended with shorter | ⟨rfl,-⟩
      · rw [length_append] at shorter
        exact .inl (by omega)
      · simp only [length_append,length_singleton]
        exact .inl (by omega)

/-- As many objects are left as there were only if none of them combined. -/
lemma foldl_absorb_length (ended : objects.foldlM (fun done o => absorb combine done.length done o) done = some res) :
    res.length < done.length + objects.length ∨ res = done ++ objects ∧
      (∀ o ∈ done, ∀ p ∈ objects, combine o p = some none) ∧
      objects.Pairwise fun o p => combine o p = some none := by
  induction objects generalizing done with
  | nil =>
    cases ended
    exact .inr (by simp)
  | cons o rest ih =>
    simp only [foldlM_cons,Option.bind_eq_bind,bind_eq_some_iff] at ended
    obtain ⟨mid,first,ended⟩ := ended
    simp only [length_cons]
    rcases absorb_length rfl first with fewer | ⟨rfl,alone⟩
    · refine .inl ?_
      rcases ih ended with shorter | ⟨rfl,-⟩
      · omega
      · simp only [length_append]
        omega
    · rcases ih ended with shorter | ⟨rfl,apart,others⟩
      · simp only [length_append,length_singleton] at shorter
        exact .inl (by omega)
      · refine .inr ⟨by simp,fun p inDone q mem => ?_,pairwise_cons.mpr ⟨?_,others⟩⟩
        · rcases mem_cons.mp mem with rfl | inRest
          · exact alone p inDone
          · exact apart p (by simp [inDone]) q inRest
        · exact fun q inRest => apart o (by simp) q inRest

lemma pairwise_of_normalized (ended : normalizeObjects combine objects = some objects) :
    objects.Pairwise (fun o p => combine o p = some none) ∧
      objects.Pairwise fun o p => o.identity.notAfter p.identity = true := by
  simp only [normalizeObjects,Option.bind_eq_bind,bind_eq_some_iff] at ended
  obtain ⟨merged,folded,ended⟩ := ended
  have sorted : stableSort (fun a b => a.identity.notAfter b.identity) merged = objects := Option.some.inj ended
  constructor
  · rcases foldl_absorb_length folded with fewer | ⟨-,-,apart⟩
    · rw [← sorted] at fewer
      simp at fewer
    · exact apart
  · rw [← sorted]
    exact pairwise_stableSort (fun a b : Obj => Obj.Identity.notAfter_total a.identity b.identity)
      (fun a b c : Obj => Obj.Identity.notAfter_trans a.identity b.identity c.identity) merged

/-- Every object ends up in one of the others, and each of those comes from one of them. -/
def Carries (step : Obj → Obj → Prop) (objects res : List Obj) : Prop :=
  (∀ o ∈ objects, ∃ z ∈ res, Relation.ReflTransGen step o z) ∧ ∀ z ∈ res, ∃ o ∈ objects, Relation.ReflTransGen step o z

lemma Carries.refl (step : Obj → Obj → Prop) (objects : List Obj) : Carries step objects objects :=
  ⟨fun o mem => ⟨o,mem,.refl⟩,fun o mem => ⟨o,mem,.refl⟩⟩

lemma Carries.trans (pre : Carries step first second) (after : Carries step second third) :
    Carries step first third := by
  refine ⟨fun o mem => ?_,fun z mem => ?_⟩
  · obtain ⟨w,inSecond,reached⟩ := pre.1 o mem
    obtain ⟨z,inThird,further⟩ := after.1 w inSecond
    exact ⟨z,inThird,reached.trans further⟩
  · obtain ⟨w,inSecond,reached⟩ := after.2 z mem
    obtain ⟨o,inFirst,earlier⟩ := pre.2 w inSecond
    exact ⟨o,inFirst,earlier.trans reached⟩

lemma Carries.append (first : Carries step left left') (second : Carries step right right') :
    Carries step (left ++ right) (left' ++ right') := by
  simp only [Carries,mem_append] at *
  grind

/-- Combining an object with one that comes before it is a step for both, and what it gives
comes after what came before the second, and before what came after the first. -/
structure Stepwise (combine : Obj → Obj → Option (Option Obj)) (pre step : Obj → Obj → Prop) : Prop where
  steps {w p z : Obj} : pre w p → combine w p = some (some z) → step w z ∧ step p z
  earlier {w p z : Obj} : pre w p → combine w p = some (some z) → ∀ o, pre o p → pre o z
  later {w p z : Obj} : pre w p → combine w p = some (some z) → ∀ o, pre w o → pre z o

variable (stepwise : Stepwise combine pre step)
include stepwise

lemma absorb_carries (ordered : ∀ o ∈ done, pre o pending)
    (ended : absorb combine rounds done pending = some res) : Carries step (done ++ [pending]) res ∧
      ∀ o, (∀ p ∈ done ++ [pending], pre p o) → ∀ p ∈ res, pre p o := by
  induction rounds generalizing done pending with
  | zero =>
    cases ended
    exact ⟨.refl step _,fun o => id⟩
  | succ rounds ih =>
    rcases absorb_succ ended with ⟨rfl,-⟩ | ⟨left,o,right,whole,rfl,combines,ended⟩
    · exact ⟨.refl step _,fun o => id⟩
    · have next : pre o pending := ordered o (by simp)
      obtain ⟨fromTaken,fromPending⟩ := stepwise.steps next combines
      have rest (p : Obj) (mem : p ∈ left ++ right) : pre p pending := by
        refine ordered p ?_
        simp only [mem_append,mem_cons] at mem ⊢
        tauto
      obtain ⟨carried,ordered'⟩ := ih (fun p mem => stepwise.earlier next combines p (rest p mem)) ended
      refine ⟨Carries.trans ⟨fun p mem => ?_,fun z mem => ?_⟩ carried,fun q all => ?_⟩
      · simp only [mem_append,mem_cons,not_mem_nil,or_false] at mem
        rcases mem with (inLeft | rfl | inRight) | rfl
        · exact ⟨p,by simp [inLeft],.refl⟩
        · exact ⟨whole,by simp,.single fromTaken⟩
        · exact ⟨p,by simp [inRight],.refl⟩
        · exact ⟨whole,by simp,.single fromPending⟩
      · simp only [mem_append,mem_singleton] at mem
        rcases mem with (inLeft | inRight) | rfl
        · exact ⟨z,by simp [inLeft],.refl⟩
        · exact ⟨z,by simp [inRight],.refl⟩
        · exact ⟨o,by simp,.single fromTaken⟩
      · refine ordered' q fun p mem => ?_
        simp only [mem_append,mem_cons,not_mem_nil,or_false] at mem all
        rcases mem with (inLeft | inRight) | rfl
        · exact all p (.inl (.inl inLeft))
        · exact all p (.inl (.inr (.inr inRight)))
        · exact stepwise.later next combines q (all o (.inl (.inr (.inl rfl))))

lemma foldl_absorb_carries (ordered : ∀ o ∈ done, ∀ p ∈ objects, pre o p) (pairwise : objects.Pairwise pre)
    (ended : objects.foldlM (fun done o => absorb combine done.length done o) done = some res) :
    Carries step (done ++ objects) res := by
  induction objects generalizing done with
  | nil =>
    cases ended
    simpa using Carries.refl step res
  | cons o rest ih =>
    simp only [foldlM_cons,Option.bind_eq_bind,bind_eq_some_iff] at ended
    obtain ⟨mid,first,ended⟩ := ended
    obtain ⟨next,others⟩ := pairwise_cons.mp pairwise
    obtain ⟨carried,ordered'⟩ := absorb_carries stepwise (fun p mem => ordered p mem o (by simp)) first
    have absorbed := carried.append (.refl step rest)
    refine (by simpa using absorbed : Carries step (done ++ o :: rest) (mid ++ rest)).trans
      (ih (fun p mem q inRest => ordered' q (fun p mem => ?_) p mem) others ended)
    rcases mem_append.mp mem with inDone | isLast
    · exact ordered p inDone q (mem_cons_of_mem _ inRest)
    · rw [mem_singleton.mp isLast]
      exact next q inRest

lemma normalizeObjects_carries (pairwise : objects.Pairwise pre)
    (ended : normalizeObjects combine objects = some res) : Carries step objects res := by
  simp only [normalizeObjects,Option.bind_eq_bind,bind_eq_some_iff] at ended
  obtain ⟨merged,folded,ended⟩ := ended
  cases ended
  have carried := foldl_absorb_carries stepwise (by simp) pairwise folded
  simpa [Carries,(stableSort_perm _ merged).mem_iff] using carried

end Run

section Alone

variable {m : Type → Type} [Monad m] [LawfulMonad m] {combine : Obj → Obj → m (Option Obj)}

lemma takeCombined_alone (alone : ∀ o ∈ objects, combine o pending = pure none) :
    takeCombined combine pending objects = pure none := by
  induction objects with
  | nil => rfl
  | cons o rest ih =>
    obtain ⟨first,others⟩ := forall_mem_cons.mp alone
    simp [takeCombined,first,ih others]

lemma absorb_alone (alone : ∀ o ∈ done, combine o pending = pure none) :
    absorb combine rounds done pending = pure (done ++ [pending]) := by
  cases rounds with
  | zero => rfl
  | succ rounds => simp [absorb,takeCombined_alone alone]

lemma foldl_absorb_alone (apart : (done ++ objects).Pairwise fun o p => combine o p = pure none) :
    objects.foldlM (fun done o => absorb combine done.length done o) done = pure (done ++ objects) := by
  induction objects generalizing done with
  | nil => simp
  | cons o rest ih =>
    have alone : ∀ p ∈ done, combine p o = pure none := fun p mem => (pairwise_append.mp apart).2.2 p mem o (by simp)
    rw [foldlM_cons,absorb_alone alone,pure_bind,ih (by simpa using apart)]
    simp

lemma normalizeObjects_apart (apart : objects.Pairwise fun o p => combine o p = pure none)
    (sorted : objects.Pairwise fun o p => o.identity.notAfter p.identity = true) :
    normalizeObjects combine objects = pure objects := by
  rw [normalizeObjects,foldl_absorb_alone (by simpa using apart),pure_bind]
  rw [nil_append,stableSort_eq_self sorted]

end Alone

def Obj.sort (o : Obj) : Nat := o.identity.rank.1

namespace MergeRules

lemma combine_of_sort_ne [Monad m] (rules : MergeRules m)
    (apart : a.sort ≠ b.sort) : rules.combine a b = pure none := by
  cases a <;> cases b <;> first | rfl | exact absurd rfl apart

/-- The join of two types that have no two objects of one kind between them asks nothing about
objects. -/
lemma joinStep_apart {I : Type} [Monad m] [LawfulMonad m] {L : Lifting I m}
    {rules : I → MergeRules m} {a b : Ty} (apart : ((a.objects ++ b.objects).map Obj.sort).Nodup)
    (settle : ∀ u : Union, L.Holds (fun settled => settled.objects = u.objects)
      fun i => (rules i).settle u) : L.Holds (fun t => t.objects.Subperm (a.objects ++ b.objects))
      fun i => (rules i).joinStep a b := by
  refine holds_joinStep (sublist_append_left _ _).subperm (sublist_append_right _ _).subperm ?_
  rintro u v rfl rfl
  have normalized (i : I) : normalizeObjects (rules i).combine (u.objects ++ v.objects) =
      pure (stableSort (fun a b => a.identity.notAfter b.identity) (u.objects ++ v.objects)) := by
    have alone : (u.objects ++ v.objects).Pairwise fun o p => (rules i).combine o p = pure none :=
      (pairwise_map.mp apart).imp fun different => combine_of_sort_ne _ different
    rw [normalizeObjects,foldl_absorb_alone (by simpa using alone),pure_bind,nil_append]
  simp only [joinUnions,normalized,pure_bind]
  refine L.sequence (settle _) fun settled eq => L.value ?_
  unfold Ty.ofUnion
  split
  · exact (nil_sublist _).subperm
  · simp only [Ty.objects,eq]
    exact (stableSort_perm _ _).subperm

variable {rules : MergeRules Option}

lemma combine_ne_none (eq : a.identity = b.identity) : rules.combine a b ≠ some none := by
  intro ended
  cases a <;> cases b <;> simp_all [Obj.identity,combine]

end MergeRules

end GradualJs
