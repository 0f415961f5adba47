import GradualJs.Lattice.Narrowing
import GradualJs.Proofs.Lifting

/-! What a test leaves of objects: the object as it is, or the test in its place. -/
namespace GradualJs.Lattice

open Option

variable {l : Lattice}

lemma run_filterM {α : Type} {f : α → Query Bool} {list res : List α} {q : α → Bool → Prop}
    (each : ∀ a assumed ans, (f a).run assumed = some ans → q a ans.1)
    (ended : (list.filterM f).run' assumed = some res) : res.Sublist list ∧ (∀ a ∈ res, q a true) ∧
      ∀ a ∈ list, a ∈ res ∨ q a false := by
  have kept := (Lifting.runs.keeping fun _ : Assumptions => True).filterM (q := q)
    (f := fun _ => f) fun a (_ : a ∈ list) assumed _ ans ran => ⟨each a assumed ans ran,trivial⟩
  obtain ⟨ans,ran,rfl⟩ := map_eq_some_iff.mp ended
  exact (kept assumed trivial ans ran).1

lemma run_filterM_sublist {α : Type} {f : α → Query Bool} {list res : List α}
    (ended : (list.filterM f).run' assumed = some res) : res.Sublist list :=
  (run_filterM (q := fun _ _ => True) (fun _ _ _ _ => trivial) ended).1

lemma eq_or_of_ite [Decidable holds] (ended : (if holds then some (some kept) else rest) = some (some o)) :
    o = kept ∨ rest = some (some o) := by
  split at ended
  · exact .inl (some.inj (some.inj ended)).symm
  · exact .inr ended

lemma specializeInstances_eq (ended : l.specializeInstances x y = some (some o)) : o = .nominal x ∨ o = .nominal y := by
  unfold Lattice.specializeInstances at ended
  obtain ⟨_,_,ended⟩ := bind_eq_some_iff.mp ended
  refine (eq_or_of_ite ended).elim .inl fun ended => ?_
  obtain ⟨_,_,ended⟩ := bind_eq_some_iff.mp ended
  refine (eq_or_of_ite ended).elim .inr fun ended => ?_
  refine (eq_or_of_ite ended).elim .inr fun ended => ?_
  exact (eq_or_of_ite ended).elim .inl (by simp)

lemma specializeFunctions_eq
    (ended : l.specializeFunctions f g = some (some o)) : o = .function f ∨ o = .function g := by
  refine (eq_or_of_ite ended).elim .inl fun ended => ?_
  refine (eq_or_of_ite ended).elim .inr fun ended => ?_
  obtain ⟨_,_,ended⟩ := bind_eq_some_iff.mp ended
  refine (eq_or_of_ite ended).elim .inl fun ended => ?_
  obtain ⟨_,_,ended⟩ := bind_eq_some_iff.mp ended
  exact (eq_or_of_ite ended).elim .inr (by simp)

lemma keepIfFits_eq_some (ended : l.keepIfFits kept a b anyway = some found) : found = some kept ∨
      found = none ∧ anyway = false ∧ (l.objectSubtype a b).run' [] = some false := by
  unfold Lattice.keepIfFits at ended
  split at ended
  · exact .inl (some.inj ended).symm
  · rename_i asks
    obtain ⟨fits,asked,eq⟩ := bind_eq_some_iff.mp ended
    cases fits with
    | true => exact .inl (some.inj eq).symm
    | false => exact .inr ⟨(some.inj eq).symm,by simpa using asks,asked⟩

lemma keepIfFits_eq (ended : l.keepIfFits kept a b anyway = some (some o)) : o = kept :=
  (keepIfFits_eq_some ended).elim some.inj nofun

lemma eq_of_kept [Decidable holds] (ended : some (if holds then some kept else none) = some (some o)) : o = kept := by
  split at ended
  · exact (some.inj (some.inj ended)).symm
  · cases ended

/-- A test leaves an object as it is, or puts itself in its place. -/
lemma specializeObject_eq (ended : l.specializeObject given test = some (some o)) : o = given ∨ o = test := by
  unfold Lattice.specializeObject at ended
  split at ended
  · refine (eq_or_of_ite ended).elim .inl fun ended => ?_
    exact (eq_or_of_ite ended).elim .inr specializeInstances_eq
  · exact (eq_or_of_ite ended).elim .inr fun ended => .inl (keepIfFits_eq ended)
  · exact .inr (eq_of_kept ended)
  · exact .inr (eq_of_kept ended)
  · exact (eq_or_of_ite ended).elim .inl fun ended => .inr (keepIfFits_eq ended)
  · exact .inl (eq_of_kept ended)
  · exact specializeFunctions_eq ended
  · exact .inl (eq_of_kept ended)
  · exact .inl (keepIfFits_eq ended)
  · exact .inl (keepIfFits_eq ended)
  · exact .inl (keepIfFits_eq ended)
  · cases ended

end GradualJs.Lattice
