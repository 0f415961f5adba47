import GradualJs.Proofs.Lattice.Inheritance
import Mathlib.Data.Finset.Card

/-! What lies above a type. As no type inherits from itself, the types above it can be gone
through by induction. An instance can be seen as one of exactly the types above it. -/
namespace GradualJs

open Relation List

namespace Registry

variable {r : Registry} {x : NominalId}

/-- An instance has one argument for each parameter of its type. -/
def Applied (r : Registry) (i : Instance) : Prop := i.args.length = (r.nominal i.id).typeParams.length

/-- How many declared types are reached from a type. -/
def rank (r : Registry) (id : NominalId) : Nat := (r.nominalIds.toFinset.filter (· ∈ r.reachable id)).card

lemma Names.declared (names : r.Names x y) : x ∈ r.nominalIds := by
  obtain ⟨s,mem,-⟩ := names
  by_contra absent
  simp [nominal_of_notMem absent,Nominal.supertypes] at mem

lemma inherits_iff : r.inherits x y = true ↔
    y = x ∨ r.Inherits x y ∨ y = .object ∧ (r.nominal x).kind = .classType := by
  have reached : y ∈ r.reachable x ↔ y = x ∨ r.Inherits x y := mem_reachable.trans reflTransGen_iff_eq_or_transGen
  simp only [inherits,Bool.or_eq_true,Bool.and_eq_true,decide_eq_true_eq,contains_eq_mem,reached]
  grind

namespace Acyclic

variable (acyclic : r.Acyclic)
include acyclic

lemma rank_lt (names : r.Names x y) : r.rank y < r.rank x := by
  refine Finset.card_lt_card (Finset.ssubset_iff_of_subset ?_ |>.mpr ⟨x,?_,?_⟩)
  · refine Finset.monotone_filter_right _ fun id _ reached => ?_
    exact mem_reachable.mpr (.head names (mem_reachable.mp reached))
  · simpa using ⟨names.declared,mem_reachable.mpr .refl⟩
  · simp only [Finset.mem_filter,not_and]
    exact fun _ back => acyclic.irrefl x (.head' names (mem_reachable.mp back))

/-- What holds of a type if it holds of all types that it names holds of every type. -/
lemma induction {P : NominalId → Prop} (step : ∀ x, (∀ y, r.Names x y → P y) → P x) (x : NominalId) : P x := by
  induction rank : r.rank x using Nat.strong_induction_on generalizing x with
  | _ _ ih => exact step x fun y names => ih _ (rank ▸ acyclic.rank_lt names) y rfl

variable (kinded : r.Kinded)
include kinded

/-- Every class leads up to `Object`. -/
lemma leadsTo_object (isClass : (r.nominal x).kind = .classType) : ReflTransGen r.LeadsTo x .object := by
  induction x using acyclic.induction with
  | step x ih =>
    cases extended : (r.nominal x).superclass with
    | none =>
      by_cases top : x = .object
      · exact top ▸ .refl
      · exact .single (.inr ⟨by simp [extendsObject,extended,isClass,top],rfl⟩)
    | some s =>
      have names : r.Names x s.id := ⟨s,by simp [Nominal.supertypes,extended],rfl⟩
      exact .head (.inl names) (ih s.id names (kinded.superclass extended))

lemma leadsTo_iff_inherits : ReflTransGen r.LeadsTo x y ↔ r.inherits x y = true := by
  rw [inherits_iff,← or_assoc,← reflTransGen_iff_eq_or_transGen]
  constructor
  · intro reached
    induction reached using ReflTransGen.head_induction_on with
    | refl => exact .inl .refl
    | @head x z step _ ih =>
      rcases step with names | ⟨extending,rfl⟩
      · refine ih.imp (.head names) fun ⟨top,isClass⟩ => ⟨top,?_⟩
        obtain ⟨s,mem,rfl⟩ := names
        exact kinded.classes x (Names.declared ⟨s,mem,rfl⟩) s mem isClass
      · simp only [extendsObject,Bool.and_eq_true,decide_eq_true_eq] at extending
        exact .inr ⟨ih.elim acyclic.eq_object And.left,extending.1.2⟩
  · rintro (reached | ⟨rfl,isClass⟩)
    · exact ReflTransGen.mono (fun _ _ => .inl) _ _ reached
    · exact acyclic.leadsTo_object kinded isClass

end Acyclic

lemma object_modifyNominal {id : NominalId} {f : Nominal → Nominal}
    (none : (r.nominal .object).typeParams = []) (eq : ∀ n, (f n).typeParams = n.typeParams) :
    ((r.modifyNominal id f).nominal .object).typeParams = [] := by
  rcases nominal_modifyNominal id .object f with unchanged | ⟨-,changed⟩
  · rwa [unchanged]
  · rwa [changed,eq]

lemma object_invariant : Collecting.Invariant fun r => (r.nominal .object).typeParams = [] where
  resolveTypedef _ _ _ none := none
  backEnum _ _ _ _ _ none := none
  inherit _ _ _ _ _ _ none := object_modifyNominal none fun _ => rfl
  uproot _ _ none := object_modifyNominal none fun _ => rfl
  construct _ _ _ none := object_modifyNominal none fun _ => rfl
  addFunction _ _ none := none
  setProperty _ _ _ _ none := object_modifyNominal none fun _ => rfl
  setMember _ _ _ _ none := none

end Registry

namespace Declarations

variable {decls : Declarations}

lemma collect_object (collected : collect prog externs legacy = some decls) :
    (decls.registry.nominal .object).typeParams = [] := by
  have registered : ((registered prog externs).registry.nominal .object).typeParams = [] := by
    rw [registry_registered,(Registry.initial.lists_after _).old .object (by decide)]
    rfl
  obtain ⟨⟨_,c⟩,resolved,eq⟩ := Option.bind_eq_some_iff.mp collected
  cases eq
  exact ((Collecting.keeps_resolution Registry.object_invariant prog externs legacy).run registered resolved).2.2

/-- In collected declarations an instance can be seen as one of exactly the types that it inherits
from: its own, those that are reached through superclasses and interfaces, and `Object` for a
class. If that is so for all that types inherit from, it then has one argument for each parameter
if it had that before. -/
theorem upcast_reaches (collected : collect prog externs legacy = some decls)
    (x : Instance) (t : NominalId) : ((decls.registry.upcast x t).isSome = true ↔
      decls.registry.inherits x.id t = true) ∧
    (decls.registry.inherits x.id t = true ↔ t = x.id ∨ decls.registry.Inherits x.id t ∨
      t = .object ∧ (decls.registry.nominal x.id).kind = .classType) ∧
    ∀ viewed, decls.registry.upcast x t = some viewed → viewed.id = t ∧
      ((∀ id, ∀ s ∈ (decls.registry.nominal id).supertypes, decls.registry.Applied s) →
        decls.registry.Applied x → decls.registry.Applied viewed) := by
  have acyclic := collect_acyclic collected
  have kinded := collect_kinded collected
  refine ⟨?_,Registry.inherits_iff,fun viewed found => ?_⟩
  · rw [Registry.upcast_isSome_iff,acyclic.leadsTo_iff_inherits kinded]
  · refine ⟨Registry.upcast_id found,fun saturated applied => ?_⟩
    refine Registry.upcast_forall (fun j _ s mem => ?_) applied found
    rcases Registry.mem_supertypesOf mem with ⟨d,declared,rfl⟩ | ⟨-,rfl⟩
    · simpa [Registry.Applied] using saturated j.id d declared
    · simp [Registry.Applied,Registry.objectInstance,collect_object collected]

/-- A crate can be seen as a box, and as a box of something. -/
theorem upcast_reaches_box : ∃ decls viewed, collect (Outline.program Registry.containers) none false = some decls ∧
    decls.registry.inherits ⟨4⟩ ⟨3⟩ = true ∧ decls.registry.upcast ⟨⟨4⟩,[]⟩ ⟨3⟩ = some viewed ∧
    viewed.id = ⟨3⟩ ∧ decls.registry.Applied viewed := by
  obtain ⟨⟨decls,collected,eq,-⟩,-⟩ := Registry.containers_tested
  obtain ⟨seen,applied,each⟩ : let r := Outline.registry Registry.containers
      (r.upcast ⟨⟨4⟩,[]⟩ ⟨3⟩).isSome = true ∧ 0 = (r.nominal ⟨4⟩).typeParams.length ∧ ∀ n ∈ r.nominals,
        ∀ s ∈ n.supertypes, s.args.length = (r.nominal s.id).typeParams.length := by
    decide +kernel
  rw [← eq] at seen applied each
  have saturated : ∀ id, ∀ s ∈ (decls.registry.nominal id).supertypes, decls.registry.Applied s := by
    intro id s mem
    cases found : decls.registry.nominals[id.index]? with
    | none => simp [Registry.nominal,found,Nominal.supertypes] at mem
    | some n => exact each n (mem_of_getElem? found) s (by simpa [Registry.nominal,found] using mem)
  obtain ⟨viewed,found⟩ := Option.isSome_iff_exists.mp seen
  obtain ⟨reached,-,views⟩ := upcast_reaches collected ⟨⟨4⟩,[]⟩ ⟨3⟩
  obtain ⟨same,args⟩ := views viewed found
  exact ⟨decls,viewed,collected,reached.mp seen,found,same,args saturated applied⟩

end Declarations
end GradualJs
