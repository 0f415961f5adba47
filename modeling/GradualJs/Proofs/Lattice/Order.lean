import GradualJs.Proofs.Lattice.Inheritance
import GradualJs.Proofs.Lattice.LowerBound

/-! The order of joins. Where no two classes give way to a common superclass, a join only drops what
the rest covers, so joins in any order keep the same outermost types. A class that gives way to its
superclass may lose an interface that had covered it, and then the order matters. -/
namespace GradualJs

open List Relations

namespace Registry

variable {r : Registry} {t a b : Ty}

/-- Classes and interfaces without type parameters, of which no two give way to a common superclass. -/
structure Unmerged (r : Registry) (given : NominalId → Prop) : Prop where
  plain : ∀ x, given x → (r.nominal x).kind ≠ .record ∧ (r.nominal x).typeParams = [] ∧ x ≠ .object
  apart : ∀ x y, given x → given y → (r.upcast (r.raw x) y).isSome ∨ (r.upcast (r.raw y) x).isSome ∨
    r.commonSuperclass x y = none

/-- A union of instances of given types. -/
structure Made (r : Registry) (given : NominalId → Prop) (t : Ty) : Prop where
  whole : t = .union {objects := t.objects}
  some : t.objects ≠ []
  instances : ∀ o ∈ t.objects, ∃ x, given x ∧ o = .nominal (r.raw x)

/-- Both are instances, and the type of the first is or inherits from that of the second. -/
def Under (r : Registry) (o p : Obj) : Prop := ∃ x y, o = .nominal (r.raw x) ∧ p = .nominal (r.raw y) ∧ r.Extends x y

/-- The type keeps some of the objects, and these cover the others. -/
structure Outlines (r : Registry) (given : NominalId → Prop) (objects : List Obj) (t : Ty) : Prop
    extends Made r given t where
  within : t.objects ⊆ objects
  covers : ∀ o ∈ objects, ∃ p ∈ t.objects, r.Under o p

lemma Made.outlines (made : r.Made given t) : r.Outlines given t.objects t where
  toMade := made
  within _ := id
  covers o mem := by
    obtain ⟨x,-,rfl⟩ := made.instances o mem
    exact ⟨_,mem,x,x,rfl,rfl,.refl r x⟩

section Joins

variable (acyclic : r.Acyclic)
include acyclic

lemma Under.trans (first : r.Under o p) (second : r.Under p q) : r.Under o q := by
  obtain ⟨x,y,rfl,rfl,low⟩ := first
  obtain ⟨y',z,eq,rfl,high⟩ := second
  obtain rfl : y = y' := congrArg Instance.id (Obj.nominal.inj eq)
  exact ⟨x,z,rfl,rfl,acyclic.extends_trans low high⟩

lemma Under.fits (under : r.Under o p) : r.FitsObject lax o p := by
  obtain ⟨x,y,rfl,rfl,above⟩ := under
  by_cases top : y = .object
  · exact .inl top
  refine .inr ?_
  obtain ⟨viewed,found⟩ := Option.isSome_iff_exists.mp ((acyclic.upcast_isSome (i := r.raw x) rfl top).mpr above)
  simp only [Premises.InstanceFits,raw_id,found]
  intro pair mem
  have second : pair.2 = .unknown := (padArgs_mem mem).2.elim id eq_of_mem_replicate
  rw [second]
  exact fits_unknown

/-- Of two types that outline the same objects, each fits the other. -/
lemma Outlines.fits (keptS : r.Outlines given objects s) (keptT : r.Outlines given others t)
    (eq : ∀ o, o ∈ objects ↔ o ∈ others) : r.Fits lax s t := by
  rw [keptS.whole,keptT.whole]
  refine fits_union.mpr ⟨by simp,by simp,by simp,fun o mem => ?_⟩
  obtain ⟨p,inT,under⟩ := keptT.covers o ((eq o).mp (keptS.within mem))
  exact ⟨p,inT,under.fits acyclic⟩

variable (unmerged : r.Unmerged given)
include unmerged

/-- What two given types are combined into is one of them, and covers the other. -/
lemma Unmerged.combined (givenX : given x) (givenY : given y)
    (ended : (mergeRules r (.within r (depth + 1))).combine (.nominal (r.raw x)) (.nominal (r.raw y)) =
      some (some z)) : r.Extends x y ∧ z = .nominal (r.raw y) ∨ r.Extends y x ∧ z = .nominal (r.raw x) := by
  have above {x y : NominalId} (givenY : given y) : (r.upcast (r.raw x) y).isSome = true ↔ r.Extends x y :=
    acyclic.upcast_isSome raw_id (unmerged.plain y givenY).2.2
  have refused {x y : NominalId} (givenY : given y) (missing : r.upcast (r.raw x) y = none) (assumed : Assumptions) :
      (instanceSubtype r (.within r (depth + 1)) false (r.raw x) (r.raw y)).run assumed = some (false,assumed) := by
    simp [instanceSubtype,missing,(unmerged.plain y givenY).1]
  by_cases eq : x = y
  · subst eq
    have args : (r.raw x).args = [] := by simp [raw,(unmerged.plain x givenX).2.1]
    have kept : Obj.nominal ⟨x,[]⟩ = z := by
      simpa [MergeRules.combine,joinInstances,args,padArgs] using ended
    exact .inl ⟨.refl r x,kept.symm.trans (congrArg (Obj.nominal ⟨x,·⟩) args).symm⟩
  rw [MergeRules.combine,if_neg (by simpa using eq)] at ended
  replace ended : joinDistinct r (.within r (depth + 1)) (r.raw x) (r.raw y) = some (some z) := ended
  cases forth : r.upcast (r.raw x) y with
  | some viewed =>
    rw [joinDistinct_fits (instanceSubtype_raw forth [])] at ended
    cases ended
    exact .inl ⟨(above givenY).mp (by simp [forth]),rfl⟩
  | none =>
    cases back : r.upcast (r.raw y) x with
    | some viewed =>
      rw [joinDistinct_fits_back (refused givenY forth []) (instanceSubtype_raw back [])] at ended
      cases ended
      exact .inr ⟨(above givenX).mp (by simp [back]),rfl⟩
    | none =>
      have neither : r.commonSuperclass x y = none := by
        simpa [forth,back] using unmerged.apart x y givenX givenY
      simp [joinDistinct,refused givenY forth,refused givenX back,neither] at ended

lemma Unmerged.normalized (made : ∀ o ∈ objects, ∃ x, given x ∧ o = .nominal (r.raw x))
    (ended : normalizeObjects (mergeRules r (.within r (depth + 1))).combine objects = some merged) :
    merged ⊆ objects ∧ ∀ o ∈ objects, ∃ z ∈ merged, r.Under o z := by
  have combined {o p z : Obj} (both : o ∈ objects ∧ p ∈ objects)
      (ended : (mergeRules r (.within r (depth + 1))).combine o p = some (some z)) :
      z ∈ objects ∧ r.Under o z ∧ r.Under p z := by
    obtain ⟨x,givenX,rfl⟩ := made o both.1
    obtain ⟨y,givenY,rfl⟩ := made p both.2
    obtain ⟨above,rfl⟩ | ⟨above,rfl⟩ := unmerged.combined acyclic givenX givenY ended
    · exact ⟨both.2,⟨x,y,rfl,rfl,above⟩,y,y,rfl,rfl,.refl r y⟩
    · exact ⟨both.1,⟨x,x,rfl,rfl,.refl r x⟩,y,x,rfl,rfl,above⟩
  have stepwise : Stepwise (mergeRules r (.within r (depth + 1))).combine
      (fun o p => o ∈ objects ∧ p ∈ objects) (fun o z => z ∈ objects ∧ r.Under o z) := by
    refine ⟨fun both ended => ?_,fun both ended o pair => ?_,fun both ended o pair => ?_⟩
    · obtain ⟨kept,first,second⟩ := combined both ended
      exact ⟨⟨kept,first⟩,kept,second⟩
    · exact ⟨pair.1,(combined both ended).1⟩
    · exact ⟨(combined both ended).1,pair.2⟩
  have reached {o z : Obj} (mem : o ∈ objects)
      (carried : Relation.ReflTransGen (fun o z => z ∈ objects ∧ r.Under o z) o z) :
      z ∈ objects ∧ r.Under o z := by
    induction carried with
    | refl =>
      obtain ⟨x,-,rfl⟩ := made o mem
      exact ⟨mem,x,x,rfl,rfl,.refl r x⟩
    | tail _ step ih => exact ⟨step.1,ih.2.trans acyclic step.2⟩
  obtain ⟨covered,kept⟩ := normalizeObjects_carries stepwise
    (pairwise_of_forall_mem_list fun o inO p inP => ⟨inO,inP⟩) ended
  refine ⟨fun z mem => ?_,fun o mem => ?_⟩
  · obtain ⟨o,inObjects,carried⟩ := kept z mem
    exact (reached inObjects carried).1
  · obtain ⟨z,inMerged,carried⟩ := covered o mem
    exact ⟨z,inMerged,(reached mem carried).2⟩

lemma Outlines.join (keptA : r.Outlines given objects a) (keptB : r.Outlines given others b)
    (ended : Lattice.join ⟨r,lax,depth + 2⟩ a b = some t) :
    r.Outlines given (objects ++ others) t := by
  have made : ∀ o ∈ a.objects ++ b.objects, ∃ x, given x ∧ o = .nominal (r.raw x) := fun o mem =>
    (mem_append.mp mem).elim (keptA.instances o) (keptB.instances o)
  rw [keptA.whole,keptB.whole] at ended
  obtain ⟨merged,settled,normalized,absorbed,rfl⟩ := joinUnions_eq_some ended
  obtain ⟨inside,covered⟩ := unmerged.normalized acyclic made normalized
  have nonempty : merged ≠ [] := by
    obtain ⟨o,mem⟩ := exists_mem_of_ne_nil _ keptA.some
    obtain ⟨z,inMerged,-⟩ := covered o (mem_append_left _ mem)
    exact ne_nil_of_mem inMerged
  have whole : Ty.ofUnion settled = .union {objects := merged} := by
    cases absorbed
    cases merged with
    | nil => exact absurd rfl nonempty
    | cons o others => rfl
  rw [whole]
  refine ⟨⟨rfl,nonempty,fun o mem => made o (inside mem)⟩,fun o mem => ?_,fun o mem => ?_⟩
  · exact mem_append.mpr ((mem_append.mp (inside mem)).imp (@keptA.within o) (@keptB.within o))
  · obtain ⟨p,inOperands,low⟩ : ∃ p ∈ a.objects ++ b.objects, r.Under o p := by
      rcases mem_append.mp mem with inObjects | inOthers
      · obtain ⟨p,inA,low⟩ := keptA.covers o inObjects
        exact ⟨p,mem_append_left _ inA,low⟩
      · obtain ⟨p,inB,low⟩ := keptB.covers o inOthers
        exact ⟨p,mem_append_right _ inB,low⟩
    obtain ⟨z,inMerged,high⟩ := covered p inOperands
    exact ⟨z,inMerged,low.trans acyclic high⟩

end Joins

end Registry

/-- Each type fits where the other is expected, whenever there is an answer. -/
def Lattice.Alike (l : Lattice) (s t : Ty) : Prop :=
  ∀ ans, l.isSubtype s t = some ans ∨ l.isSubtype t s = some ans → ans = true

namespace Declarations

variable {decls : Declarations}

/-- Joins of unmerged types may be taken in any order. -/
theorem join_order_free (collected : collect prog externs legacy = some decls)
    (unmerged : decls.registry.Unmerged given) (lax : Bool) (depth : Nat) {a b c : Ty}
    (madeA : decls.registry.Made given a) (madeB : decls.registry.Made given b)
    (madeC : decls.registry.Made given c) :
    let l : Lattice := ⟨decls.registry,lax,depth + 2⟩
    (∀ s t, l.join a b = some s → l.join b a = some t → l.Alike s t) ∧
      ∀ s t u v, l.join a b = some s → l.join s c = some t → l.join b c = some u →
        l.join a u = some v → l.Alike t v := by
  intro l
  have acyclic := collect_acyclic collected
  have alike {objects others : List Obj} {s t : Ty} (keptS : decls.registry.Outlines given objects s)
      (keptT : decls.registry.Outlines given others t)
      (eq : ∀ o, o ∈ objects ↔ o ∈ others) : l.Alike s t := by
    rintro ans (forth | back)
    · exact (keptS.fits acyclic keptT eq).isSubtype forth
    · exact (keptT.fits acyclic keptS fun o => (eq o).symm).isSubtype back
  refine ⟨fun s t first second => ?_,fun s t u v first second third fourth => ?_⟩
  · exact alike (madeA.outlines.join acyclic unmerged madeB.outlines first)
      (madeB.outlines.join acyclic unmerged madeA.outlines second) (by simp [or_comm])
  · have keptS := madeA.outlines.join acyclic unmerged madeB.outlines first
    have keptU := madeB.outlines.join acyclic unmerged madeC.outlines third
    exact alike (keptS.join acyclic unmerged madeC.outlines second)
      (madeA.outlines.join acyclic unmerged keptU fourth) (by simp)

open Registry (siblings)

/-- A class and two interfaces, of which it has one. -/
def oneOfTwo : List NominalId := [⟨4⟩,⟨5⟩,⟨6⟩]

theorem join_order_free_siblings : ∃ decls, collect (Outline.program siblings) none false = some decls ∧
    decls.registry.Unmerged (· ∈ oneOfTwo) ∧
    let l : Lattice := ⟨decls.registry,false,9⟩
    ∀ s t u v, l.join (.nominal ⟨4⟩ []) (.nominal ⟨5⟩ []) = some s →
      l.join s (.nominal ⟨6⟩ []) = some t → l.join (.nominal ⟨5⟩ []) (.nominal ⟨6⟩ []) = some u →
      l.join (.nominal ⟨4⟩ []) u = some v → l.Alike t v := by
  obtain ⟨⟨decls,collected,eq,-⟩,-⟩ := Registry.siblings_normal
  let r := Outline.registry siblings
  have facts : ∀ x ∈ oneOfTwo, ((r.nominal x).kind ≠ .record ∧ (r.nominal x).typeParams = [] ∧ x ≠ .object) ∧
      ∀ y ∈ oneOfTwo, (r.upcast (r.raw x) y).isSome ∨ (r.upcast (r.raw y) x).isSome ∨
        r.commonSuperclass x y = none := by decide +kernel
  have unmerged : r.Unmerged (· ∈ oneOfTwo) := ⟨fun x given => (facts x given).1,fun x y given => (facts x given).2 y⟩
  have made (x : NominalId) (given : x ∈ oneOfTwo) : r.Made (· ∈ oneOfTwo) (.nominal x []) := by
    refine ⟨rfl,cons_ne_nil _ _,fun o mem => ⟨x,given,?_⟩⟩
    have only : o = .nominal ⟨x,[]⟩ := mem_singleton.mp mem
    simpa [Registry.raw,(facts x given).1.2.1] using only
  rw [show r = decls.registry from eq.symm] at unmerged made
  exact ⟨decls,collected,unmerged,(join_order_free collected unmerged false 7
    (made ⟨4⟩ (by decide)) (made ⟨5⟩ (by decide)) (made ⟨6⟩ (by decide))).2⟩

/-- The interface covers the class at once, but not the superclass that the two classes give way to. -/
theorem join_order_siblings : Outline.Collects siblings ∧
    let l : Lattice := ⟨Outline.registry siblings,false,9⟩
    l.join (.nominal ⟨4⟩ []) (.nominal ⟨6⟩ []) = some (.nominal ⟨4⟩ []) ∧
    l.join (.nominal ⟨4⟩ []) (.nominal ⟨7⟩ []) = some Registry.crossedRight ∧
    l.join (.nominal ⟨6⟩ []) (.nominal ⟨7⟩ []) = some (.nominal ⟨3⟩ []) ∧
    l.join (.nominal ⟨4⟩ []) (.nominal ⟨3⟩ []) = some (.union {objects := [.nominal ⟨⟨3⟩,[]⟩,.nominal ⟨⟨4⟩,[]⟩]}) ∧
    l.isSubtype (.union {objects := [.nominal ⟨⟨3⟩,[]⟩,.nominal ⟨⟨4⟩,[]⟩]}) Registry.crossedRight = some false :=
  ⟨Registry.siblings_normal.1,by decide +kernel⟩

end Declarations
end GradualJs
