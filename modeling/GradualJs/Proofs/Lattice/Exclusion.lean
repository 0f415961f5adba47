import GradualJs.Proofs.Lattice.Reflexivity
import GradualJs.Proofs.Lattice.Typeof
import GradualJs.Proofs.Registry.Lineage
import GradualJs.Proofs.Ty.DecidableEq
import Mathlib.Data.List.Pairwise

/-! Taking a member out of a union of primitive values and class instances. No class of a normal
union is above another, since the two would have been joined, so the member goes and nothing else
does. All that is asked is whether the member fits itself, and this may have no end. -/
namespace GradualJs

open List Relation Relations

section Filters

variable {α : Type} {f : α → Query Bool} {list : List α}

lemma filterAuxM_all (kept : ∀ a ∈ list, f a = pure true) (passed : List α) :
    filterAuxM f list passed = pure (list.reverse ++ passed) := by
  induction list generalizing passed with
  | nil => rfl
  | cons a list ih =>
    obtain ⟨first,others⟩ := forall_mem_cons.mp kept
    simpa [filterAuxM,first] using ih others (a :: passed)

/-- If one element is in question, then the outcome depends on it alone. -/
lemma filterAuxM_once [DecidableEq α] (kept : ∀ b ∈ list, b ≠ a → f b = pure true) (once : list.Nodup)
    (mem : a ∈ list) (passed : List α) : filterAuxM f list passed = do
      return (if ← f a then list else list.filter (· ≠ a)).reverse ++ passed := by
  induction list generalizing passed with
  | nil => cases mem
  | cons b list ih =>
    obtain ⟨first,others⟩ := forall_mem_cons.mp kept
    obtain ⟨fresh,once⟩ := nodup_cons.mp once
    by_cases same : b = a
    · subst same
      have differ : ∀ c ∈ list, c ≠ b := fun c mem => ne_of_mem_of_not_mem mem fresh
      simp only [filterAuxM,filterAuxM_all fun c mem => others c mem (differ c mem)]
      congr 1
      funext ans
      have rest : list.filter (fun c => !decide (c = b)) = list := filter_eq_self.mpr (by simpa using differ)
      cases ans <;> simp [rest]
    · rw [filterAuxM,first same,pure_bind,ih others once ((mem_cons.mp mem).resolve_left (Ne.symm same))]
      congr 1
      funext ans
      cases ans <;> simp [same]

end Filters

namespace Registry

variable {r : Registry} {x y : Instance} {u v t : Union} {m : Ty}

/-- An instance of a class other than `Object`. -/
def ClassOnly (r : Registry) (i : Instance) : Prop := (r.nominal i.id).kind = .classType ∧ i.id ≠ .object

section Chains

variable (acyclic : r.Acyclic) (sorted : r.Sorted)
include acyclic sorted

/-- The classes above a class are on the chain of its superclasses. -/
lemma mem_chainFrom {id above : NominalId} (isClass : (r.nominal above).kind = .classType)
    (reached : ReflTransGen r.Names id above) :
    (r.nominal id).kind = .classType ∧ ∀ steps seen, r.rank id ≤ steps →
      (∀ s ∈ seen, ReflTransGen r.Names s id) → above ∈ r.chainFrom steps seen id := by
  induction reached using ReflTransGen.head_induction_on with
  | refl => exact ⟨isClass,fun steps seen _ _ => by fun_cases chainFrom r steps seen above <;> simp⟩
  | @head id _ names _ ih =>
    obtain ⟨isParent,ih⟩ := ih
    have lower := acyclic.rank_lt names
    obtain ⟨parent,inherited,rfl⟩ := names
    -- An interface is no class, so the class is inherited as the superclass.
    have extended : (r.nominal id).superclass = some parent := by
      rcases mem_append.mp inherited with extended | implemented
      · simpa using extended
      · have := (sorted.headers id).interfaces parent implemented
        simp [isParent,NominalKind.isInterface] at this
    refine ⟨((sorted.headers id).superclass parent extended).2,fun steps seen enough passed => ?_⟩
    have fresh : parent.id ∉ seen := fun cycle =>
      acyclic.irrefl id (.head' ⟨parent,inherited,rfl⟩ (passed _ cycle))
    obtain ⟨steps,rfl⟩ : ∃ fewer, steps = fewer + 1 := ⟨steps - 1,by omega⟩
    simp only [chainFrom,extended,contains_eq_mem,fresh,decide_false,Bool.false_eq_true,if_false]
    refine mem_cons_of_mem _ (ih steps _ (by omega) (forall_mem_cons.mpr ⟨.refl,fun s earlier => ?_⟩))
    exact (passed s earlier).tail ⟨parent,inherited,rfl⟩

/-- So is every class that the class can be seen as. -/
lemma mem_superclassChain (isClass : r.ClassOnly y) (reached : r.upcast x y.id ≠ none) :
    y.id ∈ r.superclassChain x.id := by
  have above : ReflTransGen r.Names x.id y.id :=
    ((acyclic.upcast_isSome rfl isClass.2).mp (Option.isSome_iff_ne_none.mpr reached)).resolve_left isClass.2
  have length : r.rank x.id ≤ r.nominals.length :=
    (Finset.card_filter_le _ _).trans (by simpa [nominalIds] using r.nominalIds.toFinset_card_le)
  exact (mem_chainFrom acyclic sorted isClass.1 above).2 _ _ length (by simp [ReflTransGen.refl])

end Chains

lemma commonViews_ne_none (classX : r.ClassOnly x) (classY : r.ClassOnly y) (named : above ≠ .object)
    (left : above ∈ r.superclassChain x.id) (right : above ∈ r.superclassChain y.id) :
    r.commonViews x y ≠ none := by
  have view {i : Instance} {c : NominalId} (onChain : c ∈ r.superclassChain i.id) : ∃ seen, r.upcast i c = some seen := by
    have := chainFrom_subset_ancestry i _ _ i.id (ancestry_complete i).1 onChain
    rw [← Option.isSome_iff_exists,upcast]
    split
    · rfl
    · simpa [find?_isSome] using this
  cases found : r.commonSuperclass x.id y.id with
  | none =>
    simp only [commonSuperclass,classX.1,classY.1] at found
    have := List.find?_eq_none.mp found above left
    simp [named,right] at this
  | some ancestor =>
    have chained := found
    simp only [commonSuperclass,classX.1,classY.1] at chained
    have shared := find?_some chained
    simp only [Bool.and_eq_true,contains_eq_mem,decide_eq_true_eq] at shared
    obtain ⟨_,isX⟩ := view (mem_of_find?_eq_some chained)
    obtain ⟨_,isY⟩ := view shared.2
    simp [commonViews,found,isX,isY]

/-- Instances of two classes neither of which is above the other. -/
def Foreign (r : Registry) (o p : Obj) : Prop := ∃ x y : Instance, o = .nominal x ∧ p = .nominal y ∧
  (r.ClassOnly x ∧ r.ClassOnly y) ∧ r.upcast x y.id = none ∧ r.upcast y x.id = none

lemma Foreign.symm (foreign : r.Foreign o p) : r.Foreign p o := by
  obtain ⟨x,y,rfl,rfl,classes,forth,back⟩ := foreign
  exact ⟨y,x,rfl,rfl,classes.symm,back,forth⟩

lemma foreign_of_combine (acyclic : r.Acyclic) (sorted : r.Sorted) (classX : r.ClassOnly x)
    (classY : r.ClassOnly y) (apart : (mergeRules r below).combine (.nominal x) (.nominal y) = some none) :
    r.Foreign (.nominal x) (.nominal y) := by
  have distinct : x.id ≠ y.id := fun same => MergeRules.combine_ne_none (by simp [Obj.identity,same]) apart
  have unseen : r.commonViews x y = none := by
    simp [MergeRules.combine,distinct,mergeRules,joinDistinct,Option.bind_eq_some_iff] at apart
    obtain ⟨_,-,-,apart⟩ := apart
    split at apart
    · simp [Option.bind_eq_some_iff] at apart
    · assumption
  have onChain {i j : Instance} := mem_superclassChain (x := i) (y := j) acyclic sorted
  have own (i : Instance) : r.upcast i i.id ≠ none := by simp [upcast]
  refine ⟨x,y,rfl,rfl,⟨classX,classY⟩,?_,?_⟩ <;> by_contra reached
  · exact commonViews_ne_none classX classY classY.2 (onChain classY reached) (onChain classY (own y)) unseen
  · exact commonViews_ne_none classX classY classX.2 (onChain classX (own x)) (onChain classX reached) unseen

lemma Foreign.objectSubtype (foreign : r.Foreign o p) (below : Relations) (lax : Bool) :
    objectSubtype r below lax o p = pure false := by
  obtain ⟨x,y,rfl,rfl,⟨-,isClass,named⟩,unreached,-⟩ := foreign
  simp [Relations.objectSubtype,instanceSubtype,named,unreached,isClass]

/-- Two unions of primitive values and class instances that have nothing in common. -/
structure Disjoint (r : Registry) (v t : Union) : Prop where
  plain : v.enums = [] ∧ v.vars = []
  plainTest : t.enums = [] ∧ t.vars = []
  primitives : v.primitives.inter t.primitives = {}
  objects : ∀ o ∈ v.objects, ∀ p ∈ t.objects, r.Foreign o p

lemma anyM_foreign {tests : List Obj} (foreign : ∀ p ∈ tests, r.Foreign o p) (below : Relations) (lax : Bool) :
    (tests.anyM fun p => objectSubtype r below lax o p) = pure false := by
  induction tests with
  | nil => rfl
  | cons p tests ih =>
    obtain ⟨first,others⟩ := forall_mem_cons.mp foreign
    rw [Query.anyM_cons,first.objectSubtype,pure_bind]
    exact ih others

lemma specializeTests_foreign (foreign : ∀ p ∈ tests, r.Foreign o p)
    (l : Lattice) (same : l.registry = r) : l.specializeTests o tests = some [] := by
  induction tests with
  | nil => rfl
  | cons p rest ih =>
    obtain ⟨⟨x,y,rfl,rfl,⟨⟨classX,namedX⟩,classY,namedY⟩,forth,back⟩,others⟩ := forall_mem_cons.mp foreign
    have none : l.specializeTest (.nominal x) (.nominal y) = some none := by
      simp [Lattice.specializeTest,Lattice.specializeObject,Lattice.specializeInstances,
        Lattice.instanceSubtype,instanceSubtype,same,namedX,namedY,forth,back,classX,classY,NominalKind.isInterface]
    simp [Lattice.specializeTests,none,ih others]

lemma mapM_foreign {objects : List Obj} (foreign : ∀ o ∈ objects, ∀ p ∈ t.objects, r.Foreign o p) (l : Lattice)
    (same : l.registry = r) :
    ∃ lists, objects.mapM (l.specializeUnion · t) = some lists ∧ lists.flatten = [] := by
  induction objects with
  | nil => exact ⟨[],rfl,rfl⟩
  | cons o rest ih =>
    obtain ⟨first,others⟩ := forall_mem_cons.mp foreign
    obtain ⟨lists,ended,none⟩ := ih others
    have nothing : l.specializeUnion o t = some [] := by
      cases t
      simpa [Lattice.specializeUnion] using specializeTests_foreign first l same
    exact ⟨[] :: lists,by simp [nothing,ended],none⟩

lemma mem_members (enums : u.enums = []) (vars : u.vars = []) : m ∈ (Ty.union u).members ↔
      (∃ p ∈ PrimitiveSet.tags, u.primitives.contains p = true ∧ m = .union {primitives := p}) ∨
      ∃ o ∈ u.objects, m = .object o := by
  have tag : ∀ p ∈ PrimitiveSet.tags, Ty.primitive p = .union {primitives := p} := by
    simp [PrimitiveSet.tags,Ty.primitive,Ty.ofUnion]
    decide
  simp only [Ty.members,enums,vars,map_nil,append_nil,mem_append,mem_map,mem_filter]
  grind

lemma contains_empty : ∀ p ∈ PrimitiveSet.tags, PrimitiveSet.contains {} p = false := by decide

namespace Disjoint

variable (disjoint : r.Disjoint v t)
include disjoint

lemma isSubtype (some : v.isEmpty = false) :
    Lattice.isSubtype ⟨r,lax,depth + 1⟩ (.union v) (.union t) = .some false := by
  obtain ⟨⟨enums,vars⟩,-,primitives,objects⟩ := disjoint
  change (subtypeUnions r (within r depth) lax v t).run' [] = _
  rw [subtypeUnions]
  cases contained : t.primitives.contains v.primitives with
  | false => rfl
  | true =>
    have none : v.primitives = {} := by
      rw [← primitives,eq_comm]
      simpa [PrimitiveSet.contains,PrimitiveSet.inter,PrimitiveSet.zipWith,Bool.and_comm] using contained
    cases isObjects : v.objects with
    | nil => simp [Union.isEmpty,none,enums,vars,isObjects,PrimitiveSet.isEmpty,PrimitiveSet.empty] at some
    | cons o rest =>
      simp [enums,vars,anyM_foreign (objects o (by simp [isObjects]))]

lemma specialize : Lattice.specialize ⟨r,lax,depth + 1⟩ (.ofUnion v) (.union t) = some .bottom := by
  cases empty : v.isEmpty with
  | true => simp [Ty.ofUnion,empty,Lattice.specialize]
  | false =>
    let l : Lattice := ⟨r,lax,depth + 1⟩
    have refused : l.isSubtype (.union v) (.union t) = some false := disjoint.isSubtype empty
    obtain ⟨⟨enums,vars⟩,⟨testEnums,testVars⟩,primitives,objects⟩ := disjoint
    obtain ⟨lists,ended,none⟩ := mapM_foreign objects l rfl
    have implausible : l.plausiblyRelated v t = false := by
      cases tested : t.objects with
      | nil => simp [Lattice.plausiblyRelated,tested]
      | cons p rest =>
        simp only [Lattice.plausiblyRelated,tested,isEmpty_cons,Bool.not_false,Bool.true_and,any_eq_false]
        intro o mem
        obtain ⟨x,y,rfl,-,⟨⟨isClass,named⟩,-⟩,-⟩ := objects o mem p (by simp [tested])
        simp [l,isClass,named,NominalKind.isInterface]
    have left : l.specializeUnions v t [] = some .bottom := by
      have normal : l.normalize [] = some [] := rfl
      simp [Lattice.specializeUnions,Lattice.specializeEnums,stableSort,enums,testEnums,vars,primitives,normal,
        implausible,Ty.ofUnion,Union.isEmpty,PrimitiveSet.isEmpty,PrimitiveSet.empty]
    change Lattice.specialize l _ _ = _
    simp only [Ty.ofUnion,empty,Bool.false_eq_true,if_false,Lattice.specialize,refused]
    simp [ended,none,left]

lemma isSubtype_member (mem : other ∈ (Ty.union v).members) :
    Lattice.isSubtype ⟨r,lax,depth + 1⟩ other (.union t) = some false := by
  obtain ⟨⟨enums,vars⟩,plain,primitives,objects⟩ := disjoint
  rcases (mem_members enums vars).mp mem with ⟨p,isTag,held,rfl⟩ | ⟨o,held,rfl⟩
  · have missing : t.primitives.contains p = false := by
      have both := (PrimitiveSet.contains_tag isTag v.primitives t.primitives).1
      simpa [primitives,held,contains_empty p isTag] using both.symm
    change (subtypeUnions r (within r depth) lax {primitives := p} t).run' [] = some false
    simp [subtypeUnions,missing]
  · exact isSubtype ⟨⟨rfl,rfl⟩,plain,by simp [PrimitiveSet.inter,PrimitiveSet.zipWith],by simpa using objects o held⟩
      (by simp [Union.isEmpty])

end Disjoint

/-- A union of primitive values and instances of classes none of which is above another. -/
structure Parted (r : Registry) (u : Union) : Prop where
  enums : u.enums = []
  vars : u.vars = []
  distinct : u.objects.Nodup
  foreign : ∀ o ∈ u.objects, ∀ p ∈ u.objects, o ≠ p → r.Foreign o p

lemma Normal.parted (acyclic : r.Acyclic) (sorted : r.Sorted) (normal : r.Normal (.union u))
    (enums : u.enums = []) (vars : u.vars = []) (classes : ∀ o ∈ u.objects, ∃ i, o = .nominal i ∧ r.ClassOnly i) :
    r.Parted u := by
  obtain _ | _ | _ | ⟨-,unchanged,-⟩ := normal
  have distinct : u.objects.Nodup := unchanged.increasing.imp fun apart same => apart.2 (congrArg Obj.identity same)
  obtain ⟨depth,ended⟩ := unchanged
  have foreign : u.objects.Pairwise r.Foreign := (pairwise_of_normalized ended).1.imp_of_mem fun inX inY apart => by
    obtain ⟨x,rfl,classX⟩ := classes _ inX
    obtain ⟨y,rfl,classY⟩ := classes _ inY
    exact foreign_of_combine acyclic sorted classX classY apart
  have : Std.Symm r.Foreign := ⟨fun _ _ => Foreign.symm⟩
  exact ⟨enums,vars,distinct,fun o inO p inP => foreign.forall inO inP⟩

lemma Normal.member (normal : r.Normal (.union u)) (enums : u.enums = []) (vars : u.vars = [])
    (mem : m ∈ (Ty.union u).members) : r.Normal m := by
  obtain _ | _ | _ | ⟨-,-,parts⟩ := normal
  rcases (mem_members enums vars).mp mem with ⟨p,isTag,-,rfl⟩ | ⟨o,held,rfl⟩
  · have some : ∀ p ∈ PrimitiveSet.tags, p.isEmpty = false := by decide
    exact .union (by simp [Union.isEmpty,some p isTag]) ⟨0,rfl⟩ (by simp)
  · exact .union rfl ⟨0,rfl⟩ (by simpa using parts o held)

/-- What is left of a union without one of its members. -/
def without (u : Union) (m : Ty) : Union where
  primitives := u.primitives.without m.primitives
  objects := u.objects.filter (.object · ≠ m)

namespace Parted

variable (parted : r.Parted u) (mem : m ∈ (Ty.union u).members)
include parted mem

lemma mem_without : other ∈ (Ty.union (without u m)).members ↔
    other ∈ (Ty.union u).members ∧ other ≠ m := by
  have tags : ∀ p ∈ PrimitiveSet.tags, (u.primitives.without m.primitives).contains p = true ↔
      u.primitives.contains p = true ∧ Ty.union {primitives := p} ≠ m := by
    intro p isTag
    have own : m.primitives.contains p = true ↔ Ty.union {primitives := p} = m := by
      rcases (mem_members parted.enums parted.vars).mp mem with ⟨q,isTag',-,rfl⟩ | ⟨o,-,rfl⟩
      · have : ∀ p ∈ PrimitiveSet.tags, ∀ q ∈ PrimitiveSet.tags, q.contains p = true ↔ p = q := by decide
        simpa [Ty.primitives] using this p isTag q isTag'
      · simpa [Ty.object,Ty.primitives] using contains_empty p isTag
    rw [(PrimitiveSet.contains_tag isTag _ _).2.1,Bool.and_eq_true,ne_eq,← own]
    simp
  rw [mem_members rfl rfl,mem_members parted.enums parted.vars]
  simp only [without,mem_filter,decide_eq_true_eq]
  grind

lemma disjoint_without : ∃ t, m = .union t ∧ r.Disjoint (without u m) t := by
  have apart (a b : PrimitiveSet) : (a.without b).inter b = {} := by
    simp [PrimitiveSet.without,PrimitiveSet.inter,PrimitiveSet.zipWith]
  rcases (mem_members parted.enums parted.vars).mp mem with ⟨p,-,-,rfl⟩ | ⟨o,held,rfl⟩
  · exact ⟨_,rfl,⟨rfl,rfl⟩,⟨rfl,rfl⟩,apart _ _,by simp⟩
  · refine ⟨_,rfl,⟨rfl,rfl⟩,⟨rfl,rfl⟩,apart _ _,?_⟩
    simp only [without,mem_filter,decide_eq_true_eq,mem_singleton,forall_eq]
    rintro other ⟨held',different⟩
    exact parted.foreign other held' o held fun same => different (same ▸ rfl)

/-- The other members are refused at once, so only the member itself is asked about. -/
lemma exclude (fits : r.Fits lax m m) : Lattice.exclude ⟨r,lax,depth⟩ (.union u) m =
      (Lattice.isSubtype ⟨r,lax,depth + 1⟩ m m).map fun _ => .ofUnion (without u m) := by
  rcases (mem_members parted.enums parted.vars).mp mem with ⟨p,-,-,rfl⟩ | ⟨o,held,rfl⟩
  · have itself : Lattice.isSubtype ⟨r,lax,depth + 1⟩ (.union {primitives := p}) (.union {primitives := p}) =
        some true := by
      change (subtypeUnions r (within r depth) lax {primitives := p} _).run' [] = some true
      simp [subtypeUnions,PrimitiveSet.contains,PrimitiveSet.inter,PrimitiveSet.zipWith]
    have kept : (u.objects.filterM fun _ => (pure true : Query Bool)) = pure u.objects := by
      simp [filterM,filterAuxM_all (f := fun _ : Obj => pure true) fun _ _ => rfl]
    simp [itself,Lattice.exclude,kept,without,parted.enums,parted.vars,Ty.primitives,Ty.object]
  · let ask (b : Obj) : Query Bool := objectSubtype r (within r depth) lax b o
    have asked : Lattice.isSubtype ⟨r,lax,depth + 1⟩ (.object o) (.object o) = (ask o).run' [] :=
      congrArg (StateT.run' · []) (within_object r depth lax o o)
    have others : ∀ b ∈ u.objects, b ≠ o → (do return !(← ask b)) = (pure true : Query Bool) := by
      intro b held' different
      simp [ask,(parted.foreign b held' o held different).objectSubtype]
    have filtered : (u.objects.filterM fun b => do return !(← ask b)) = do
        return if !(← ask o) then u.objects else u.objects.filter (· ≠ o) := by
      rw [filterM,filterAuxM_once others parted.distinct held]
      simp
    have excluded : Lattice.exclude ⟨r,lax,depth⟩ (.union u) (.object o) =
        ((u.objects.filterM fun b => do return !(← ask b)).run' []).map fun objects =>
          .ofUnion {primitives := u.primitives, objects} := by
      simp only [Lattice.exclude,Ty.object,Query.anyM_singleton]
      simp [parted.enums,parted.vars,PrimitiveSet.without,PrimitiveSet.zipWith,ask,
        Lattice.objectSubtype,Lattice.relations,Option.map_eq_bind]
    rw [asked,excluded,filtered]
    cases ran : (ask o).run [] with
    | none => simp [ran]
    | some res =>
      have granted : res.1 = true := fits.isSubtype (asked.trans (by rw [StateT.run'_eq,ran]; rfl))
      simp [ran,granted,without,Ty.object,Ty.primitives,PrimitiveSet.without,PrimitiveSet.zipWith]

end Parted

/-- A member can be taken out of a normal union of primitive values and class instances exactly if the
question whether it fits itself does not lead on without end. Then it is gone and all others stay,
none of them fits it, and a test for it leaves nothing. -/
theorem exclude_member_iff (collected : Declarations.collect prog externs legacy = some decls)
    (normal : decls.registry.Normal (.union u)) (enums : u.enums = []) (vars : u.vars = [])
    (classes : ∀ o ∈ u.objects, ∃ i, o = .nominal i ∧ decls.registry.ClassOnly i)
    (mem : m ∈ (Ty.union u).members) (lax : Bool) :
    let l (depth : Nat) : Lattice := ⟨decls.registry,lax,depth⟩
    ((∃ depth, ∀ deeper, depth ≤ deeper → ((l deeper).exclude (.union u) m).isSome = true) ↔
      ¬decls.registry.Endless (.subtype lax m m [])) ∧
    ∀ depth rest, (l depth).exclude (.union u) m = some rest → ∃ v, rest = .ofUnion v ∧
      (∀ other, other ∈ (Ty.union v).members ↔ other ∈ (Ty.union u).members ∧ other ≠ m) ∧
      ∀ deeper, (∀ other ∈ (Ty.union v).members, (l (deeper + 1)).isSubtype other m = some false) ∧
        (l (deeper + 1)).specialize rest m = some .bottom := by
  intro l
  have parted := normal.parted (Declarations.collect_acyclic collected)
    (Declarations.collect_sorted collected) enums vars classes
  have fits : decls.registry.Fits lax m m := (normal.member enums vars mem).fits_self (Declarations.collect_kinded collected)
  have excluded (depth : Nat) : (l depth).exclude (.union u) m = _ := parted.exclude mem fits
  refine ⟨?_,fun depth rest ended => ?_⟩
  · rw [← settled_iff_not_endless,settled_subtype_iff]
    simp only [excluded,Option.isSome_map]
    constructor
    · rintro ⟨depth,answers⟩
      refine ⟨true,depth + 1,fun deeper enough => ?_⟩
      obtain ⟨deeper,rfl⟩ : ∃ fewer, deeper = fewer + 1 := ⟨deeper - 1,by omega⟩
      obtain ⟨ans,reached⟩ := Option.isSome_iff_exists.mp (answers deeper (by omega))
      rwa [fits.isSubtype reached] at reached
    · rintro ⟨ans,depth,reached⟩
      exact ⟨depth,fun deeper enough => by rw [reached (deeper + 1) (by omega)]; rfl⟩
  · obtain ⟨t,rfl,disjoint⟩ := parted.disjoint_without mem
    obtain ⟨ans,-,rfl⟩ := Option.map_eq_some_iff.mp (excluded depth ▸ ended)
    exact ⟨_,rfl,fun _ => parted.mem_without mem,fun deeper =>
      ⟨fun _ left => disjoint.isSubtype_member left,disjoint.specialize⟩⟩

open Outline

/-- Arrays are taken out of the numbers, arrays and instances of the class of the knot. -/
theorem exclude_member_array : ∃ decls, Declarations.collect (program knot) none false = some decls ∧ ∃ v,
    Lattice.exclude ⟨decls.registry,false,4⟩ (.union mixed) (.nominal .array [.number]) = some (.ofUnion v) ∧
    Ty.nominal ⟨3⟩ [] ∈ (Ty.union v).members ∧
    Lattice.specialize ⟨decls.registry,false,1⟩ (.ofUnion v) (.nominal .array [.number]) = some .bottom := by
  obtain ⟨decls,collected,eq,-⟩ := knot_knotted.1
  obtain ⟨kinds,ended⟩ : (∀ id ∈ [NominalId.array,⟨3⟩], ((registry knot).nominal id).kind = .classType) ∧
      (Lattice.exclude ⟨registry knot,false,4⟩ (.union mixed) (.nominal .array [.number])).isSome = true := by
    decide +kernel
  have normal := mixed_normal
  rw [← eq] at kinds ended normal
  have classes : ∀ o ∈ mixed.objects, ∃ i, o = .nominal i ∧ decls.registry.ClassOnly i := by
    simp only [mixed,forall_mem_cons]
    exact ⟨⟨_,rfl,kinds _ (by simp),by decide⟩,⟨_,rfl,kinds _ (by simp),by decide⟩,by simp⟩
  obtain ⟨rest,ended⟩ := Option.isSome_iff_exists.mp ended
  obtain ⟨v,rfl,members,left⟩ := (exclude_member_iff collected normal rfl rfl classes (by simp [Ty.members,Ty.nominal,mixed])
    false).2 4 rest ended
  exact ⟨decls,collected,v,ended,(members _).mpr (by simp [Ty.members,Ty.nominal,Ty.object,mixed]),(left 0).2⟩

theorem exclude_tangles : Collects knot ∧ (registry knot).Normal tangle ∧ ∀ depth,
    Lattice.exclude {registry := registry knot, depth} (.nominal .array [tangle]) (.nominal .array [tangle]) =
      none := by
  refine ⟨knot_knotted.1,tangle_normal,fun depth => ?_⟩
  have stuck : ((Lattice.relations {registry := registry knot, depth}).subtype false tangle tangle).run [] =
      none := Option.map_eq_none_iff.mp (isSubtype_eq_none endless_tangle depth)
  have named : NominalId.array ≠ .object := by decide
  have asked : (Lattice.objectSubtype {registry := registry knot, depth} (.nominal ⟨.array,[tangle]⟩)
      (.nominal ⟨.array,[tangle]⟩)).run [] = none := by
    simp [Lattice.objectSubtype,Relations.objectSubtype,Relations.instanceSubtype,upcast,padArgs,stuck,named]
  simp [Lattice.exclude,Ty.nominal,Ty.object,List.filterM,List.filterAuxM,asked]

end Registry
end GradualJs
