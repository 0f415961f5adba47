import GradualJs.Proofs.Ty.Normalize
import GradualJs.Proofs.Ty.Replace

/-! Invariants of types. A property that holds of a type if it holds of its parts, of the order of
its members and of its variables is kept by joining, by normalising and by replacing variables. -/
namespace GradualJs

open Lifting (plain)

lemma Obj.increasing_stableSort {objects : List Obj} (distinct : objects.Pairwise fun a b => a.identity ≠ b.identity) :
    Increasing (stableSort (fun a b => a.identity.notAfter b.identity) objects) := by
  have sorted := pairwise_stableSort (fun a b : Obj => Identity.notAfter_total a.identity b.identity)
    (fun a b c : Obj => Identity.notAfter_trans a.identity b.identity c.identity) objects
  have perm := stableSort_perm (fun a b : Obj => a.identity.notAfter b.identity) objects
  exact sorted.and ((perm.pairwise_iff fun {a b} differ => Ne.symm differ).mpr distinct)

/-- A property of types that is made of properties of their parts. -/
structure Invariant where
  type : Ty → Prop
  object : Obj → Prop
  enums : List EnumId → Prop
  vars : List String → Prop
  order : List Obj → Prop
  bottom : type .bottom
  top : type .top
  unknown : type .unknown
  union {u : Union} : type (.union u) → enums u.enums ∧ vars u.vars ∧ order u.objects ∧ ∀ o ∈ u.objects, object o
  ofUnion {u : Union} : enums u.enums → vars u.vars → order u.objects → (∀ o ∈ u.objects, object o) → type (.ofUnion u)
  nominal {i : Instance} : object (.nominal i) ↔ ∀ t ∈ i.args, type t
  record {r : Record} : object (.record r) ↔ ∀ f ∈ r.fields, type f.type
  function {f : FunctionType} : object (.function f) ↔ ∀ t ∈ f.types, type t
  space {id : NamespaceId} : object (.namespaceValue id)
  enums_nil : enums []
  enums_sublist {left right : List EnumId} : left.Sublist right → enums right → enums left
  enums_sorted {left right : List EnumId} : enums left → enums right → (∀ id ∈ left, id ∉ right) →
    enums (stableSort (fun a b => a.index ≤ b.index) (left ++ right))
  enums_merged {left right : List EnumId} : enums left → enums right →
    enums (mergeSorted (fun a b => a.index ≤ b.index) left right)
  vars_nil : vars []
  vars_sublist {left right : List String} : left.Sublist right → vars right → vars left
  vars_merged {left right : List String} : vars left → vars right → vars (mergeSorted (fun a b => a ≤ b) left right)
  order_increasing {objects : List Obj} : Obj.Increasing objects → order objects
  order_sublist {left right : List Obj} : left.Sublist right → order right → order left

namespace Invariant

variable (V : Invariant)

lemma any : V.object (.function .any) := by
  refine V.function.mpr fun t mem => ?_
  rw [FunctionType.types_any mem]
  exact V.unknown

section Join

variable {I : Type} {m : Type → Type} [Monad m] (L : Lifting I m)

structure Rules (rules : I → MergeRules m) : Prop where
  join : L.Keeps V.type fun i => (rules i).join
  meet : L.Keeps V.type fun i => (rules i).meet
  distinct : ∀ x y, V.object (.nominal x) → V.object (.nominal y) →
    L.Holds (fun found => ∀ o ∈ found, V.object o) fun i => (rules i).distinct x y
  settle : ∀ u, L.Holds (fun settled => settled.vars = u.vars ∧ settled.objects = u.objects ∧
    settled.enums.Sublist u.enums) fun i => (rules i).settle u

def Normalizes (normalize : I → List Obj → m (List Obj)) : Prop :=
  ∀ objects, (∀ o ∈ objects, V.object o) →
    L.Holds (fun merged => Obj.Increasing merged ∧ ∀ o ∈ merged, V.object o) fun i => normalize i objects

variable [LawfulMonad m] {V L}

lemma holds_joinInstances (joins : L.Keeps V.type join) (goodX : V.object (.nominal x))
    (goodY : V.object (.nominal y)) :
    L.Holds (fun joined => V.object (.nominal joined)) fun i => joinInstances (join i) x y := by
  have pairs := padArgs_forall V.unknown (V.nominal.mp goodX) (V.nominal.mp goodY)
  refine L.mono (MergeRules.holds_joinInstances joins pairs) ?_
  rintro joined ⟨-,args⟩
  exact V.nominal.mpr args

/-- A function that binds variables is only ever joined as a whole. -/
lemma Rules.holds_joinFunctions (keep : V.Rules L rules)
    (goodF : V.object (.function f)) (goodG : V.object (.function g)) :
    L.Holds (fun joined => V.object (.function joined)) fun i => (rules i).joinFunctions f g := by
  refine L.mono (MergeRules.holds_joinFunctions keep.join keep.meet
    (fun none => (V.function).mp goodF) fun none => (V.function).mp goodG) ?_
  rintro joined (rfl | rfl | ⟨-,none,parts⟩)
  · exact goodF
  · exact V.any
  · exact (V.function).mpr parts

lemma Rules.holds_combine {a b : Obj} (keep : V.Rules L rules) (goodA : V.object a) (goodB : V.object b) :
    L.Holds (fun combined => (∀ o ∈ combined, V.object o) ∧
        (combined = none → a.identity ≠ b.identity)) fun i => (rules i).combine a b := by
  refine MergeRules.holds_combine goodA goodB ?_ keep.distinct ?_ ?_
  · intro x y _ goodX goodY
    exact holds_joinInstances keep.join goodX goodY
  · intro x y goodX goodY
    refine L.mono (MergeRules.holds_joinRecords keep.join (V.record.mp goodX) (V.record.mp goodY)) ?_
    exact fun joined fields => V.record.mpr fields
  · intro f g goodF goodG
    exact keep.holds_joinFunctions goodF goodG

lemma Rules.normalizes (keep : V.Rules L rules) : V.Normalizes L fun i => normalizeObjects (rules i).combine := by
  intro objects good
  refine L.mono (Limits.holds_normalizeObjects_apart (fun _ _ => keep.holds_combine) good) ?_
  rintro sorted ⟨merged,goodMerged,distinct,rfl⟩
  exact ⟨Obj.increasing_stableSort distinct,fun o mem => goodMerged o (mem_stableSort.mp mem)⟩

lemma Rules.keeps_joinStep (keep : V.Rules L rules) : L.Keeps V.type fun i => (rules i).joinStep := by
  intro a b goodA goodB
  refine MergeRules.holds_joinStep goodA goodB ?_
  rintro u v rfl rfl
  obtain ⟨enumsU,varsU,-,objectsU⟩ := V.union goodA
  obtain ⟨enumsV,varsV,-,objectsV⟩ := V.union goodB
  have objects : ∀ o ∈ u.objects ++ v.objects, V.object o := List.forall_mem_append.mpr ⟨objectsU,objectsV⟩
  refine L.sequence (keep.normalizes _ objects) fun merged ⟨increasing,parts⟩ => ?_
  refine L.sequence (keep.settle _) ?_
  rintro settled ⟨vars,eq,fewer⟩
  refine L.value (V.ofUnion (V.enums_sublist fewer (V.enums_merged enumsU enumsV)) ?_ ?_ ?_)
  · exact vars ▸ V.vars_merged varsU varsV
  · exact eq ▸ V.order_increasing increasing
  · exact eq ▸ parts

end Join

section Plain

variable {V}

lemma rules_plain (joins : plain.Keeps V.type fun _ a b => (pure (join a b) : Id Ty)) :
    V.Rules plain fun _ => Ty.plainRules join where
  join := joins
  meet a b goodA _ := by
    refine plain.value ?_
    split
    · exact goodA
    · exact V.unknown
  distinct x y _ _ := plain.value (by simp)
  settle u := plain.value ⟨rfl,rfl,List.Sublist.refl _⟩

lemma keeps_mergeWithin (levels : Nat) : plain.Keeps V.type
    fun _ a b => (pure (Ty.mergeWithin levels a b) : Id Ty) := by
  induction levels with
  | zero =>
    intro a b _ _
    exact V.unknown
  | succ levels ih => exact (rules_plain ih).keeps_joinStep

end Plain

section Substitute

variable {I : Type} {m : Type → Type} [Monad m] (L : Lifting I m)

/-- The operations that a replacement is made of keep the invariant. -/
structure Merges (merger : I → Merger m) : Prop where
  join : L.Keeps V.type fun i => (merger i).join
  normalize : V.Normalizes L fun i => (merger i).normalize

variable {V} {L}

def Merges.replacing (keep : V.Merges L merger) : Replacing L merger Unit where
  before _ := V.type
  after _ := V.type
  beforeObject _ := V.object
  afterObject _ := V.object
  put mapping := ∀ type ∈ mapping.values, V.type type
  filtered _ values type mem := values type (Table.values_filterKeys_subset _ _ mem)
  bottom := id
  top := id
  unknown := id
  inUnion := id
  objects good := (V.union good).2.2.2
  plain values good := by
    obtain ⟨goodEnums,goodVars,-,-⟩ := V.union good
    refine L.foldlM (V.ofUnion goodEnums (V.vars_sublist List.filter_sublist goodVars)
      (V.order_increasing .nil) (by simp)) fun type mem start goodStart => ?_
    obtain ⟨name,-,found⟩ := List.mem_filterMap.mp mem
    exact keep.join start type goodStart (values type (Table.mem_values_of_get? found))
  joined {_ start objects} good parts :=
    L.sequence (keep.normalize objects parts) fun merged ⟨increasing,goodMerged⟩ =>
      keep.join start _ good (V.ofUnion V.enums_nil V.vars_nil (V.order_increasing increasing) goodMerged)
  inInstance _ := id
  args := V.nominal.mp
  nominal _ args := V.nominal.mpr args
  inRecord := id
  fields := V.record.mp
  record _ fields := V.record.mpr fields
  inFunction := id
  types := V.function.mp
  function := V.function.mpr
  space := id

lemma Merges.substitute [LawfulMonad m] (keep : V.Merges L merger) {mapping : Substitution}
    (values : ∀ type ∈ mapping.values, V.type type) {type : Ty} (good : V.type type) :
    L.Holds V.type fun i => (merger i).substitute mapping type :=
  keep.replacing.substitute (s := ()) values type good

end Substitute

section Instantiate

variable {V}

lemma merges_plain : V.Merges plain fun _ => Merger.plain where
  join a b := keeps_mergeWithin _ a b
  normalize objects good := (rules_plain (keeps_mergeWithin _)).normalizes objects good

/-- Replacing variables keeps the invariant, whether or not there is anything to replace. -/
lemma instantiateVars {mapping : Substitution} {type : Ty}
    (values : ∀ type ∈ mapping.values, V.type type) (good : V.type type) :
    V.type (type.instantiateVars mapping) := by
  unfold Ty.instantiateVars
  split
  · exact good
  · exact merges_plain.substitute values good

end Instantiate

end Invariant
end GradualJs
