import GradualJs.Proofs.Lattice.Joining
import GradualJs.Proofs.Lattice.Specialize
import GradualJs.Proofs.Ty.Invariant

/-! Invariants over a registry. A join may put an ancestor in the place of two classes, with
arguments that the declarations of the classes give. So the operations of a lattice keep an
invariant if the supertypes that are declared have it. -/
namespace GradualJs

open Lifting List Option

variable {t : Ty} {bindings : Substitution} {f : FunctionType} {tag : TypeTag}

namespace Invariant

variable (V : Invariant)

def Headers (r : Registry) : Prop := ∀ id, ∀ parent ∈ (r.nominal id).supertypes, V.object (.nominal parent)

variable {V} {r : Registry}

lemma values_substitutionFor (good : V.object (.nominal i)) : ∀ type ∈ (r.substitutionFor i).values, V.type type := by
  intro type mem
  obtain ⟨entry,inEntries,rfl⟩ := mem_map.mp mem
  obtain ⟨⟨name,index⟩,-,rfl⟩ := mem_map.mp (Table.mem_of_mem_ofList inEntries)
  change V.type ((i.args[index]?).getD .unknown)
  cases found : i.args[index]? with
  | none => exact V.unknown
  | some arg => exact V.nominal.mp good arg (mem_of_getElem? found)

lemma Headers.supertypesOf (headers : V.Headers r)
    (good : V.object (.nominal i)) : ∀ parent ∈ r.supertypesOf i, V.object (.nominal parent) := by
  intro parent mem
  rcases Registry.mem_supertypesOf mem with ⟨d,declared,rfl⟩ | ⟨-,rfl⟩
  · have args := V.nominal.mp (headers i.id d declared)
    refine V.nominal.mpr fun a inArgs => ?_
    obtain ⟨arg,inDeclared,rfl⟩ := mem_map.mp inArgs
    exact V.instantiateVars (values_substitutionFor good) (args arg inDeclared)
  · exact V.nominal.mpr (by simp [Registry.objectInstance])

lemma Headers.upcast (headers : V.Headers r)
    (good : V.object (.nominal i)) (found : r.upcast i tgt = some viewed) : V.object (.nominal viewed) :=
  Registry.upcast_forall (fun _ => headers.supertypesOf) good found

section Level

open Relations

variable {below : Relations}

/-- One of two instances stays, or what they are as instances of a common superclass is joined. -/
lemma holds_joinDistinct {Q : Obj → Prop} (goodX : Q (.nominal x))
    (goodY : Q (.nominal y)) (views : ∀ ancestor left right, r.upcast x ancestor = some left →
      r.upcast y ancestor = some right →
      runs.Holds (fun joined => Q (.nominal joined)) fun _ => joinInstances below.join left right) :
    runs.Holds (fun found => ∀ o ∈ found, Q o) fun _ => joinDistinct r below x y := by
  unfold joinDistinct
  refine runs.sequence (p := fun _ => True) (fun _ _ => trivial) ?_
  rintro ⟨fits,assumed⟩ -
  cases fits with
  | true => exact runs.value (by simpa using goodY)
  | false =>
    refine runs.sequence (p := fun _ => True) (fun _ _ => trivial) ?_
    rintro ⟨fits,-⟩ -
    cases fits with
    | true => exact runs.value (by simpa using goodX)
    | false =>
      simp only [Bool.false_eq_true,if_false]
      split
      · rename_i left right found
        obtain ⟨ancestor,-,viewX,viewY⟩ := Registry.commonViews_eq_some.mp found
        exact runs.sequence (views ancestor left right viewX viewY) fun joined good =>
          runs.value (by simpa using good)
      · exact runs.value (by simp)

lemma Headers.rules (headers : V.Headers r) (joins : runs.Keeps V.type fun _ => below.join)
    (meets : runs.Keeps V.type fun _ => below.meet false) : V.Rules runs fun _ => mergeRules r below where
  join := joins
  meet := meets
  distinct _ _ goodX goodY := holds_joinDistinct goodX goodY fun _ _ _ viewX viewY =>
    holds_joinInstances joins (headers.upcast goodX viewX) (headers.upcast goodY viewY)
  settle u settled ended := by
    obtain ⟨enums,fewer,rfl⟩ := Registry.absorbEnums_eq_some ended
    exact ⟨rfl,rfl,fewer⟩

lemma holds_meetObjects (meets : runs.Keeps V.type fun _ => below.meet lax)
    (goodA : V.object a) (goodB : V.object b) : runs.Holds (fun found => ∀ o ∈ found, V.object o)
      fun _ => meetObjects r below lax a b := by
  refine Relations.holds_meetObjects (L := runs) goodA goodB ?_ ?_ ?_
  · intro x y _ goodX goodY
    have pairs := padArgs_forall V.unknown (V.nominal.mp goodX) (V.nominal.mp goodY)
    refine runs.mono (holds_meetInstances meets pairs) fun found good met mem => ?_
    exact V.nominal.mpr (good met mem).2
  · intro x y goodX goodY
    refine runs.mono (holds_meetRecords meets (V.record.mp goodX) (V.record.mp goodY)) fun found good met mem => ?_
    exact V.record.mpr (good met mem)
  · exact holds_meetComparable goodA goodB (fun _ _ _ => trivial) fun _ _ _ => trivial

lemma holds_meetUnions (rules : V.Rules runs fun _ => mergeRules r below)
    (meets : runs.Keeps V.type fun _ => below.meet lax)
    (goodU : V.type (.union u)) (goodV : V.type (.union v)) :
    runs.Holds V.type fun _ => meetUnions r below lax u v := by
  obtain ⟨enumsU,varsU,-,objectsU⟩ := V.union goodU
  obtain ⟨enumsV,-,-,objectsV⟩ := V.union goodV
  unfold meetUnions
  refine runs.sequence (p := fun left => left.Sublist u.enums) (fun left filtered => ?_) fun left fromU => ?_
  · exact (filterM_eq_some filtered).1 ▸ filter_sublist
  refine runs.sequence (p := fun right => right.Sublist v.enums ∧ ∀ id ∈ left, id ∉ right)
    (fun right filtered => ?_) fun right held => ?_
  · obtain ⟨rfl,-⟩ := filterM_eq_some filtered
    refine ⟨filter_sublist,fun id inLeft inRight => ?_⟩
    simp [inLeft] at inRight
  obtain ⟨fromV,apart⟩ := held
  have pairs : runs.Holds (fun met => ∀ found ∈ met, ∀ o ∈ found, V.object o) fun _ => u.objects.mapM fun a =>
        v.objects.filterMapM fun b => meetObjects r below lax a b :=
    runs.mapM fun a inU => runs.filterMapM fun b inV =>
      holds_meetObjects meets (objectsU a inU) (objectsV b inV)
  refine runs.sequence pairs fun met good => ?_
  have flat : ∀ o ∈ met.flatten, V.object o := by
    intro o mem
    obtain ⟨found,inMet,inFound⟩ := mem_flatten.mp mem
    exact good found inMet o inFound
  refine runs.sequence (rules.normalizes _ flat) fun merged normal => ?_
  refine runs.value (V.ofUnion ?_ ?_ (V.order_increasing normal.1) normal.2)
  · exact V.enums_sorted (V.enums_sublist fromU enumsU) (V.enums_sublist fromV enumsV) apart
  · exact V.vars_sublist filter_sublist varsU

lemma Headers.within (headers : V.Headers r) (depth : Nat) :
    (runs.Keeps V.type fun _ => (Relations.within r depth).join) ∧
      ∀ lax, runs.Keeps V.type fun _ => (Relations.within r depth).meet lax := by
  induction depth with
  | zero =>
    constructor
    · intro a b _ _ t ended
      cases ended
    · intro lax a b _ _ t ended
      cases ended
  | succ depth ih =>
    obtain ⟨joins,meets⟩ := ih
    have rules := headers.rules joins (meets false)
    refine ⟨rules.keeps_joinStep,fun lax a b goodA goodB => holds_meetStep goodA goodB ?_⟩
    rintro u v rfl rfl
    exact holds_meetUnions rules (meets lax) goodA goodB

end Level

lemma values_bindings (params : List String) (values : ∀ type ∈ bindings.values, V.type type) :
    ∀ type ∈ (params.foldl (fun t name => t.insertNew name .unknown) bindings).values, V.type type := by
  induction params generalizing bindings with
  | nil => exact values
  | cons first rest ih =>
    refine ih fun type mem => ?_
    obtain ⟨entry,inEntries,rfl⟩ := mem_map.mp mem
    rcases Table.mem_insertNew inEntries with rfl | old
    · exact V.unknown
    · exact values _ (mem_map_of_mem old)

/-- Rebuilding a function from its parts leaves it no variables of its own. -/
lemma holds_mapTypes (each : ∀ type ∈ f.types, runs.Holds P fun _ => apply type) :
    runs.Holds (fun mapped => ∀ type ∈ mapped.types, P type) fun _ => f.mapTypes apply := by
  have list {types : List Ty} (parts : types ⊆ f.types) :
      runs.Holds (fun mapped => ∀ type ∈ mapped, P type) fun _ => types.mapM apply :=
    runs.mapM fun type mem => each type (parts mem)
  have option {type : Option Ty} (parts : type.toList ⊆ f.types) :
      runs.Holds (fun mapped => ∀ present, mapped = some present → P present) fun _ => type.mapM apply := by
    cases type with
    | none => exact runs.value (by simp)
    | some present =>
      exact runs.map (each present (parts (by simp))) fun mapped good => by simpa using good
  unfold FunctionType.mapTypes
  refine runs.sequence (list fun t mem => FunctionType.mem_types.mpr (.inl mem)) fun required goodRequired => ?_
  refine runs.sequence (list fun t mem => FunctionType.mem_types.mpr (.inr (.inl mem))) fun optional goodOptional => ?_
  refine runs.sequence (option f.rest_subset) fun rest goodRest => ?_
  refine runs.sequence (each _ f.returnType_mem) fun returnType goodReturn => ?_
  refine runs.sequence (option f.receiver_subset) fun recv goodReceiver => ?_
  refine runs.sequence (option f.constructs_subset) fun constructs goodConstructs => ?_
  refine runs.value ?_
  simp only [FunctionType.mem_types,or_imp,forall_and,forall_eq]
  exact ⟨goodRequired,goodOptional,goodRest,goodReturn,goodReceiver,goodConstructs⟩

section Lattice

variable {l : Lattice} (headers : V.Headers l.registry)
include headers

lemma Headers.join (goodA : V.type a) (goodB : V.type b) (ended : l.join a b = some joined) : V.type joined :=
  (headers.within l.depth).1 a b goodA goodB joined ended

lemma Headers.meet (goodA : V.type a) (goodB : V.type b) (ended : l.meet a b = some met) : V.type met :=
  (headers.within l.depth).2 l.bivariant a b goodA goodB met ended

lemma Headers.normalizes : V.Normalizes runs fun _ => l.normalize :=
  (headers.rules (headers.within l.depth).1 ((headers.within l.depth).2 false)).normalizes

lemma Headers.merges : V.Merges runs fun _ => l.merger where
  join _ _ goodA goodB _ ended := headers.join goodA goodB ended
  normalize := headers.normalizes

lemma Headers.substitute {mapping : Substitution} {type replaced : Ty}
    (values : ∀ type ∈ mapping.values, V.type type) (good : V.type type)
    (ended : l.substitute mapping type = some replaced) : V.type replaced :=
  headers.merges.substitute values good replaced ended

lemma Headers.instantiate (values : ∀ type ∈ bindings.values, V.type type) (good : V.object (.function f))
    (ended : l.instantiate f bindings = some instantiated) : V.object (.function instantiated) := by
  have parts := V.function.mp good
  have types := holds_mapTypes (fun type mem => headers.merges.substitute
    (values_bindings f.typeParams values) (parts type mem)) instantiated ended
  exact V.function.mpr types

end Lattice

section Narrowing

variable {l : Lattice} {u : Union}

lemma fewer {w : Union} (good : V.type (.union u)) (enums : w.enums.Sublist u.enums)
    (vars : w.vars.Sublist u.vars) (objects : w.objects.Sublist u.objects) : V.type (.ofUnion w) := by
  obtain ⟨goodEnums,goodVars,order,parts⟩ := V.union good
  exact V.ofUnion (V.enums_sublist enums goodEnums) (V.vars_sublist vars goodVars)
    (V.order_sublist objects order) fun o mem => parts o (objects.subset mem)

lemma truthy (good : V.type t) : V.type t.truthy := by
  cases t with
  | union u => exact fewer good (.refl _) (.refl _) (.refl _)
  | bottom | top | unknown => exact good

lemma withoutNullOrUndefined (good : V.type t) : V.type t.withoutNullOrUndefined := by
  cases t with
  | union u => exact fewer good (.refl _) (.refl _) (.refl _)
  | bottom | top | unknown => exact good

lemma falsy (good : V.type t) : V.type (l.falsy t) := by
  cases t with
  | union u => exact fewer good filter_sublist (.refl _) (nil_sublist _)
  | bottom | top | unknown => exact good

lemma exclude (good : V.type given) (ended : l.exclude given removed = some left) : V.type left := by
  unfold Lattice.exclude at ended
  split at ended
  · exact some.inj ended ▸ good
  · exact some.inj ended ▸ good
  · exact some.inj ended ▸ V.bottom
  · exact some.inj ended ▸ good
  · exact some.inj ended ▸ good
  · exact some.inj ended ▸ V.bottom
  · obtain ⟨objects,filtered,eq⟩ := bind_eq_some_iff.mp ended
    cases eq
    exact fewer good filter_sublist filter_sublist (Lattice.run_filterM_sublist filtered)

lemma primitive (set : PrimitiveSet) : V.type (.primitive set) :=
  V.ofUnion V.enums_nil V.vars_nil (V.order_increasing .nil) (by simp)

lemma single (good : V.object o) : V.type (.union {primitives, objects := [o]}) := by
  have union : V.type (.ofUnion {primitives, objects := [o]}) :=
    V.ofUnion V.enums_nil V.vars_nil (V.order_increasing (pairwise_singleton _ _)) (by simpa using good)
  simpa [Ty.ofUnion,Union.isEmpty] using union

lemma objectInstance : V.object (.nominal Registry.objectInstance) := V.nominal.mpr (by simp [Registry.objectInstance])

lemma toType (tag : TypeTag) : V.type tag.toType := by
  cases tag with
  | function => exact single V.any
  | object => exact single objectInstance
  | number | string | boolean | undefined => exact primitive _

lemma narrowObject (good : V.object o)
    (found : l.narrowObject tag positive o = some narrowed) : V.object narrowed := by
  unfold Lattice.narrowObject at found
  extract_lets isObject at found
  by_cases object : isObject = true
  · rw [if_pos object] at found
    split at found
    · exact some.inj found ▸ V.any
    · exact some.inj found ▸ good
    · exact some.inj found ▸ good
    · exact some.inj found ▸ good
    · cases found
  · rw [if_neg object] at found
    split at found
    · exact some.inj found ▸ good
    · cases found

lemma members (good : V.type t) : ∀ o ∈ (t.members?.getD {}).objects, V.object o := by
  cases t with
  | union u => exact (V.union good).2.2.2
  | bottom | top | unknown => exact nofun

variable (headers : V.Headers l.registry)
include headers

lemma Headers.narrowTypeof (good : V.type t)
    (ended : l.narrowTypeof tag positive t = some narrowed) : V.type narrowed := by
  cases t with
  | bottom => exact some.inj ended ▸ V.bottom
  | unknown =>
    rw [← some.inj ended]
    split
    · exact toType tag
    · exact V.unknown
  | top =>
    rw [← some.inj ended]
    split
    · exact toType tag
    · exact V.top
  | union u =>
    obtain ⟨objects,normalized,eq⟩ := bind_eq_some_iff.mp ended
    cases eq
    obtain ⟨enums,vars,-,parts⟩ := V.union good
    have narrowed (o : Obj) (mem : o ∈ u.objects.filterMap (l.narrowObject tag positive)) : V.object o := by
      obtain ⟨original,inU,found⟩ := mem_filterMap.mp mem
      exact narrowObject (parts original inU) found
    have gained (o : Obj) (mem : o ∈ (if positive && !u.vars.isEmpty then
        tag.toType.members?.getD {} else {} : Union).objects) : V.object o := by
      split at mem
      · exact members (toType tag) o mem
      · cases mem
    obtain ⟨increasing,merged⟩ := headers.normalizes _ (forall_mem_append.mpr ⟨narrowed,gained⟩) objects normalized
    refine V.ofUnion (V.enums_sublist filter_sublist enums) ?_ (V.order_increasing increasing) merged
    dsimp only
    split
    · exact V.vars_nil
    · exact vars

end Narrowing

section Specializing

variable {l : Lattice}

lemma specializeObject (good : V.object given) (goodT : V.object test)
    (ended : l.specializeObject given test = some (some o)) : V.object o :=
  (Lattice.specializeObject_eq ended).elim (· ▸ good) (· ▸ goodT)

variable (headers : V.Headers l.registry)
include headers

lemma Headers.specializeUnions {o t : Union}
    (goodO : V.type (.union o)) (goodT : V.type (.union t)) (parts : ∀ x ∈ objects, V.object x)
    (ended : l.specializeUnions o t objects = some narrowed) : V.type narrowed := by
  obtain ⟨enumsO,varsO,-,objectsO⟩ := V.union goodO
  obtain ⟨enumsT,-,orderT,objectsT⟩ := V.union goodT
  unfold Lattice.specializeUnions at ended
  obtain ⟨merged,normalized,eq⟩ := bind_eq_some_iff.mp ended
  cases eq
  have all : ∀ x ∈ (if o.vars.any (!t.vars.contains ·) then objects ++ t.objects else objects), V.object x := by
    split
    · exact forall_mem_append.mpr ⟨parts,objectsT⟩
    · exact parts
  obtain ⟨increasing,good⟩ := headers.normalizes _ all merged normalized
  have sorted : V.enums (l.specializeEnums o t) := by
    refine V.enums_sorted (V.enums_sublist filter_sublist enumsO)
      (V.enums_sublist filter_sublist enumsT) fun id kept gained => ?_
    simp only [mem_filter,Bool.and_eq_true,Bool.not_eq_true'] at gained
    exact Bool.false_ne_true (gained.2.1.symm.trans (contains_iff_mem.mpr kept))
  refine iteInduction (motive := V.type) (fun _ => ?_) fun _ => ?_
  · exact V.ofUnion (u := {objects := t.objects}) V.enums_nil V.vars_nil orderT objectsT
  · refine V.ofUnion sorted ?_ ?_ ?_
    · exact V.vars_sublist filter_sublist varsO
    · exact V.order_increasing increasing
    · exact good

set_option linter.unusedSectionVars false in
mutual
lemma Headers.specialize (good : V.type given) : (test : Ty) → V.type test →
    ∀ narrowed, l.specialize given test = some narrowed → V.type narrowed
  | .top, _, _, ended | .unknown, _, _, ended => some.inj ended ▸ good
  | .bottom, _, _, ended => some.inj ended ▸ V.bottom
  | .union t, goodT, narrowed, ended => by
    cases given with
    | bottom => exact some.inj ended ▸ V.bottom
    | unknown | top => exact some.inj ended ▸ goodT
    | union o =>
      obtain ⟨fits,_,ended⟩ := bind_eq_some_iff.mp ended
      cases fits with
      | true => exact some.inj ended ▸ good
      | false =>
        obtain ⟨found,mapped,ended⟩ := bind_eq_some_iff.mp ended
        have parts : runs.Holds (fun found => ∀ objects ∈ found, ∀ x ∈ objects, V.object x)
            fun _ => o.objects.mapM fun left => l.specializeUnion left t :=
          runs.mapM fun left mem found narrowed =>
            Headers.specializeUnion ((V.union good).2.2.2 left mem) t (V.union goodT).2.2.2 found narrowed
        refine headers.specializeUnions good goodT (fun x mem => ?_) ended
        obtain ⟨objects,inFound,inObjects⟩ := mem_flatten.mp mem
        exact parts found mapped objects inFound x inObjects
termination_by structural test => test
lemma Headers.specializeUnion (good : V.object given) : (test : Union) →
    (∀ o ∈ test.objects, V.object o) → ∀ found, l.specializeUnion given test = some found → ∀ o ∈ found, V.object o
  | ⟨_,_,_,objects⟩, goodT, found, ended => Headers.specializeTests good objects goodT found ended
termination_by structural test => test
lemma Headers.specializeTests (good : V.object given) : (tests : List Obj) →
    (∀ o ∈ tests, V.object o) → ∀ found, l.specializeTests given tests = some found → ∀ o ∈ found, V.object o
  | [], _, _, ended => by
    cases ended
    exact nofun
  | test :: rest, goodT, found, ended => by
    obtain ⟨goodTest,goodRest⟩ := forall_mem_cons.mp goodT
    obtain ⟨first,narrowed,ended⟩ := bind_eq_some_iff.mp ended
    obtain ⟨more,narrowedRest,ended⟩ := bind_eq_some_iff.mp ended
    cases ended
    refine forall_mem_append.mpr ⟨fun o mem => ?_, Headers.specializeTests good rest goodRest more narrowedRest⟩
    exact Headers.specializeTest good test goodTest o (mem_toList.mp mem ▸ narrowed)
termination_by structural tests => tests
lemma Headers.specializeTest (good : V.object given) : (test : Obj) →
    V.object test → ∀ o, l.specializeTest given test = some (some o) → V.object o
  | .record y, goodT, o, ended => by
    cases given with
    | record x =>
      obtain ⟨narrowed,fields,ended⟩ := bind_eq_some_iff.mp ended
      obtain ⟨record,rfl,rfl⟩ := map_eq_some_iff.mp (some.inj ended)
      exact Headers.specializeRecord good y goodT record fields
    | nominal i => exact specializeObject good goodT ended
    | function f => exact specializeObject (l := l) good goodT ended
    | namespaceValue id => exact specializeObject good goodT ended
  | .nominal i, goodT, o, ended | .function f, goodT, o, ended => specializeObject good goodT ended
  | .namespaceValue id, goodT, o, ended => specializeObject good goodT ended
termination_by structural test => test
lemma Headers.specializeRecord (good : V.object (.record x)) : (test : Record) →
    V.object (.record test) → ∀ r, l.specializeRecord x test = some (some r) → V.object (.record r)
  | ⟨tests,_,_⟩, goodT, r, ended => by
    obtain ⟨narrowed,fields,ended⟩ := bind_eq_some_iff.mp ended
    obtain ⟨done,rfl,rfl⟩ := map_eq_some_iff.mp (some.inj ended)
    exact V.record.mpr (Headers.specializeFields good (V.record.mp good) tests (V.record.mp goodT) done fields)
termination_by structural test => test
lemma Headers.specializeFields (good : V.object (.record x))
    (goodDone : ∀ f ∈ done, V.type f.type) : (tests : List Field) →
    (∀ f ∈ tests, V.type f.type) → ∀ fields, l.specializeFields x done tests = some (some fields) →
      ∀ f ∈ fields, V.type f.type
  | [], _, _, ended => some.inj (some.inj ended) ▸ goodDone
  | test :: rest, goodT, fields, ended => by
    obtain ⟨goodTest,goodRest⟩ := forall_mem_cons.mp goodT
    obtain ⟨narrowed,found,ended⟩ := bind_eq_some_iff.mp ended
    match narrowed with
    | none => cases ended
    | some none => exact Headers.specializeFields good goodDone rest goodRest fields ended
    | some (some field) =>
      have goodField := Headers.specializeField good test goodTest field found
      refine Headers.specializeFields good (fun f mem => ?_) rest goodRest fields ended
      exact (Field.mem_put mem).elim (· ▸ goodField) (goodDone f)
termination_by structural tests => tests
lemma Headers.specializeField (good : V.object (.record x)) : (test : Field) →
    V.type test.type → ∀ f, l.specializeField x test = some (some (some f)) → V.type f.type
  | ⟨name,type,optional,declared,constant⟩, goodT, f, ended => by
    unfold Lattice.specializeField at ended
    split at ended
    · rename_i existing found
      obtain ⟨narrowed,kept,ended⟩ := bind_eq_some_iff.mp ended
      split at ended
      · cases ended
      · cases ended
        exact Headers.specialize (V.record.mp good existing (mem_of_find?_eq_some found)) type goodT narrowed kept
    · split at ended
      · split at ended <;> cases ended
      · cases ended
        exact goodT
termination_by structural test => test
end

end Specializing

end Invariant
end GradualJs
