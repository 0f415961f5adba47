import GradualJs.Proofs.Registry.Weight

/-! Ranks. A question comes to an end where the declarations can be ranked: no type reaches itself
through the properties of an object type that has no name, no supertype takes a function over the
type itself, and no class is an argument of its own superclass. -/
namespace GradualJs

variable {id : NamespaceId} {s i : Instance}

/-- A rank for each declaration, in three respects. -/
structure Ranks where
  /-- How deep object types are nested in the properties of a nominal type. -/
  records : NominalId → Nat
  spaces : NamespaceId → Nat
  /-- How deep functions are nested in the arguments of its supertypes. -/
  calls : NominalId → Nat
  /-- How deep types are nested in the arguments of its superclasses. -/
  heights : NominalId → Nat

namespace Ranks

variable (k : Ranks)

/-- Counts the object types that a question has to go through. -/
def nesting : Weights where
  nominal := k.records
  space := k.spaces
  record := 1

/-- Counts the functions that a question has to go through. -/
def calling : Weights where
  nominal := k.calls
  function := 1

/-- Counts all types that a join has to go through. -/
def height : Weights where
  nominal := k.heights
  union := 1

end Ranks

def Ty.Plain : Ty → Prop
  | .union u => u.enums = [] ∧ u.objects = []
  | _ => True

instance (t : Ty) : Decidable t.Plain :=
  match t with
  | .union u => decidable_of_iff (u.enums = [] ∧ u.objects.isEmpty) (by simp [Ty.Plain])
  | .bottom | .top | .unknown => inferInstanceAs (Decidable True)

namespace Registry

/-- Classes and interfaces are kept apart: what a class extends is a class, and only classes
have classes as supertypes. Enums are made of primitive values. -/
structure Kinded (r : Registry) : Prop where
  superclasses : ∀ id ∈ r.nominalIds, ∀ s ∈ (r.nominal id).superclass, (r.nominal s.id).kind = .classType
  classes : ∀ id ∈ r.nominalIds, ∀ s ∈ (r.nominal id).supertypes,
    (r.nominal s.id).kind = .classType → (r.nominal id).kind = .classType
  enums : ∀ e ∈ r.enums, e.backing.Plain

instance (r : Registry) : Decidable r.Kinded :=
  decidable_of_iff (_ ∧ _ ∧ _) ⟨fun ⟨a,b,c⟩ => ⟨a,b,c⟩,fun ⟨a,b,c⟩ => ⟨a,b,c⟩⟩

/-- What a nominal type declares is ranked no higher than the type. -/
structure RankedNominal (r : Registry) (k : Ranks) (id : NominalId) : Prop where
  properties : ∀ entry ∈ (r.nominal id).properties.entries, k.nesting.weigh entry.2.type ≤ k.records id
  /-- An optional property is joined with `undefined`, which may lead to other questions. -/
  optional : ∀ entry ∈ (r.nominal id).properties.entries, entry.2.optional → ¬entry.2.type.Single →
    k.nesting.weigh entry.2.type < k.records id
  supertypes : ∀ s ∈ (r.nominal id).supertypes,
    k.nesting.weighInstance s ≤ k.records id ∧ k.calling.weighInstance s ≤ k.calls id
  classes : ∀ s ∈ (r.nominal id).supertypes, (r.nominal s.id).kind = .classType →
    k.height.weighInstance s ≤ k.heights id
  object : r.extendsObject id → k.records .object ≤ k.records id ∧
    k.calls .object ≤ k.calls id ∧ k.heights .object ≤ k.heights id

structure RankedSpace (r : Registry) (k : Ranks) (id : NamespaceId) : Prop where
  members : ∀ entry ∈ (r.space id).members.entries, ∀ type ∈ memberType entry.2, k.nesting.weigh type < k.spaces id
  constructor : ∀ found ∈ r.constructorOf id, k.nesting.weighFunction found.2 < k.spaces id

structure Ranked (r : Registry) (k : Ranks) : Prop where
  nominals : ∀ id ∈ r.nominalIds, r.RankedNominal k id
  spaces : ∀ id ∈ r.namespaceIds, r.RankedSpace k id

instance (r : Registry) (k : Ranks) (id : NominalId) : Decidable (r.RankedNominal k id) :=
  decidable_of_iff (_ ∧ _ ∧ _ ∧ _ ∧ _) ⟨fun ⟨a,b,c,d,e⟩ => ⟨a,b,c,d,e⟩,fun ⟨a,b,c,d,e⟩ => ⟨a,b,c,d,e⟩⟩

instance (r : Registry) (k : Ranks) (id : NamespaceId) : Decidable (r.RankedSpace k id) :=
  decidable_of_iff (_ ∧ _) ⟨fun ⟨a,b⟩ => ⟨a,b⟩,fun ⟨a,b⟩ => ⟨a,b⟩⟩

instance (r : Registry) (k : Ranks) : Decidable (r.Ranked k) :=
  decidable_of_iff (_ ∧ _) ⟨fun ⟨a,b⟩ => ⟨a,b⟩,fun ⟨a,b⟩ => ⟨a,b⟩⟩

lemma space_of_notMem {r : Registry} (absent : id ∉ r.namespaceIds) : r.space id = {} := by
  have beyond : r.namespaces.length ≤ id.index := by
    by_contra inside
    exact absent (List.mem_map.mpr ⟨id.index,List.mem_range.mpr (by omega),rfl⟩)
  simp [space,List.getElem?_eq_none beyond]

namespace Kinded

variable {r : Registry} (kinded : r.Kinded)
include kinded

lemma superclass {id : NominalId} (extended : (r.nominal id).superclass = some s) :
    (r.nominal s.id).kind = .classType := by
  by_cases declared : id ∈ r.nominalIds
  · exact kinded.superclasses id declared s extended
  · simp [nominal_of_notMem declared] at extended

lemma class_of_supertype (mem : s ∈ r.supertypesOf i)
    (isClass : (r.nominal s.id).kind = .classType) : (r.nominal i.id).kind = .classType := by
  rcases mem_supertypesOf mem with ⟨d,inSupertypes,rfl⟩ | ⟨extends',rfl⟩
  · by_cases declared : i.id ∈ r.nominalIds
    · exact kinded.classes i.id declared d inSupertypes isClass
    · simp [nominal_of_notMem declared,Nominal.supertypes] at inSupertypes
  · simp only [extendsObject,Bool.and_eq_true,decide_eq_true_eq] at extends'
    exact extends'.1.2

lemma chainFrom_class {id : NominalId} (isClass : (r.nominal id).kind = .classType) (steps : Nat)
    (seen : List NominalId) :
    ∀ ancestor ∈ r.chainFrom steps seen id, (r.nominal ancestor).kind = .classType := by
  fun_induction chainFrom r steps seen id with
  | case1 | case2 | case3 => simpa using isClass
  | case4 seen id steps parent extended _ ih =>
    exact List.forall_mem_cons.mpr ⟨isClass,ih (kinded.superclass extended)⟩

lemma commonSuperclass_class
    (common : r.commonSuperclass a b = some ancestor) : (r.nominal ancestor).kind = .classType := by
  simp only [commonSuperclass,Bool.and_eq_true,decide_eq_true_eq] at common
  split at common
  · rename_i classes
    exact kinded.chainFrom_class classes.1 _ _ ancestor (List.mem_of_find?_eq_some common)
  · cases common

lemma enumBacking (id : EnumId) : (r.enumBacking id).Plain := by
  unfold Registry.enumBacking enumDecl
  cases found : r.enums[id.index]? with
  | none => trivial
  | some decl => exact kinded.enums decl (List.mem_of_getElem? found)

end Kinded

namespace Ranked

variable {r : Registry} {k : Ranks} (ranked : r.Ranked k)
include ranked

lemma nominal (id : NominalId) : r.RankedNominal k id := by
  by_cases declared : id ∈ r.nominalIds
  · exact ranked.nominals id declared
  · have empty := nominal_of_notMem declared
    constructor <;> simp [empty,Nominal.supertypes,extendsObject]

lemma space (id : NamespaceId) : r.RankedSpace k id := by
  by_cases declared : id ∈ r.namespaceIds
  · exact ranked.spaces id declared
  · have empty := space_of_notMem declared
    constructor <;> simp [empty,constructorOf]

lemma supertype_le (mem : s ∈ r.supertypesOf i) : k.nesting.weighInstance s ≤ k.nesting.weighInstance i ∧
      k.calling.weighInstance s ≤ k.calling.weighInstance i := by
  have own := ranked.nominal i.id
  constructor
  · exact weighInstance_supertype_le mem (fun d declared _ => (own.supertypes d declared).1)
      fun extends' => (own.object extends').1
  · exact weighInstance_supertype_le mem (fun d declared _ => (own.supertypes d declared).2)
      fun extends' => (own.object extends').2.1

lemma height_superclass_le (mem : s ∈ r.supertypesOf i) (isClass : (r.nominal s.id).kind = .classType) :
    k.height.weighInstance s ≤ k.height.weighInstance i := by
  refine weighInstance_supertype_le mem (fun d declared eq => ?_) fun extends' => ?_
  · rw [← eq] at isClass
    exact (ranked.nominal i.id).classes d declared isClass
  · exact ((ranked.nominal i.id).object extends').2.2

lemma upcast_le (found : r.upcast i tgt = some viewed) : k.nesting.weighInstance viewed ≤ k.nesting.weighInstance i ∧
      k.calling.weighInstance viewed ≤ k.calling.weighInstance i :=
  upcast_forall (P := fun j => k.nesting.weighInstance j ≤ k.nesting.weighInstance i ∧
      k.calling.weighInstance j ≤ k.calling.weighInstance i)
    (fun _ light _ mem => (ranked.supertype_le mem).imp (Nat.le_trans · light.1)
      (Nat.le_trans · light.2)) ⟨Nat.le_refl _,Nat.le_refl _⟩ found

lemma height_upcast_le (kinded : r.Kinded)
    (found : r.upcast i tgt = some viewed) (isClass : (r.nominal tgt).kind = .classType) :
    k.height.weighInstance viewed ≤ k.height.weighInstance i := by
  refine upcast_forall (P := fun j => (r.nominal j.id).kind = .classType →
    k.height.weighInstance j ≤ k.height.weighInstance i) ?_ (fun _ => Nat.le_refl _) found ?_
  · intro j light s mem classS
    have classJ := kinded.class_of_supertype mem classS
    exact Nat.le_trans (ranked.height_superclass_le mem classS) (light classJ)
  · rw [r.upcast_id found]
    exact isClass

lemma nesting_ancestry_le : ∀ j ∈ r.ancestry i, k.nesting.weighInstance j ≤ k.nesting.weighInstance i :=
  ancestry_forall (fun _ light _ mem => Nat.le_trans (ranked.supertype_le mem).1 light) (Nat.le_refl _)

lemma nesting_instanceFields_le : ∀ f ∈ r.instanceFields i, k.nesting.weigh f.type ≤ k.nesting.weighInstance i := by
  intro f mem
  obtain ⟨j,inherited,entry,declared,rfl⟩ := mem_instanceFields mem
  have := r.weigh_instantiate_le (w := k.nesting) j entry.2.type
  have := (ranked.nominal j.id).properties entry declared
  have := ranked.nesting_ancestry_le j inherited
  have := k.nesting.weighInstance_eq j
  simp only [PropertyDecl.toField,Ranks.nesting] at *
  omega

/-- An optional property of several objects is ranked below the instance. -/
lemma nesting_optional_lt : ∀ f ∈ r.instanceFields i, f.optional = true →
    1 < f.type.objects.length → k.nesting.weigh f.type < k.nesting.weighInstance i := by
  intro f mem optional several
  obtain ⟨j,inherited,entry,declared,rfl⟩ := mem_instanceFields mem
  have many : ¬entry.2.type.Single := by
    intro single
    have := single.instantiateVars (r.substitutionFor j)
    simp only [PropertyDecl.toField] at several
    omega
  have := r.weigh_instantiate_le (w := k.nesting) j entry.2.type
  have := (ranked.nominal j.id).optional entry declared optional many
  have := ranked.nesting_ancestry_le j inherited
  have := k.nesting.weighInstance_eq j
  simp only [PropertyDecl.toField,Ranks.nesting] at *
  omega

lemma nesting_namespaceFields_lt : ∀ f ∈ r.namespaceFields id, k.nesting.weigh f.type < k.spaces id := by
  intro f mem
  obtain ⟨⟨name,found⟩,inMembers,eq⟩ := List.mem_filterMap.mp mem
  have below := (ranked.space id).members _ inMembers
  cases found with
  | value decl =>
    cases eq
    exact below decl.type rfl
  | inner inner =>
    cases eq
    exact below (.namespaceValue inner) rfl
  | typedef _ => cases eq

lemma nesting_fieldsOf : ∀ f ∈ (r.fieldsOf a).1, k.nesting.weigh f.type < k.nesting.weighObject a ∨
      k.nesting.weigh f.type ≤ k.nesting.weighObject a ∧ ∃ i, a = .nominal i := by
  intro f mem
  cases a with
  | nominal i => exact .inr ⟨ranked.nesting_instanceFields_le f mem,i,rfl⟩
  | record record =>
    have light : 1 + k.nesting.weigh f.type ≤ k.nesting.weighRecord record :=
      k.nesting.weighRecord_le.mp (Nat.le_refl _) f mem
    exact .inl (by simp only [Weights.weighObject]; omega)
  | function _ => cases mem
  | namespaceValue id => exact .inl (ranked.nesting_namespaceFields_lt f mem)

end Ranked

end Registry
end GradualJs
