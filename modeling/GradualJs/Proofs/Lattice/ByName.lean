import GradualJs.Proofs.Registry.Bare
import GradualJs.Proofs.Subtyping.Ending
import GradualJs.Proofs.Ty.Normalize

/-! Types that are compared by name: no record types, no object types with properties and no
namespaces. Two registries that differ only in what is in types give the same answers about them. -/
namespace GradualJs

open Weights Lifting Relations Registry List Survey

variable {t a b done : Ty} {i : Instance} {types : List Ty}

/-- Counts what may be looked into: properties of object types, namespaces, and instances of
types other than the named ones. -/
def Weights.looked (named : NominalId → Bool) : Weights where
  nominal id := if named id then 0 else 1
  space _ := 1
  record := 1

/-- Nothing in the type may be looked into. -/
def Ty.byName (named : NominalId → Bool) (t : Ty) : Bool := (looked named).weigh t = 0

lemma Ty.Plain.objects_nil (plain : t.Plain) : t.objects = [] := by
  cases t with
  | union u => exact plain.2
  | bottom | top | unknown => rfl

lemma Ty.byName_of_objects (none : t.objects = []) : t.byName named = true := by
  have light := weigh_le_of_objects (w := .looked named) (b := .bottom) (none ▸ nil_subset _)
  exact decide_eq_true (Nat.le_zero.mp light)

/-- No two objects of the types are of one kind, or all types are compared by name. -/
def Ty.mergeable (named : NominalId → Bool) (types : List Ty) : Bool :=
  ((types.flatMap Ty.objects).map Obj.sort).Nodup || types.all (Ty.byName named)

namespace Registry

/-- The types are compared by name, and so are their supertypes. -/
structure ByName (r : Registry) (named : NominalId → Bool) : Prop where
  object : named .object = true
  kinds : ∀ id, named id = true → (r.nominal id).kind ≠ .record
  supertypes : ∀ id, named id = true → ∀ s ∈ (r.nominal id).supertypes, (looked named).weighInstance s = 0

variable {r other : Registry}

lemma ByName.of_bare (closed : r.ByName named) (eq : r.bare = other.bare) : other.ByName named where
  object := closed.object
  kinds id named := by
    rw [← kind_of_bare eq]
    exact closed.kinds id named
  supertypes id named s mem := by
    refine closed.supertypes id named s ?_
    rw [← Nominal.supertypes_bare,nominal_of_bare eq]
    exact mem

/-- Whether declarations are of the kinds that they are used as does not depend on what is in
types. -/
lemma Kinded.of_bare (kinded : r.Kinded) (eq : r.bare = other.bare) : other.Kinded := by
  have count : other.nominals.length = r.nominals.length := by
    simpa [bare] using congrArg (fun r : Registry => r.nominals.length) eq.symm
  have ids : other.nominalIds = r.nominalIds := by rw [nominalIds,count,nominalIds]
  have supertypes (id : NominalId) : (other.nominal id).supertypes = (r.nominal id).supertypes := by
    rw [← Nominal.supertypes_bare,← nominal_of_bare eq,Nominal.supertypes_bare]
  have superclass (id : NominalId) : (other.nominal id).superclass = (r.nominal id).superclass := by
    simpa [Nominal.bare] using congrArg Nominal.superclass (nominal_of_bare eq id).symm
  refine ⟨?_,?_,?_⟩
  · simpa only [ids,superclass,← kind_of_bare eq] using kinded.superclasses
  · simpa only [ids,supertypes,← kind_of_bare eq] using kinded.classes
  · have enums : other.enums = r.enums := by simpa [bare] using congrArg Registry.enums eq.symm
    rw [enums]
    exact kinded.enums

lemma named_of_light (light : (looked named).weighInstance i = 0) : named i.id = true := by
  have own := ((looked named).weighInstance_le.mp (Nat.le_of_eq light)).1
  by_contra unnamed
  simp [looked,unnamed] at own

lemma fields_of_light {x : Record} (light : (looked named).weighRecord x = 0) : x.fields = [] := by
  refine eq_nil_iff_forall_not_mem.mpr fun f mem => ?_
  have less : 1 + _ ≤ 0 := (looked named).weighRecord_le.mp (Nat.le_of_eq light) f mem
  omega

namespace ByName

variable (closed : r.ByName named)
include closed

lemma upcast_light (found : r.upcast i tgt = some viewed) (light : (looked named).weighInstance i = 0) :
    (looked named).weighInstance viewed = 0 := by
  refine upcast_forall (P := fun i => (looked named).weighInstance i = 0) (fun i light s mem => ?_) light found
  have own := named_of_light light
  have lighter : (looked named).weighInstance s ≤ (looked named).weighInstance i := by
    refine weighInstance_supertype_le mem (fun d declared _ => ?_) fun _ => ?_
    · rw [closed.supertypes i.id own d declared]
      exact Nat.zero_le _
    · simp [looked,closed.object]
  omega

lemma instanceSubtype_of_bare (eq : r.bare = other.bare) (below : Relations) (lax : Bool)
    (src : Instance) (light : (looked named).weighInstance tgt = 0) :
    instanceSubtype r below lax src tgt = instanceSubtype other below lax src tgt := by
  have kind := closed.kinds tgt.id (named_of_light light)
  unfold instanceSubtype
  rw [upcast_of_bare eq,← kind_of_bare eq,if_pos kind]
  split
  · rfl
  · rw [if_pos kind]

end ByName

section Lists

variable {α : Type} {ask' : α → Query Bool} {list : List α}

lemma allM_congr (eq : ∀ a ∈ list, ask a = ask' a) : list.allM ask = list.allM ask' := by
  induction list with
  | nil => rfl
  | cons a rest ih =>
    obtain ⟨first,others⟩ := forall_mem_cons.mp eq
    rw [Query.allM_cons,Query.allM_cons,first,ih others]

lemma anyM_congr (eq : ∀ a ∈ list, ask a = ask' a) : list.anyM ask = list.anyM ask' := by
  induction list with
  | nil => rfl
  | cons a rest ih =>
    obtain ⟨first,others⟩ := forall_mem_cons.mp eq
    rw [Query.anyM_cons,Query.anyM_cons,first,ih others]

end Lists

lemma structural_loose (below : Relations) (lax : Bool) (tgt : List Field)
    (targetLoose : Bool) : below.structural lax [] true tgt targetLoose = pure true := by
  unfold structural
  induction tgt with
  | nil => rfl
  | cons wanted rest ih =>
    rw [Query.allM_cons,ih]
    simp [Field.find?]

lemma ByName.objectSubtype_of_bare (closed : r.ByName named) (eq : r.bare = other.bare)
    (below : Relations) (lax : Bool) {a b : Obj} (lightA : (looked named).weighObject a = 0)
    (lightB : (looked named).weighObject b = 0) : objectSubtype r below lax a b =
      objectSubtype other below lax a b := by
  cases b with
  | nominal tgt =>
    cases a with
    | nominal src =>
      simp only [objectSubtype,closed.instanceSubtype_of_bare eq below lax src lightB]
    | record src =>
      have kind := closed.kinds tgt.id (named_of_light lightB)
      have none := fields_of_light lightA
      simp only [objectSubtype,← kind_of_bare eq,kind,decide_false,Bool.false_or, structuralToNominal,fieldsOf,none]
      split
      · rfl
      · cases src.loose with
        | true => simp [structural_loose]
        | false => rfl
    | function _ => rfl
    | namespaceValue _ => cases lightA
  | record tgt =>
    have none := fields_of_light lightB
    cases a with
    | nominal _ => simp [objectSubtype,structural,none]
    | record _ | function _ => rfl
    | namespaceValue _ => cases lightA
  | function _ =>
    cases a with
    | namespaceValue _ => cases lightA
    | nominal _ | record _ | function _ => rfl
  | namespaceValue _ => cases lightB

lemma objects_light (light : t.byName named = true) : ∀ o ∈ t.objects, (looked named).weighObject o = 0 := by
  cases t with
  | union u =>
    intro o mem
    have below := (looked named).weigh_union_le.mp (Nat.le_of_eq (of_decide_eq_true light)) o mem
    omega
  | bottom | top | unknown => simp [Ty.objects]

lemma ByName.subtypeStep_of_bare (closed : r.ByName named) (eq : r.bare = other.bare)
    (below : Relations) (lax : Bool) (lightA : a.byName named = true) (lightB : b.byName named = true) :
    subtypeStep r below lax a b = subtypeStep other below lax a b := by
  cases a with
  | bottom => rfl
  | top | unknown => cases b <;> rfl
  | union u =>
    cases b with
    | bottom | top | unknown => rfl
    | union v =>
      have objects : (u.objects.allM fun a => v.objects.anyM fun b =>
          objectSubtype r below lax a b) =
          u.objects.allM fun a => v.objects.anyM fun b =>
            objectSubtype other below lax a b :=
        allM_congr fun a inU => anyM_congr fun b inV =>
          closed.objectSubtype_of_bare eq below lax (objects_light lightA a inU) (objects_light lightB b inV)
      simp only [subtypeStep,subtypeUnions,objects,enumBacking_of_bare eq]

end Registry

namespace Relations

def nameLimits (named : NominalId → Bool) : Limits Unit := ⟨fun _ => .looked named,fun _ => 0⟩

lemma light_iff : (nameLimits named).Light (fun _ => 0) t ↔ t.byName named = true := by
  simp [Limits.Light,nameLimits,Ty.byName]

lemma lightObject_iff : (nameLimits named).LightObject
    ((nameLimits named).inUnion fun _ => 0) o ↔ (looked named).weighObject o = 0 := by
  simp [Limits.LightObject,Limits.inUnion,nameLimits,looked]

/-- Whatever the first relations answer about types that are compared by name, the second
answer too. -/
structure Agree (named : NominalId → Bool) (level : Bool → Relations) : Prop where
  subtype : ∀ lax a b, a.byName named = true → b.byName named = true →
    Answered .keeps [] fun i => (level i).subtype lax a b
  join : (nameLimits named).Keeps .keeps (fun _ => 0) fun i => (level i).join
  meet : ∀ lax, (nameLimits named).Keeps .keeps (fun _ => 0) fun i => (level i).meet lax

namespace Agree

variable {r : Bool → Registry} {below : Bool → Relations} (agree : Agree named below)

include agree

lemma isSubtype {lax : Bool} (lightA : a.byName named = true) (lightB : b.byName named = true) :
    keeps.Holds (fun _ => True) fun i => (below i).isSubtype lax a b :=
  keeps.map (agree.subtype lax a b lightA lightB [] (Subset.refl _)) fun _ _ => trivial

lemma asksType (lax : Bool) (lightA : (looked named).weigh a = 0)
    (lightB : (looked named).weigh b = 0) : (plain .keeps below lax).AsksType [] a b :=
  asksType_plain (agree.subtype lax a b (by simp [Ty.byName,lightA]) (by simp [Ty.byName,lightB]))

lemma asksInstance {r : Registry} (closed : r.ByName named) (lax : Bool)
    (lightX : (looked named).weighInstance x = 0) (lightY : (looked named).weighInstance y = 0) :
    (plain .keeps below lax).AsksInstance r [] x y := by
  have args {i : Instance} (light : (looked named).weighInstance i = 0) {t : Ty}
      (mem : t = .unknown ∨ t ∈ i.args) : (looked named).weigh t = 0 := by
    rcases mem with rfl | inArgs
    · rfl
    · have := ((looked named).weighInstance_le.mp (Nat.le_of_eq light)).2 t inArgs
      omega
  unfold AsksInstance
  split
  · rename_i viewed found
    intro pair mem
    obtain ⟨first,second⟩ := padArgs_mem mem
    exact agree.asksType lax (args (closed.upcast_light found lightX) first) (args lightY second)
  · intro record
    exact absurd record (closed.kinds y.id (named_of_light lightY))

lemma asksObject {r : Registry} (closed : r.ByName named) (lax : Bool) {a b : Obj}
    (lightA : (looked named).weighObject a = 0) (lightB : (looked named).weighObject b = 0) :
    (plain .keeps below lax).AsksObject r [] a b := by
  have erased {f : FunctionType} (light : (looked named).weighFunction f = 0) {t : Ty}
      (mem : t ∈ f.eraseTypeParams.types) : (looked named).weigh t = 0 := by
    have := weigh_erased_le (w := .looked named) mem
    omega
  cases b with
  | nominal tgt =>
    cases a with
    | nominal src => exact agree.asksInstance closed lax lightA lightB
    | record src =>
      intro wanted _ found missing
      simp [fieldsOf,fields_of_light lightA,Field.find?] at missing
    | function _ => trivial
    | namespaceValue _ => cases lightA
  | record tgt =>
    have none := fields_of_light lightB
    cases a <;> (intro wanted mem; simp [none] at mem)
  | function g =>
    cases a with
    | function f =>
      intro s inF t inG
      exact ⟨agree.asksType lax (erased lightA inF) (erased lightB inG),
        agree.asksType lax (erased lightB inG) (erased lightA inF)⟩
    | nominal _ | record _ => trivial
    | namespaceValue _ => cases lightA
  | namespaceValue _ => cases lightB

section Level

variable (shared : ∀ i, (r false).bare = (r i).bare) (closed : (r false).ByName named)
  (plain : ∀ id, ((r false).enumBacking id).Plain)
include shared closed plain

lemma level : LevelKeeps (nameLimits named) .keeps r below fun _ => 0 := by
  have only {further : Unit → Nat} {t : Ty} (light : (nameLimits named).Light further t) : further = fun _ => 0 := by
    funext k
    have : further k + _ ≤ 0 := light k
    omega
  refine ⟨fun further _ a b lightA lightB => ?_,fun lax further _ a b lightA lightB => ?_,
    fun x y lightX lightY assumed => ?_,fun lax a b lightA lightB assumed => ?_,
    fun id t light => ?_,fun lax id t light => ?_,fun x y lightX lightY => ?_⟩
  · cases only lightA
    exact agree.join a b lightA lightB
  · cases only lightA
    exact agree.meet lax a b lightA lightB
  · rw [lightObject_iff] at lightX lightY
    simp only [← closed.instanceSubtype_of_bare (shared _) _ false x lightY]
    have asks := asks_instance (agree.asksInstance closed false lightX lightY)
    exact keeps.mono (asks assumed (nil_subset _)) fun _ _ => trivial
  · rw [lightObject_iff] at lightA lightB
    simp only [← closed.objectSubtype_of_bare (shared _) _ lax lightA lightB]
    have asks := asks_object (agree.asksObject closed lax lightA lightB)
    exact keeps.mono (asks assumed (nil_subset _)) fun _ _ => trivial
  · simp only [← enumBacking_of_bare (shared _)]
    exact agree.isSubtype (Ty.byName_of_objects (plain id).objects_nil) (light_iff.mp light)
  · exact agree.isSubtype (Ty.byName_of_objects rfl) (light_iff.mp light)
  · rw [lightObject_iff] at lightX lightY
    refine ⟨(r false).commonViews x y,fun i => ?_,fun left right views => ?_⟩
    · rw [commonViews_of_bare (shared i)]
    · obtain ⟨ancestor,-,viewX,viewY⟩ := commonViews_eq_some.mp views
      rw [lightObject_iff,lightObject_iff]
      exact ⟨by rw [upcast_id viewX,upcast_id viewY], closed.upcast_light viewX lightX,closed.upcast_light viewY lightY⟩

lemma answered_step (lax : Bool) (lightA : a.byName named = true) (lightB : b.byName named = true) :
    Survey.Answered .keeps [] fun i => subtypeStep (r i) (below i) lax a b := by
  simp only [← closed.subtypeStep_of_bare (shared _) _ lax lightA lightB]
  have parts (u v : Union) (isU : a = .union u) (isV : b = .union v) :
      (Survey.plain .keeps below lax).AsksUnion (r false) [] u v := by
    subst isU isV
    refine ⟨fun id _ _ => ?_,fun x inU y inV => ?_⟩
    · exact agree.asksType lax
        (of_decide_eq_true (Ty.byName_of_objects (plain id).objects_nil)) (of_decide_eq_true lightB)
    · exact agree.asksObject closed lax (objects_light lightA x inU) (objects_light lightB y inV)
  exact (Survey.asks_step parts).answered

lemma step : Agree named fun i => step (r i) fun _ => below i where
  subtype lax _ _ lightA lightB := agree.answered_step shared closed plain lax lightA lightB
  join := (agree.level shared closed plain).keeps_join
  meet := (agree.level shared closed plain).keeps_meet

end Level

end Agree

lemma subtypeStep_of_plain (r other : Registry) (below below' : Relations) (lax : Bool) (b : Ty) (plain : a.Plain) :
    subtypeStep r below lax a b = subtypeStep other below' lax a b := by
  cases a with
  | bottom => rfl
  | top | unknown => cases b <;> rfl
  | union u =>
    cases b with
    | bottom | top | unknown => rfl
    | union v => simp [subtypeStep,subtypeUnions,plain.1,plain.2]

section Within

variable {r : Bool → Registry} (shared : ∀ i, (r false).bare = (r i).bare)
  (plain : ∀ id, ((r false).enumBacking id).Plain)
include shared plain

/-- Registries that differ only in what is in types agree on types that are compared by name. -/
lemma agree_within (closed : (r false).ByName named) (depth : Nat) : Agree named fun i => within (r i) depth := by
  induction depth with
  | zero => exact ⟨fun _ _ _ _ _ _ _ => nofun,fun _ _ _ _ => nofun,fun _ _ _ _ _ => nofun⟩
  | succ depth ih => exact ih.step shared closed plain

lemma keeps_absorbEnums (depth : Nat) (u : Union) : keeps.Holds (fun settled => settled.objects = u.objects)
      fun i => absorbEnums (r i) (within (r i) depth) u := by
  have covered (id : EnumId) (rest : Ty) : keeps.Holds (fun _ => True)
      fun i => (within (r i) depth).isSubtype false ((r i).enumBacking id) rest := by
    have eq (i : Bool) : (within (r i) depth).subtype false ((r i).enumBacking id) rest =
        (within (r false) depth).subtype false ((r false).enumBacking id) rest := by
      rw [← enumBacking_of_bare (shared i)]
      cases depth with
      | zero => rfl
      | succ depth => exact subtypeStep_of_plain _ _ _ _ false rest (plain id)
    simp only [isSubtype,eq]
    exact fun ans ended => ⟨ended,trivial⟩
  unfold absorbEnums
  dsimp only
  split
  · exact keeps.value rfl
  · refine keeps.sequence (keeps.filterM (q := fun _ _ => True) fun id _ => ?_) fun enums _ => keeps.value rfl
    exact keeps.sequence (covered id _) fun _ _ => keeps.value trivial

lemma keeps_join_apart (depth : Nat) (apart : ((a.objects ++ b.objects).map Obj.sort).Nodup) :
    keeps.Holds (fun t => t.objects.Subperm (a.objects ++ b.objects)) fun i => (within (r i) depth).join a b := by
  cases depth with
  | zero => exact fun _ => nofun
  | succ depth =>
    have settle := keeps_absorbEnums shared plain depth
    have joined : keeps.Holds (fun t => t.objects.Subperm (a.objects ++ b.objects))
        fun i => (mergeRules (r i) (within (r i) depth)).joinStep a b :=
      MergeRules.joinStep_apart apart settle
    exact joined

lemma keeps_joinAll_apart (depth : Nat)
    (apart : ((done.objects ++ types.flatMap Ty.objects).map Obj.sort).Nodup) : keeps.Holds (fun _ => True)
      fun i => types.foldlM (within (r i) depth).join done := by
  induction types generalizing done with
  | nil => exact keeps.value trivial
  | cons t rest ih =>
    simp only [foldlM_cons]
    rw [flatMap_cons,← append_assoc,map_append] at apart
    refine keeps.sequence (keeps_join_apart shared plain depth (nodup_append.mp apart).1) fun joined fewer => ih ?_
    obtain ⟨kept,eq,sublist⟩ := fewer
    rw [map_append]
    have distinct := ((sublist.map Obj.sort).append_right _).nodup apart
    exact ((eq.map Obj.sort).append_right _).nodup_iff.mp distinct

lemma keeps_joinAll_light (closed : (r false).ByName named) (depth : Nat)
    (light : ∀ t ∈ done :: types, t.byName named = true) : keeps.Holds (fun _ => True)
      fun i => types.foldlM (within (r i) depth).join done := by
  have joins := (agree_within shared plain closed depth).join
  induction types generalizing done with
  | nil => exact keeps.value trivial
  | cons t rest ih =>
    simp only [foldlM_cons]
    simp only [forall_mem_cons,← light_iff] at light
    refine keeps.sequence (joins done t light.1 light.2.1) fun joined lightJoined => ih ?_
    simp only [forall_mem_cons,← light_iff]
    exact ⟨lightJoined,light.2.2⟩

lemma keeps_joinAll (closed : (r false).ByName named) (depth : Nat)
    (mergeable : Ty.mergeable named types = true) : keeps.Holds (fun _ => True)
      fun i => types.foldlM (within (r i) depth).join .bottom := by
  simp only [Ty.mergeable,Bool.or_eq_true,decide_eq_true_eq,all_eq_true] at mergeable
  rcases mergeable with apart | light
  · exact keeps_joinAll_apart shared plain depth apart
  · exact keeps_joinAll_light shared plain closed depth (forall_mem_cons.mpr ⟨Ty.byName_of_objects rfl,light⟩)

lemma keeps_join (closed : (r false).ByName named) (depth : Nat)
    (mergeable : Ty.mergeable named [a] = true) (none : b.objects = []) :
    keeps.Holds (fun _ => True) fun i => (within (r i) depth).join a b := by
  simp only [Ty.mergeable,Bool.or_eq_true,decide_eq_true_eq,all_cons,all_nil,
    Bool.and_true,flatMap_cons,flatMap_nil,append_nil] at mergeable
  rcases mergeable with apart | light
  · exact keeps.mono (keeps_join_apart shared plain depth (by simpa [none] using apart)) fun _ _ => trivial
  · exact keeps.mono ((agree_within shared plain closed depth).join a b
      (light_iff.mpr light) (light_iff.mpr (Ty.byName_of_objects none))) fun _ _ => trivial

end Within

end Relations
end GradualJs
