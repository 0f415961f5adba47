import GradualJs.Proofs.Ty.Merge
import GradualJs.Proofs.Ty.Replace

/-! Replacing variables adds at most the weight of what is put in. -/
namespace GradualJs

open Lifting List

variable {t : Ty} {mapping : Substitution} {f : FunctionType}

namespace Limits

section Plain

variable {ι : Type} {l : Limits ι}

/-- The join that knows no declarations keeps types light, level by level. -/
lemma rulesKeep_plain (keeps : ∀ cost, l.Keeps plain cost fun _ a b => (pure (join a b) : Id Ty))
    (cost : ι → Nat) : l.RulesKeep plain cost fun _ => Ty.plainRules join := by
  refine ⟨fun further _ => keeps further,?_,?_,?_⟩
  · intro further _ a b lightA lightB
    refine plain.value ?_
    split
    · exact lightA
    · exact light_unknown.mpr lightA.affords
  · intro x y lightX lightY
    exact plain.value (by simp)
  · intro u light
    exact plain.value (List.Subset.refl _)

lemma keeps_mergeWithin (levels : Nat) (cost : ι → Nat) :
    l.Keeps plain cost fun _ a b => (pure (Ty.mergeWithin levels a b) : Id Ty) := by
  induction levels generalizing cost with
  | zero =>
    intro a b lightA lightB
    exact light_unknown.mpr lightA.affords
  | succ levels ih => exact keeps_joinStep (rulesKeep_plain ih cost)

end Plain

variable {ι I : Type} {m : Type → Type} [Monad m] (l : Limits ι) (L : Lifting I m)

structure MergerKeeps (merger : I → Merger m) : Prop where
  join : ∀ cost, l.Keeps L cost fun i => (merger i).join
  normalize : ∀ cost objects, (∀ o ∈ objects, l.LightObject (l.inUnion cost) o) →
    L.Holds (fun merged => ∀ o ∈ merged, l.LightObject (l.inUnion cost) o) fun i => (merger i).normalize objects

lemma mergerKeeps_plain : l.MergerKeeps plain fun _ => Merger.plain where
  join cost a b lightA lightB := keeps_mergeWithin _ cost a b lightA lightB
  normalize cost _ := holds_normalizeObjects fun _ _ =>
    holds_combine (rulesKeep_plain (keeps_mergeWithin _) cost)

/-- What is put in weighs no more than `spare`. -/
def Spares (spare : ι → Nat) (mapping : Substitution) : Prop :=
  ∀ t ∈ mapping.values, ∀ k, (l.weights k).weigh t ≤ spare k

/-- The cost of a place with room left for what is put in there. -/
def withSpare (cost spare : ι → Nat) : ι → Nat := fun k => cost k + spare k

end Limits

namespace Limits

variable {ι I : Type} {m : Type → Type} [Monad m] [LawfulMonad m] {l : Limits ι} {L : Lifting I m}
  {mapping : Substitution}

lemma inUnion_withSpare : l.inUnion (withSpare cost spare) = withSpare (l.inUnion cost) spare := by
  funext k
  exact Nat.add_right_comm _ _ _

lemma inInstance_withSpare (id : NominalId) :
    l.inInstance (withSpare cost spare) id = withSpare (l.inInstance cost id) spare := by
  funext k
  exact Nat.add_right_comm _ _ _

lemma inRecord_withSpare : l.inRecord (withSpare cost spare) = withSpare (l.inRecord cost) spare := by
  funext k
  exact Nat.add_right_comm _ _ _

lemma inFunction_withSpare : l.inFunction (withSpare cost spare) = withSpare (l.inFunction cost) spare := by
  funext k
  exact Nat.add_right_comm _ _ _

lemma Affords.of_withSpare (affords : l.Affords (withSpare cost spare)) : l.Affords cost :=
  fun k => Nat.le_trans (Nat.le_add_right _ _) (affords k)

lemma Spares.light (spares : l.Spares spare mapping) (mem : t ∈ mapping.values)
    (affords : l.Affords (withSpare cost spare)) : l.Light cost t :=
  fun k => Nat.le_trans (Nat.add_le_add_left (spares t mem k) _) (affords k)

def replacing (keep : l.MergerKeeps L merger) (spare : ι → Nat) : Replacing L merger (ι → Nat) where
  before cost := l.Light (withSpare cost spare)
  after := l.Light
  beforeObject cost := l.LightObject (withSpare cost spare)
  afterObject := l.LightObject
  put := l.Spares spare
  filtered _ spares t mem := spares t (Table.values_filterKeys_subset _ _ mem)
  bottom light := light_bottom.mpr light.affords.of_withSpare
  top light := light_top.mpr light.affords.of_withSpare
  unknown light := light_unknown.mpr light.affords.of_withSpare
  inUnion := l.inUnion
  objects light := inUnion_withSpare ▸ (light_union.mp light).2
  plain {cost u mapping} spares light := by
    have affords := (light_union.mp light).1
    refine L.foldlM (light_ofUnion affords.of_withSpare (by simp)) fun t mem start lightStart => ?_
    obtain ⟨name,-,found⟩ := mem_filterMap.mp mem
    exact keep.join cost start t lightStart (spares.light (Table.mem_values_of_get? found) affords)
  joined {cost start objects} light parts :=
    L.sequence (keep.normalize cost objects parts) fun merged lightMerged =>
      keep.join cost start _ light (light_ofUnion light.affords lightMerged)
  inInstance id cost := l.inInstance cost id
  args light := inInstance_withSpare _ ▸ (lightObject_nominal.mp light).2
  nominal light args := by
    have affords := inInstance_withSpare _ ▸ (lightObject_nominal.mp light).1
    exact lightObject_nominal.mpr ⟨affords.of_withSpare,args⟩
  inRecord := l.inRecord
  fields light := inRecord_withSpare ▸ (lightObject_record.mp light).2
  record light fields := lightObject_record.mpr ⟨(lightObject_record.mp light).1.of_withSpare,fields⟩
  inFunction := l.inFunction
  types light := inFunction_withSpare ▸ lightObject_function.mp light
  function := lightObject_function.mpr
  space light k := Nat.le_trans (Nat.add_le_add_right (Nat.le_add_right _ _) _) (light k)

end Limits

namespace Weights

variable (w : Weights)

def limits (bound : Nat) : Limits Unit := ⟨fun _ => w,fun _ => bound⟩

lemma weigh_substitutePlain_le (t : Ty) (spares : ∀ value ∈ mapping.values, w.weigh value ≤ spare) :
    w.weigh (t.substitutePlain mapping) ≤ w.weigh t + spare := by
  have light : (w.limits (w.weigh t + spare)).Light (Limits.withSpare (fun _ => 0) fun _ => spare) t := by
    intro _
    simp [Limits.withSpare,limits,Nat.add_comm]
  have replaced := (Limits.replacing (Limits.mergerKeeps_plain _) fun _ => spare).substitute
    (fun value mem _ => spares value mem) t light
  have bounded := replaced ()
  simp only [limits,Nat.zero_add] at bounded
  exact bounded

lemma weigh_instantiateVars_le (t : Ty) (spares : ∀ value ∈ mapping.values, w.weigh value ≤ spare) :
    w.weigh (t.instantiateVars mapping) ≤ w.weigh t + spare := by
  unfold Ty.instantiateVars
  split
  · exact Nat.le_add_right _ _
  · exact w.weigh_substitutePlain_le t spares

end Weights

namespace FunctionType

def erasure (f : FunctionType) : Substitution := .ofList (f.typeParams.map fun name => (name,.unknown))

lemma erasure_values (mem : t ∈ f.erasure.values) : t = .unknown := by
  obtain ⟨entry,inEntries,rfl⟩ := mem_map.mp mem
  obtain ⟨name,-,rfl⟩ := mem_map.mp (Table.mem_of_mem_ofList inEntries)
  rfl

lemma types_mapTypes (f : FunctionType) (apply : Ty → Ty) :
    (f.mapTypes fun t => (pure (apply t) : Id Ty)).run.types = f.types.map apply := by
  obtain ⟨required,optional,rest,returnType,receiver,constructs,typeParams,loose⟩ := f
  cases rest <;> cases receiver <;> cases constructs <;> simp [mapTypes,types]

lemma eraseTypeParams_types (mem : t ∈ f.eraseTypeParams.types) :
    t ∈ f.types ∨ ∃ original ∈ f.types, original.substitutePlain f.erasure = t := by
  unfold eraseTypeParams at mem
  split at mem
  · exact .inl mem
  · refine .inr (mem_map.mp ?_)
    rw [← types_mapTypes]
    exact mem

end FunctionType

namespace Weights

variable (w : Weights)

lemma weighFunction_eraseTypeParams_le (f : FunctionType) : w.weighFunction f.eraseTypeParams ≤ w.weighFunction f := by
  have parts := w.weighFunction_le.mp (Nat.le_refl (w.weighFunction f))
  refine w.weighFunction_le.mpr fun t mem => ?_
  rcases FunctionType.eraseTypeParams_types mem with eq | ⟨original,inTypes,rfl⟩
  · exact parts t eq
  · have unknown : ∀ value ∈ f.erasure.values, w.weigh value ≤ 0 := by
      intro value found
      simp [FunctionType.erasure_values found,weigh]
    have := w.weigh_substitutePlain_le original unknown
    have := parts original inTypes
    omega

end Weights

namespace Ty

/-- Joining the type with a primitive value leaves its objects alone, also after variables
are replaced. -/
def Single : Ty → Prop
  | .union u => u.vars = [] ∧ u.objects.length ≤ 1
  | _ => True

instance (t : Ty) : Decidable t.Single :=
  match t with
  | .union u => inferInstanceAs (Decidable (u.vars = [] ∧ u.objects.length ≤ 1))
  | .bottom | .top | .unknown => inferInstanceAs (Decidable True)

lemma merge_few {a b : Ty} (few : (a.objects ++ b.objects).length ≤ 1) : (a.merge b).objects.length ≤ 1 := by
  have merged : (a.merge b).objects.Sublist (a.objects ++ b.objects) :=
    joinStep_few (L := plain) few fun u => plain.value rfl
  exact Nat.le_trans merged.length_le few

lemma ofUnion_objects_sublist (u : Union) : (ofUnion u).objects.Sublist u.objects := by
  unfold ofUnion
  split
  · exact nil_sublist _
  · exact List.Sublist.refl _

lemma substituteObjects_length (mapping : Substitution) (objects : List Obj) :
    (Merger.plain.substituteObjects mapping objects).run.length = objects.length := by
  induction objects with
  | nil => rfl
  | cons o rest ih => simpa [Merger.substituteObjects] using ih

lemma substitutePlain_novars (mapping : Substitution) (primitives : PrimitiveSet)
    (enums : List EnumId) (objects : List Obj) :
    (Ty.union {primitives, enums, objects}).substitutePlain mapping =
      let replaced := (Merger.plain.substituteObjects mapping objects).run
      if replaced.isEmpty then .ofUnion {primitives, enums}
      else (Ty.ofUnion {primitives, enums}).merge (.ofUnion {objects := normalizePlain replaced}) :=
  rfl

lemma Single.instantiateVars (single : t.Single) (mapping : Substitution) :
    (t.instantiateVars mapping).objects.length ≤ 1 := by
  unfold Ty.instantiateVars
  cases t with
  | bottom | top | unknown => split <;> exact Nat.zero_le _
  | union u =>
    obtain ⟨primitives,enums,vars,objects⟩ := u
    obtain ⟨rfl,few⟩ := single
    replace few : objects.length ≤ 1 := few
    split
    · exact few
    · have length := substituteObjects_length mapping objects
      have plain : (Ty.ofUnion {primitives, enums}).objects = [] :=
        sublist_nil.mp (ofUnion_objects_sublist {primitives, enums})
      rw [substitutePlain_novars]
      dsimp only
      split
      · simp [plain]
      · refine merge_few ?_
        have normal : normalizePlain (Merger.plain.substituteObjects mapping objects).run =
            (Merger.plain.substituteObjects mapping objects).run :=
          normalizeObjects_few _ (length ▸ few)
        have shorter := (ofUnion_objects_sublist
          {objects := (Merger.plain.substituteObjects mapping objects).run}).length_le
        rw [plain,normal,nil_append]
        exact Nat.le_trans shorter (length ▸ few)

end Ty
end GradualJs
