import GradualJs.Proofs.Ty.Substitute
import GradualJs.Registry.Ancestry

/-! What an instance inherits weighs no more than the instance, if each declaration is
ranked above what it mentions. -/
namespace GradualJs.Registry

open List

variable {P : Instance → Prop} {i viewed s : Instance}

/-- What holds of the start and goes over to what is reached, holds of every visit. -/
lemma visit_forall {α : Type} {key : α → NominalId} {expand : α → List α} {P : α → Prop}
    (step : ∀ a, P a → ∀ b ∈ expand a, P b) (steps : Nat) (seen : List NominalId) (queue : List α)
    (start : ∀ a ∈ queue, P a) : ∀ a ∈ visit key expand steps seen queue, P a := by
  fun_induction visit key expand steps seen queue with
  | case1 | case2 => simp
  | case3 steps seen a queue present ih => exact ih fun b mem => start b (by simp [mem])
  | case4 steps seen a queue absent ih =>
    obtain ⟨first,others⟩ := forall_mem_cons.mp start
    refine forall_mem_cons.mpr ⟨first,ih fun b mem => ?_⟩
    rcases mem_append.mp mem with inQueue | inExpanded
    · exact others b inQueue
    · exact step a first b inExpanded

variable {r : Registry} {w : Weights}

lemma ancestry_forall (step : ∀ i, P i → ∀ s ∈ r.supertypesOf i, P s) (start : P i) : ∀ j ∈ r.ancestry i, P j :=
  visit_forall step _ _ _ (by simpa using start)

lemma upcast_forall (step : ∀ i, P i → ∀ s ∈ r.supertypesOf i, P s) (start : P i)
    (found : r.upcast i tgt = some viewed) : P viewed := by
  unfold upcast at found
  split at found
  · cases found
    exact start
  · exact ancestry_forall step start viewed (mem_of_find?_eq_some found)

lemma upcast_id (found : r.upcast i tgt = some viewed) : viewed.id = tgt := by
  unfold upcast at found
  split at found
  · rename_i eq
    cases found
    exact eq
  · simpa using find?_some found

lemma substitutionFor_values : ∀ t ∈ (r.substitutionFor i).values, w.weigh t ≤ w.weighList i.args := by
  intro t mem
  obtain ⟨entry,inEntries,rfl⟩ := mem_map.mp mem
  obtain ⟨⟨name,index⟩,-,rfl⟩ := mem_map.mp (Table.mem_of_mem_ofList inEntries)
  cases found : i.args[index]? with
  | none => simp [found,Weights.weigh]
  | some arg =>
    simp only [found,Option.getD_some]
    exact w.weighList_le.mp (Nat.le_refl _) arg (mem_of_getElem? found)

lemma weigh_instantiate_le (i : Instance) (t : Ty) :
    w.weigh (t.instantiateVars (r.substitutionFor i)) ≤ w.weigh t + w.weighList i.args :=
  w.weigh_instantiateVars_le t substitutionFor_values

lemma weighInstance_instantiate_le (i s : Instance) :
    w.weighInstance ⟨s.id,s.args.map (·.instantiateVars (r.substitutionFor i))⟩ ≤
      w.weighInstance s + w.weighList i.args := by
  obtain ⟨own,args⟩ := w.weighInstance_le.mp (Nat.le_refl (w.weighInstance s))
  refine w.weighInstance_le.mpr ⟨Nat.le_trans own (Nat.le_add_right _ _),fun a mem => ?_⟩
  dsimp only
  obtain ⟨arg,inArgs,rfl⟩ := mem_map.mp mem
  have := args arg inArgs
  have := r.weigh_instantiate_le (w := w) i arg
  omega

lemma mem_supertypesOf (mem : s ∈ r.supertypesOf i) : (∃ d ∈ (r.nominal i.id).supertypes,
      s = ⟨d.id,d.args.map (·.instantiateVars (r.substitutionFor i))⟩) ∨
    r.extendsObject i.id ∧ s = objectInstance := by
  have explicit : s ∈ (r.nominal i.id).supertypes.map (fun d =>
      (⟨d.id,d.args.map (·.instantiateVars (r.substitutionFor i))⟩ : Instance)) →
      ∃ d ∈ (r.nominal i.id).supertypes, s = ⟨d.id,d.args.map (·.instantiateVars (r.substitutionFor i))⟩ := by
    intro inExplicit
    obtain ⟨d,declared,eq⟩ := mem_map.mp inExplicit
    exact ⟨d,declared,eq.symm⟩
  unfold supertypesOf at mem
  dsimp only at mem
  split at mem
  · rename_i extends'
    rcases mem_append.mp mem with inExplicit | isObject
    · exact .inl (explicit inExplicit)
    · exact .inr ⟨extends',mem_singleton.mp isObject⟩
  · exact .inl (explicit mem)

/-- A supertype with the arguments put in weighs no more than the instance, if the
supertypes as they are declared weigh no more than the type. -/
lemma weighInstance_supertype_le (mem : s ∈ r.supertypesOf i)
    (declared : ∀ d ∈ (r.nominal i.id).supertypes, d.id = s.id → w.weighInstance d ≤ w.nominal i.id)
    (object : r.extendsObject i.id → w.nominal .object ≤ w.nominal i.id) :
    w.weighInstance s ≤ w.weighInstance i := by
  rw [w.weighInstance_eq i]
  rcases mem_supertypesOf mem with ⟨d,inSupertypes,rfl⟩ | ⟨extends',rfl⟩
  · have := r.weighInstance_instantiate_le (w := w) i d
    have := declared d inSupertypes rfl
    omega
  · have := object extends'
    simp only [objectInstance,w.weighInstance_eq,Weights.weighList]
    omega

/-- All properties are those of the ancestors, one ancestor after the other. -/
lemma gatherProperties_eq (own : Instance → List (String × PropertyLookup)) (expand : Instance → List Instance)
    (steps : Nat) (seen : List NominalId) (queue : List Instance) (done : Table String PropertyLookup) :
    gatherProperties own expand steps seen queue done = ((visit (·.id) expand steps seen queue).flatMap own).foldl
      (fun t entry => t.insertNew entry.1 entry.2) done := by
  fun_induction gatherProperties own expand steps seen queue done with
  | case1 | case2 => rfl
  | case3 steps seen i queue done present ih => rw [ih,visit,if_pos present]
  | case4 steps seen i queue done absent ih => rw [ih,visit,if_neg absent,flatMap_cons,foldl_append]

lemma mem_instanceFields (mem : f ∈ r.instanceFields i) :
    ∃ j ∈ r.ancestry i, ∃ entry ∈ (r.nominal j.id).properties.entries, f = PropertyDecl.toField
        {entry.2 with type := entry.2.type.instantiateVars (r.substitutionFor j)} entry.1 := by
  obtain ⟨⟨name,found⟩,inTable,rfl⟩ := mem_map.mp mem
  rw [allProperties,gatherProperties_eq] at inTable
  rcases Table.mem_foldl (fun _ _ _ => Table.mem_insertNew) {} inTable with inEmpty | inProperties
  · cases inEmpty
  · obtain ⟨j,inherited,own⟩ := mem_flatMap.mp inProperties
    obtain ⟨entry,declared,eq⟩ := mem_map.mp own
    cases eq
    exact ⟨j,inherited,entry,declared,rfl⟩

lemma nominal_of_notMem {id : NominalId} (absent : id ∉ r.nominalIds) : r.nominal id = {} := by
  have beyond : r.nominals.length ≤ id.index := by
    by_contra inside
    exact absent (mem_map.mpr ⟨id.index,mem_range.mpr (by omega),rfl⟩)
  simp [nominal,getElem?_eq_none beyond]

lemma instanceFields_of_notMem (absent : i.id ∉ r.nominalIds) : r.instanceFields i = [] := by
  have empty : ∀ j ∈ r.ancestry i, r.nominal j.id = {} := by
    refine ancestry_forall (fun j undeclared s mem => ?_) (nominal_of_notMem absent)
    rcases mem_supertypesOf mem with ⟨d,declared,-⟩ | ⟨extends',-⟩
    · simp [undeclared,Nominal.supertypes] at declared
    · simp [extendsObject,undeclared] at extends'
  refine eq_nil_iff_forall_not_mem.mpr fun f mem => ?_
  obtain ⟨j,inherited,entry,declared,-⟩ := mem_instanceFields mem
  simp [empty j inherited] at declared

end GradualJs.Registry
