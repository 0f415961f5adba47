import GradualJs.Proofs.Lattice.Data
import GradualJs.Proofs.Ty.Discrete
import Mathlib.Data.List.Nodup

/-! The least upper bound. On data the join of two types is above both, because no object is
combined twice unless it becomes an `Object`, and it fits wherever both fit, because what stands for
two objects does. -/
namespace GradualJs.Registry

open List Relations

variable {e : Field} {s t c : Ty} {y : Record} {o p : Obj} {objects : List Obj}

/-- Below a level, the join of two data types fits wherever both fit. -/
def JoinsBelow (lax : Bool) (depth : Nat) : Prop :=
  ∀ s t u c, s.Data → t.Data → c.Data → (within initial depth).join s t = some u →
    initial.Fits lax s c → initial.Fits lax t c → initial.Fits lax u c

lemma data_primitive {set : PrimitiveSet} (members : set.isEmpty = false) : (Ty.primitive set).Data := by
  rw [Ty.primitive_eq_union members]
  exact .union (by simp [Union.isEmpty,members]) rfl ⟨0,rfl⟩ (by simp)

lemma data_expected {type : Ty} (data : e.type.Data)
    (expected : (initial.unfolded lax (initial.Fits lax)).Expected e type) : type.Data := by
  unfold Premises.Expected at expected
  split at expected
  · exact Joins.data data (data_primitive (by decide)) expected
  · exact expected ▸ data

lemma expected_unique (first : (initial.unfolded lax (initial.Fits lax)).Expected e s)
    (second : (initial.unfolded lax (initial.Fits lax)).Expected e t) : s = t := by
  unfold Premises.Expected at first second
  split at first
  · rename_i optional
    rw [if_pos optional] at second
    exact Joins.unique first second
  · rename_i optional
    rw [if_neg optional] at second
    exact first.trans second.symm

/-- Data have no place for one function that they do not have for another. -/
lemma fits_any_function (data : c.Data)
    (fits : initial.Fits lax (.function f) c) : initial.Fits lax (.function g) c := by
  cases data with
  | bottom => exact (fits_iff.mp fits).elim
  | top => exact fits_top
  | unknown => exact fits_unknown
  | union _ _ _ parts =>
    obtain ⟨p,mem,held⟩ := fits_object_union.mp fits
    refine fits_object_union.mpr ⟨p,mem,?_⟩
    cases parts p mem <;> exact held

lemma hasFields_array (data : ∀ e ∈ y.fields, e.type.Data)
    (has : HasFields lax (.array s) y) : HasFields lax (.array t) y := by
  intro e mem
  have held := has e mem
  obtain ⟨f,fieldsS⟩ := arrayFields s
  obtain ⟨g,fieldsT⟩ := arrayFields t
  simp only [Premises.FieldFits,fieldsOf,Obj.array,fieldsS,fieldsT] at held ⊢
  by_cases length : "length" = e.name
  · simpa [Field.find?,length] using held
  · by_cases push : "push" = e.name
    · simp only [Field.find?,length,push,decide_false,decide_true,find?_cons_of_neg,
        find?_cons_of_pos,Bool.false_eq_true,not_false_eq_true] at held ⊢
      obtain ⟨-,type,expected,fits⟩ := held
      exact ⟨by simp,type,expected,fits_any_function (data_expected (data e mem) expected) fits⟩
    · simpa [Field.find?,length,push] using held

lemma hasFields_joined {x z c : Record} (below : JoinsBelow lax depth)
    (dataX : (Obj.record x).Data) (dataY : (Obj.record y).Data) (dataC : ∀ e ∈ c.fields, e.type.Data)
    (joined : (mergeRules initial (.within initial depth)).joinRecords x y = some z)
    (hasX : HasFields lax (.record x) c) (hasY : HasFields lax (.record y) c) :
    HasFields lax (.record z) c := by
  cases dataX with
  | record strictX _ partsX =>
  cases dataY with
  | record strictY distinctY partsY =>
  intro e mem
  have heldX := hasX e mem
  have heldY := hasY e mem
  simp only [Premises.FieldFits,fieldsOf] at heldX heldY ⊢
  cases found : Field.find? z.fields e.name with
  | none => rwa [joinRecords_missing joined found] at heldX
  | some h =>
    rcases joinRecords_found strictX strictY distinctY joined found with
      ⟨f,g,inX,inY,types,optional⟩ | ⟨optional,⟨f,inX,notY,type⟩ | ⟨g,notX,inY,type⟩⟩
    · rw [inX] at heldX
      rw [inY] at heldY
      obtain ⟨allowedX,type,expected,fitsX⟩ := heldX
      obtain ⟨allowedY,type',expected',fitsY⟩ := heldY
      obtain rfl := expected_unique expected expected'
      refine ⟨fun yes => ?_,type,expected,?_⟩
      · rw [optional,Bool.or_eq_true] at yes
        exact yes.elim allowedX allowedY
      · exact below _ _ _ _ (partsX f (Field.find?_mem inX)) (partsY g (Field.find?_mem inY))
          (data_expected (dataC e mem) expected) types fitsX fitsY
    · rw [inX] at heldX
      simp only [notY,Bool.false_eq_true,or_false] at heldY
      obtain ⟨-,wanted,expected,fits⟩ := heldX
      exact ⟨fun _ => heldY,wanted,expected,type ▸ fits⟩
    · rw [inY] at heldY
      simp only [notX,Bool.false_eq_true,or_false] at heldX
      obtain ⟨-,wanted,expected,fits⟩ := heldY
      exact ⟨fun _ => heldX,wanted,expected,type ▸ fits⟩

lemma Unchanged.eq_of_identity {r : Registry} (unchanged : r.Unchanged objects) (inO : o ∈ objects) (inP : p ∈ objects)
    (eq : o.identity = p.identity) : o = p :=
  inj_on_of_nodup_map unchanged.nodup inO inP eq

lemma Merges.fits (below : JoinsBelow lax depth) (dataO : o.Data)
    (dataP : p.Data) (dataC : c.Data) (merges : Merges depth o p z)
    (fitsO : initial.Fits lax (.object o) c) (fitsP : initial.Fits lax (.object p) c) :
    initial.Fits lax (.object z) c := by
  have dataZ := merges.data (keepsData depth) dataO dataP
  cases dataC with
  | bottom => exact (fits_iff.mp fitsO).elim
  | top => exact fits_top
  | unknown => exact fits_unknown
  | @union v members noEnums unchanged parts =>
    obtain ⟨q,inQ,heldO⟩ := fits_object_union.mp fitsO
    obtain ⟨q',inQ',heldP⟩ := fits_object_union.mp fitsP
    by_cases widest : Obj.anyObject ∈ v.objects
    · exact fits_object_union.mpr ⟨_,widest,fits_anyObject z⟩
    cases merges with
    | object either => exact either.elim (fun eq => eq ▸ fitsO) fun eq => eq ▸ fitsP
    | function => exact fitsO
    | @array s t u joined =>
      cases dataO with
      | array dataS =>
      cases dataP with
      | array dataT =>
      refine fits_object_union.mpr ?_
      rcases fits_data (.array dataS) (parts q inQ) heldO with
        rfl | ⟨wrong,-⟩ | ⟨_,a,eq,rfl,fitsS⟩ | ⟨y,rfl,has⟩
      · exact absurd inQ widest
      · cases wrong
      · cases eq
        rcases fits_data (.array dataT) (parts q' inQ') heldP with
          rfl | ⟨wrong,-⟩ | ⟨_,a',eq,rfl,fitsT⟩ | ⟨y,rfl,has⟩
        · exact absurd inQ' widest
        · cases wrong
        · cases eq
          cases unchanged.eq_of_identity inQ inQ' rfl
          cases parts _ inQ with
          | array dataA =>
            exact ⟨_,inQ,fits_array.mpr (below _ _ _ _ dataS dataT dataA joined fitsS fitsT)⟩
        · cases parts _ inQ' with
          | record strict _ fields =>
            exact ⟨_,inQ',(fits_record dataZ strict).mpr (hasFields_array fields has)⟩
      · cases parts _ inQ with
        | record strict _ fields =>
          exact ⟨_,inQ,(fits_record dataZ strict).mpr (hasFields_array fields has)⟩
    | @record x y z joined =>
      refine fits_object_union.mpr ?_
      rcases fits_data dataO (parts q inQ) heldO with
        rfl | ⟨wrong,-⟩ | ⟨_,_,wrong,-⟩ | ⟨e,rfl,hasX⟩
      · exact absurd inQ widest
      · cases wrong
      · cases wrong
      · rcases fits_data dataP (parts q' inQ') heldP with
          rfl | ⟨wrong,-⟩ | ⟨_,_,wrong,-⟩ | ⟨e',rfl,hasY⟩
        · exact absurd inQ' widest
        · cases wrong
        · cases wrong
        · cases unchanged.eq_of_identity inQ inQ' rfl
          cases parts _ inQ with
          | record strict _ fields =>
            exact ⟨_,inQ,(fits_record dataZ strict).mpr (hasFields_joined below dataO dataP fields joined hasX hasY)⟩

lemma joinsBelow (lax : Bool) (depth : Nat) : JoinsBelow lax depth := by
  induction depth with
  | zero => exact fun _ _ _ _ _ _ _ => nofun
  | succ depth ih =>
    intro s t u c dataS dataT dataC ended fitsS fitsT
    rcases join_data dataS dataT ended with ⟨-,rfl⟩ | ⟨-,rfl⟩ | ⟨rfl,either⟩ | ⟨rfl,-⟩ |
      ⟨a,b,objects,rfl,rfl,normalized,rfl,members⟩
    · exact fitsT
    · exact fitsS
    · exact either.elim (fun eq => eq ▸ fitsS) fun eq => eq ▸ fitsT
    · exact unknown_fits
    · cases c with
      | bottom => exact (fits_iff.mp fitsS).elim
      | top => exact fits_top
      | unknown => exact fits_unknown
      | union w =>
        have heldS := fits_union.mp fitsS
        have heldT := fits_union.mp fitsT
        have parts (o : Obj) (mem : o ∈ a.objects ++ b.objects) : o.Data ∧ initial.Fits lax (.object o) (.union w) := by
          rcases mem_append.mp mem with inA | inB
          · exact ⟨(data_union.mp dataS).2.2.2 o inA,fits_object_union.mpr (heldS.objects o inA)⟩
          · exact ⟨(data_union.mp dataT).2.2.2 o inB,fits_object_union.mpr (heldT.objects o inB)⟩
        have combines (o p : Obj) (goodO : o.Data ∧ initial.Fits lax (.object o) (.union w))
            (goodP : p.Data ∧ initial.Fits lax (.object p) (.union w)) :
            Lifting.runs.Holds (fun combined =>
              ∀ z ∈ combined, z.Data ∧ initial.Fits lax (.object z) (.union w))
              fun _ => (mergeRules initial (.within initial depth)).combine o p := by
          intro combined ended z mem
          have merges := (combine_data goodO.1 goodP.1 ended).1 z mem
          exact ⟨merges.data (keepsData depth) goodO.1 goodP.1, merges.fits ih goodO.1 goodP.1 dataC goodO.2 goodP.2⟩
        have fit := Limits.holds_normalizeObjects (L := .runs) combines parts objects normalized
        refine fits_union.mpr ⟨?_,?_,?_,fun o mem => fits_object_union.mp (fit o mem).2⟩
        · exact PrimitiveSet.contains_union heldS.primitives heldT.primitives
        · have varsS := all_eq_true.mp heldS.vars
          have varsT := all_eq_true.mp heldT.vars
          refine all_eq_true.mpr fun name mem => ?_
          simp only [Union.joined,mem_mergeSorted] at mem
          exact mem.elim (varsS name) (varsT name)
        · simp [enums_joined dataS dataT]

/-- What two objects are combined to is above both, if the joins of their parts are. -/
lemma Merges.above (dataO : o.Data) (dataP : p.Data) (merges : Merges depth o p z)
    (parts : ∀ s ∈ o.parts, ∀ t u, s.Data → t.Data → initial.Joins s t u →
      initial.Fits false s u ∧ initial.Fits false t u) :
    initial.FitsObject false o z ∧ initial.FitsObject false p z := by
  have dataZ := merges.data (keepsData depth) dataO dataP
  cases merges with
  | object => exact ⟨fits_anyObject o,fits_anyObject p⟩
  | function =>
    have itself : initial.FitsObject false .anyFunction .anyFunction :=
      (normalObject_of_data .anyFunction).fits_self initial_kinded
    exact ⟨itself,itself⟩
  | @array s t u joined =>
    cases dataO with
    | array dataS =>
    cases dataP with
    | array dataT =>
    have above := parts s (by simp [Obj.array,Obj.parts]) t u dataS dataT ⟨depth,joined⟩
    exact above.imp fits_array.mpr fits_array.mpr
  | @record x y z joined =>
    refine fits_joinRecords initial_kinded (normalObject_of_data dataO) (normalObject_of_data dataP)
      (normalObject_of_data dataZ) joined fun pair mem u _ joins => ?_
    obtain ⟨f,inX,shared⟩ := mem_filterMap.mp mem
    obtain ⟨g,found,rfl⟩ := Option.map_eq_some_iff.mp shared
    cases dataO with
    | record _ _ partsX =>
    cases dataP with
    | record _ _ partsY =>
    exact parts f.type (mem_map.mpr ⟨f,inX,rfl⟩) g.type u (partsX f inX) (partsY g (Field.find?_mem found)) joins

lemma anyObject_normalized (data : ∀ o ∈ objects, o.Data)
    (ended : normalizeObjects (mergeRules initial (.within initial depth)).combine objects =
      some merged) (mem : .anyObject ∈ objects) : .anyObject ∈ merged := by
  have stepwise : Stepwise (mergeRules initial (.within initial depth)).combine
      (fun o p => o.Data ∧ p.Data) fun o z => o = .anyObject → z = .anyObject := by
    have merges {o p z : Obj} (data : o.Data ∧ p.Data)
        (combined : (mergeRules initial (.within initial depth)).combine o p = some (some z)) : Merges depth o p z :=
      (combine_data data.1 data.2 combined).1 z rfl
    refine ⟨fun data combined => ?_,fun data combined o pre => ?_,fun data combined o after => ?_⟩
    · cases merges data combined with
      | object => exact ⟨fun _ => rfl,fun _ => rfl⟩
      | function => exact ⟨id,id⟩
      | array | record => exact ⟨nofun,nofun⟩
    · exact ⟨pre.1,(merges data combined).data (keepsData depth) data.1 data.2⟩
    · exact ⟨(merges data combined).data (keepsData depth) data.1 data.2,after.2⟩
  have pairwise : objects.Pairwise fun o p => o.Data ∧ p.Data :=
    pairwise_of_forall_mem_list fun o inO p inP => ⟨data o inO,data p inP⟩
  obtain ⟨z,inMerged,reached⟩ := (normalizeObjects_carries stepwise pairwise ended).1 .anyObject mem
  have eq : z = .anyObject := by
    clear inMerged
    induction reached with
    | refl => rfl
    | tail _ step ih => exact step ih
  exact eq ▸ inMerged

lemma covered_join {a b : Union} (dataA : (Ty.union a).Data) (dataB : (Ty.union b).Data)
    (normalized : normalizeObjects (mergeRules initial (.within initial depth)).combine
      (a.objects ++ b.objects) = some objects)
    (parts : ∀ o ∈ a.objects, ∀ s ∈ o.parts, ∀ t u, s.Data → t.Data → initial.Joins s t u →
      initial.Fits false s u ∧ initial.Fits false t u) :
    ∀ o ∈ a.objects ++ b.objects, ∃ z ∈ objects, initial.FitsObject false o z := by
  obtain ⟨-,-,unchangedA,objectsA⟩ := data_union.mp dataA
  obtain ⟨-,-,unchangedB,objectsB⟩ := data_union.mp dataB
  have data (o : Obj) (mem : o ∈ a.objects ++ b.objects) : o.Data := (mem_append.mp mem).elim (objectsA o) (objectsB o)
  intro x mem
  by_cases widest : Obj.anyObject ∈ a.objects ++ b.objects
  · exact ⟨.anyObject,anyObject_normalized data normalized widest,fits_anyObject x⟩
  -- Without `Object` only objects that are the same thing combine.
  have discrete : Discrete (mergeRules initial (.within initial depth)).combine fun o => o.Data ∧ o ≠ .anyObject := by
    refine ⟨MergeRules.combine_ne_none,fun {o p z} goodO goodP combined => ?_⟩
    have merges := (combine_data goodO.1 goodP.1 combined).1 z rfl
    have dataZ := merges.data (keepsData depth) goodO.1 goodP.1
    cases merges with
    | object either => exact (either.elim goodO.2 goodP.2).elim
    | function | array | record => exact ⟨⟨dataZ,nofun⟩,rfl,rfl⟩
  have good {u : List Obj} (dataU : ∀ o ∈ u, o.Data) (subset : u ⊆ a.objects ++ b.objects) :
      ∀ o ∈ u, o.Data ∧ o ≠ .anyObject := by
    intro o mem
    exact ⟨dataU o mem,fun eq => widest (eq ▸ subset mem)⟩
  obtain ⟨z,inObjects,rfl | ⟨o,inA,p,inB,combined,either⟩⟩ :=
    discrete.normalizeObjects_once unchangedA.nodup unchangedB.nodup
      (good objectsA (by simp)) (good objectsB (by simp)) normalized mem
  · exact ⟨z,inObjects,(normalObject_of_data (data z mem)).fits_self initial_kinded⟩
  · have merges := (combine_data (objectsA o inA) (objectsB p inB) combined).1 z rfl
    obtain ⟨left,right⟩ := merges.above (objectsA o inA) (objectsB p inB) (parts o inA)
    exact ⟨z,inObjects,either.elim (fun eq => eq ▸ left) fun eq => eq ▸ right⟩

lemma Joins.above (dataS : s.Data) (dataT : t.Data) (joins : initial.Joins s t u) :
    initial.Fits false s u ∧ initial.Fits false t u := by
  induction size : sizeOf s using Nat.strongRecOn generalizing s t u with
  | _ n ih =>
    obtain ⟨depth,ended⟩ := joins
    cases depth with
    | zero => cases ended
    | succ depth =>
      rcases join_data dataS dataT ended with ⟨rfl,rfl⟩ | ⟨rfl,rfl⟩ | ⟨rfl,-⟩ | ⟨rfl,-⟩ |
        ⟨a,b,objects,rfl,rfl,normalized,rfl,-⟩
      · exact ⟨bottom_fits,(normal_of_data dataT).fits_self initial_kinded⟩
      · exact ⟨(normal_of_data dataS).fits_self initial_kinded,bottom_fits⟩
      · exact ⟨fits_top,fits_top⟩
      · exact ⟨fits_unknown,fits_unknown⟩
      · have covered := covered_join dataS dataT normalized fun o mem s part t u dataS dataT joins =>
          ih (sizeOf s) (size ▸ Obj.sizeOf_part mem part) dataS dataT joins rfl
        have noEnums {v : Union} (data : (Ty.union v).Data) : v.enums = [] := (data_union.mp data).2.1
        refine ⟨fits_union.mpr ⟨?_,?_,?_,?_⟩,fits_union.mpr ⟨?_,?_,?_,?_⟩⟩
        · simp [Union.joined]
        · simp +contextual [Union.joined]
        · simp [noEnums dataS]
        · exact fun o mem => covered o (by simp [mem])
        · simp [Union.joined]
        · simp +contextual [Union.joined]
        · simp [noEnums dataT]
        · exact fun o mem => covered o (by simp [mem])

theorem join_leastUpperBound (lax : Bool) {a b : Ty} (dataA : a.Data) (dataB : b.Data) :
    ∃ joined level, joined.Data ∧ (∀ depth, level ≤ depth → Lattice.join ⟨initial,lax,depth⟩ a b = some joined ∧
        Lattice.isSubtype ⟨initial,lax,depth⟩ a joined = some true ∧
        Lattice.isSubtype ⟨initial,lax,depth⟩ b joined = some true) ∧
      ∀ c depth, c.Data → Lattice.isSubtype ⟨initial,lax,depth⟩ a c = some true →
        Lattice.isSubtype ⟨initial,lax,depth⟩ b c = some true → ∃ level, ∀ deeper, level ≤ deeper →
          Lattice.isSubtype ⟨initial,lax,deeper⟩ joined c = some true := by
  obtain ⟨joined,-,level,ended⟩ := joins_ending initial_kinded initial_ranked a b
  have joins : initial.Joins a b joined := ⟨level,ended level (Nat.le_refl _)⟩
  obtain ⟨aboveA,aboveB⟩ := Joins.above dataA dataB joins
  have eitherA : initial.Fits lax a joined := aboveA.either
  have eitherB : initial.Fits lax b joined := aboveB.either
  obtain ⟨levelA,settledA⟩ := eitherA.settles
  obtain ⟨levelB,settledB⟩ := eitherB.settles
  refine ⟨joined,max level (max levelA levelB),Joins.data dataA dataB joins,?_,?_⟩
  · intro depth deep
    exact ⟨ended depth (by omega),settledA depth (by omega),settledB depth (by omega)⟩
  · intro c depth dataC grantedA grantedB
    refine Fits.settles (joinsBelow lax level a b joined c dataA dataB dataC (ended level (Nat.le_refl _)) ?_ ?_)
    · exact fits_of_isSubtype grantedA
    · exact fits_of_isSubtype grantedB

def someNumbers : Ty := .union {
  primitives := .nullOnly
  objects := [.array .number,.record {fields := [{name := "p", type := .number}]}]}

/-- Strings in a list or a property, with one more property. -/
def someStrings : Ty := .union {
  objects := [.array .string,.record {
    fields := [{name := "p", type := .string},{name := "q", type := .boolean}], exact := true}]}

lemma data_numbers_strings : someNumbers.Data ∧ someStrings.Data := by
  have number : Ty.number.Data := data_primitive (by decide)
  have string : Ty.string.Data := data_primitive (by decide)
  have boolean : Ty.boolean.Data := data_primitive (by decide)
  refine ⟨.union (by decide) rfl ⟨1,by decide +kernel⟩ (forall_mem_pair.mpr ⟨.array number,?_⟩),
    .union (by decide) rfl ⟨1,by decide +kernel⟩ (forall_mem_pair.mpr ⟨.array string,?_⟩)⟩
  · exact .record rfl (by decide) (by simpa using number)
  · exact .record rfl (by decide) (by simpa using ⟨string,boolean⟩)

theorem join_leastUpperBound_lists : someNumbers.Data ∧ someStrings.Data ∧ ∃ joined level, joined.Data ∧
      (∀ depth, level ≤ depth → Lattice.join ⟨initial,false,depth⟩ someNumbers someStrings = some joined ∧
        Lattice.isSubtype ⟨initial,false,depth⟩ someNumbers joined = some true ∧
        Lattice.isSubtype ⟨initial,false,depth⟩ someStrings joined = some true) ∧
      ∀ c depth, c.Data → Lattice.isSubtype ⟨initial,false,depth⟩ someNumbers c = some true →
        Lattice.isSubtype ⟨initial,false,depth⟩ someStrings c = some true →
        ∃ level, ∀ deeper, level ≤ deeper → Lattice.isSubtype ⟨initial,false,deeper⟩ joined c = some true :=
  ⟨data_numbers_strings.1,data_numbers_strings.2,
    join_leastUpperBound false data_numbers_strings.1 data_numbers_strings.2⟩

end GradualJs.Registry
