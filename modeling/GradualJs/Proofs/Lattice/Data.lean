import GradualJs.Proofs.Lattice.UpperBound

/-! Data: primitive values, template variables, arrays, records and the builtin objects. Over the
builtin types alone an answer is yes exactly if the types fit, and objects combine in few ways, so
the join of two data types is a data type. -/
namespace GradualJs

open Relations List

variable {a b s t : Ty} {o p : Obj} {v u : Union} {tgt : Instance}

namespace Obj

def anyObject : Obj := .nominal Registry.objectInstance
def anyFunction : Obj := .nominal ⟨.function,[]⟩
def array (element : Ty) : Obj := .nominal ⟨.array,[element]⟩

end Obj

mutual
/-- A normal type of data: no enums, functions or namespaces, and no loose records. -/
inductive Ty.Data : Ty → Prop
  | bottom : Ty.Data .bottom
  | top : Ty.Data .top
  | unknown : Ty.Data .unknown
  | union {u : Union} : u.isEmpty = false → u.enums = [] → Registry.initial.Unchanged u.objects →
      (∀ o ∈ u.objects, o.Data) → Ty.Data (.union u)
inductive Obj.Data : Obj → Prop
  | anyObject : Obj.Data .anyObject
  | anyFunction : Obj.Data .anyFunction
  | array {t : Ty} : t.Data → Obj.Data (.array t)
  | record {x : Record} : x.loose = false → (x.fields.map (·.name)).Nodup →
      (∀ f ∈ x.fields, f.type.Data) → Obj.Data (.record x)
end

namespace Registry

def initialRanks : Ranks where
  records _ := 0
  spaces _ := 1
  calls _ := 0
  heights _ := 0

lemma initial_kinded : initial.Kinded := by decide
lemma initial_ranked : initial.Ranked initialRanks := by decide

lemma initial_kind (id : NominalId) : (initial.nominal id).kind ≠ .record := by
  by_cases declared : id ∈ initial.nominalIds
  · revert id
    decide
  · simp [nominal_of_notMem declared]

/-- No builtin is compared by structure, so what is granted is right. -/
lemma fits_of_isSubtype (granted : Lattice.isSubtype ⟨initial,lax,depth⟩ a b = some true) : initial.Fits lax a b := by
  refine (granted_of_answers ⟨depth,granted⟩).fits fun pair _ src tgt structural => ?_
  exact absurd structural.record (initial_kind tgt.id)

lemma Fits.settles (fits : initial.Fits lax a b) : ∃ level, ∀ depth, level ≤ depth →
      Lattice.isSubtype ⟨initial,lax,depth⟩ a b = some true := by
  obtain ⟨ans,-,level,settled⟩ := (ending initial_kinded initial_ranked lax [] a b).isSubtype
  have yes : ans = true := fits.isSubtype (settled level (Nat.le_refl _))
  exact ⟨level,fun depth deep => yes ▸ settled depth deep⟩

lemma arrayFields (t : Ty) : ∃ f, initial.instanceFields ⟨.array,[t]⟩ = [
    {name := "length", type := .number, declared := true},
    {name := "push", type := .function f, declared := true}] := ⟨_,rfl⟩

mutual
lemma normal_of_data : {t : Ty} → t.Data → initial.Normal t
  | _, .bottom => .bottom
  | _, .top => .top
  | _, .unknown => .unknown
  | _, .union members _ unchanged parts => .union members unchanged fun o mem =>
      normalObject_of_data (parts o mem)
lemma normalObject_of_data : {o : Obj} → o.Data → initial.NormalObject o
  | _, .anyObject => .nominal (by simp [objectInstance])
  | _, .anyFunction => .nominal (by simp)
  | _, .array element => .nominal (by simpa using normal_of_data element)
  | _, .record _ distinct parts => .record distinct fun f mem => normal_of_data (parts f mem)
end

lemma array_ne_object : NominalId.array ≠ .object := by decide

lemma fits_anyObject (o : Obj) : initial.FitsObject lax o .anyObject := by
  cases o <;> exact .inl rfl

lemma fits_array : initial.FitsObject lax (.array s) (.array t) ↔ initial.Fits lax s t := by
  have args : initial.FitsObject lax (.array s) (.array t) ↔
      NominalId.array = .object ∨ ∀ pair ∈ padArgs [s] [t], initial.Fits lax pair.1 pair.2 :=
    Iff.rfl
  simp [args,padArgs,NominalId.array,NominalId.object]

lemma fits_object_union : initial.Fits lax (.object o) (.union v) ↔ ∃ p ∈ v.objects, initial.FitsObject lax o p := by
  constructor
  · intro fits
    exact (fits_union.mp fits).objects o (by simp)
  · rintro ⟨p,mem,fits⟩
    exact fits_of_object mem fits

/-- The properties of an object fit those of a record. -/
def HasFields (lax : Bool) (o : Obj) (y : Record) : Prop :=
  (initial.unfolded lax (initial.Fits lax)).FieldsFit (initial.fieldsOf o).1 false y.fields false

lemma fits_record {y : Record} (dataO : o.Data) (strict : y.loose = false) :
    initial.FitsObject lax o (.record y) ↔ HasFields lax o y := by
  have rule : initial.FitsObject lax o (.record y) ↔
      (initial.unfolded lax (initial.Fits lax)).FieldsFit (initial.fieldsOf o).1
        (initial.fieldsOf o).2 y.fields y.loose := by
    cases o <;> rfl
  have known : (initial.fieldsOf o).2 = false := by
    cases dataO with
    | record strict => exact strict
    | anyObject | anyFunction | array => rfl
  rw [rule,known,strict,HasFields]

lemma not_fits_upcast (notObject : tgt.id ≠ .object) (unreached : initial.upcast src tgt.id = none) :
    ¬initial.FitsObject lax (.nominal src) (.nominal tgt) := by
  rintro (eq | fits)
  · exact notObject eq
  · simp only [Premises.InstanceFits,unreached] at fits
    exact initial_kind _ fits.1

lemma not_fits_nominal {x : Record} (strict : x.loose = false) (notObject : tgt.id ≠ .object) :
    ¬initial.FitsObject lax (.record x) (.nominal tgt) := by
  rintro (eq | ⟨either,-⟩)
  · exact notObject eq
  · simp [strict,initial_kind] at either

lemma fits_data (dataO : o.Data) (dataP : p.Data) (fits : initial.FitsObject lax o p) :
    p = .anyObject ∨ (o = .anyFunction ∧ p = .anyFunction) ∨
      (∃ s t, o = .array s ∧ p = .array t ∧ initial.Fits lax s t) ∨
      ∃ y, p = .record y ∧ HasFields lax o y := by
  cases dataP with
  | anyObject => exact .inl rfl
  | anyFunction =>
    cases dataO with
    | anyFunction => exact .inr (.inl ⟨rfl,rfl⟩)
    | anyObject | array => exact absurd fits (not_fits_upcast (by decide) rfl)
    | record strict => exact absurd fits (not_fits_nominal strict (by decide))
  | array element =>
    cases dataO with
    | anyObject | anyFunction => exact absurd fits (not_fits_upcast array_ne_object rfl)
    | array => exact .inr (.inr (.inl ⟨_,_,rfl,rfl,fits_array.mp fits⟩))
    | record strict => exact absurd fits (not_fits_nominal strict array_ne_object)
  | record strict => exact .inr (.inr (.inr ⟨_,rfl,(fits_record dataO strict).mp fits⟩))

section Combining

def Separate (o p : Obj) : Prop :=
  o.sort ≠ p.sort ∨ (o = .anyFunction ∧ ∃ t, p = .array t) ∨ (p = .anyFunction ∧ ∃ t, o = .array t)

lemma Separate.symm (apart : Separate o p) : Separate p o := apart.imp Ne.symm Or.symm

lemma sort_nominal_ne (i : Instance) (x : Record) : (Obj.nominal i).sort ≠ (Obj.record x).sort := by
  simp [Obj.sort,Obj.identity,Obj.Identity.rank]

inductive Merges (depth : Nat) : Obj → Obj → Obj → Prop
  | object {o p : Obj} : o = .anyObject ∨ p = .anyObject → Merges depth o p .anyObject
  | function : Merges depth .anyFunction .anyFunction .anyFunction
  | array {s t u : Ty} : (within initial depth).join s t = some u → Merges depth (.array s) (.array t) (.array u)
  | record {x y z : Record} : (mergeRules initial (.within initial depth)).joinRecords x y = some z →
      Merges depth (.record x) (.record y) (.record z)

lemma combine_data (dataO : o.Data) (dataP : p.Data)
    (ended : (mergeRules initial (.within initial depth)).combine o p = some combined) :
    (∀ z ∈ combined, Merges depth o p z) ∧ (combined = none → Separate o p) := by
  cases dataO with
  | anyObject =>
    cases dataP with
    | record => cases ended; exact ⟨nofun,fun _ => .inl (sort_nominal_ne _ _)⟩
    | anyObject | anyFunction | array =>
      cases ended
      exact ⟨by rintro z ⟨⟩; exact .object (.inl rfl),nofun⟩
  | anyFunction =>
    cases dataP with
    | record => cases ended; exact ⟨nofun,fun _ => .inl (sort_nominal_ne _ _)⟩
    | anyObject => cases ended; exact ⟨by rintro z ⟨⟩; exact .object (.inr rfl),nofun⟩
    | anyFunction => cases ended; exact ⟨by rintro z ⟨⟩; exact .function,nofun⟩
    | array => cases ended; exact ⟨nofun,fun _ => .inr (.inl ⟨rfl,_,rfl⟩)⟩
  | array =>
    cases dataP with
    | record => cases ended; exact ⟨nofun,fun _ => .inl (sort_nominal_ne _ _)⟩
    | anyObject => cases ended; exact ⟨by rintro z ⟨⟩; exact .object (.inr rfl),nofun⟩
    | anyFunction => cases ended; exact ⟨nofun,fun _ => .inr (.inr ⟨rfl,_,rfl⟩)⟩
    | array =>
      obtain ⟨joined,args,rfl⟩ := Option.map_eq_some_iff.mp ended
      obtain ⟨list,mapped,eq⟩ := Option.bind_eq_some_iff.mp args
      cases eq
      cases forall₂_of_mapM mapped with
      | cons first rest =>
        cases rest
        exact ⟨by rintro z ⟨⟩; exact .array first,nofun⟩
  | record =>
    cases dataP with
    | record =>
      obtain ⟨joined,records,rfl⟩ := Option.map_eq_some_iff.mp ended
      exact ⟨by rintro z ⟨⟩; exact .record records,nofun⟩
    | anyObject | anyFunction | array =>
      cases ended
      exact ⟨nofun,fun _ => .inl (sort_nominal_ne _ _).symm⟩

lemma Separate.combine (apart : Separate o p) :
    (mergeRules initial (.within initial depth)).combine o p = some none := by
  rcases apart with sorts | ⟨rfl,t,rfl⟩ | ⟨rfl,t,rfl⟩
  · exact MergeRules.combine_of_sort_ne _ sorts
  · rfl
  · rfl

section Records

variable {x y z : Record}

lemma find?_eq_none : Field.find? fields name = none ↔ ∀ f ∈ fields, f.name ≠ name := by
  simp [Field.find?]

lemma joinRecords_names (ended : (mergeRules r (.within r depth)).joinRecords x y = some z)
    (distinctX : (x.fields.map (·.name)).Nodup) (distinctY : (y.fields.map (·.name)).Nodup) :
    (z.fields.map (·.name)).Nodup := by
  obtain ⟨left,related,fields,-⟩ := joinRecords_eq_some ended
  have names : left.map (·.name) = x.fields.map (·.name) := by
    refine (forall₂_eq_eq_eq ▸ ?_ : left.map (·.name) = x.fields.map (·.name))
    simpa [forall₂_map_left_iff,forall₂_map_right_iff] using related.flip.imp fun h f joined => joined.1
  have others : ∀ list : List Field, (list.map fun g =>
      if x.loose then g else {g with optional := true}).map (·.name) = list.map (·.name) := by
    intro list
    rw [map_map]
    refine map_congr_left fun g _ => ?_
    simp only [Function.comp]
    split <;> rfl
  rw [fields,map_append,names,others]
  refine nodup_append.mpr ⟨distinctX,distinctY.sublist (filter_sublist.map _),?_⟩
  intro name inX other inY eq
  subst eq
  obtain ⟨g,kept,named⟩ := mem_map.mp inY
  obtain ⟨f,inFields,eq⟩ := mem_map.mp inX
  have fresh := (mem_filter.mp kept).2
  simp only [Option.isNone_iff_eq_none,find?_eq_none] at fresh
  exact fresh f inFields (eq.trans named.symm)

lemma joinRecords_found (strictX : x.loose = false) (strictY : y.loose = false)
    (distinctY : (y.fields.map (·.name)).Nodup)
    (ended : (mergeRules r (.within r depth)).joinRecords x y = some z)
    {h : Field} (found : Field.find? z.fields name = some h) :
    (∃ f g, Field.find? x.fields name = some f ∧ Field.find? y.fields name = some g ∧
      (within r depth).join f.type g.type = some h.type ∧
      h.optional = (f.optional || g.optional)) ∨ h.optional = true ∧
      ((∃ f, Field.find? x.fields name = some f ∧ Field.find? y.fields name = none ∧ h.type = f.type) ∨
        ∃ g, Field.find? x.fields name = none ∧ Field.find? y.fields name = some g ∧ h.type = g.type) := by
  obtain ⟨left,mapped,eq⟩ := Option.bind_eq_some_iff.mp ended
  cases eq
  have related := find?_forall₂ (forall₂_of_mapM mapped) (fun f h joined => (joinField_eq_some joined).1) name
  simp only [find?_append,Option.or_eq_some_iff] at found
  rcases found with inLeft | ⟨notLeft,inRight⟩
  · rw [inLeft] at related
    cases inX : Field.find? x.fields name with
    | none => simp [inX] at related
    | some f =>
      rw [inX] at related
      have joined : (mergeRules r (.within r depth)).joinField y f = some h := by
        simpa using related
      unfold MergeRules.joinField at joined
      rw [find?_name inX] at joined
      cases inY : Field.find? y.fields name with
      | some g =>
        rw [inY] at joined
        obtain ⟨type,join,eq⟩ := Option.bind_eq_some_iff.mp joined
        cases eq
        exact .inl ⟨f,g,rfl,rfl,join,rfl⟩
      | none =>
        simp only [inY,strictY] at joined
        cases joined
        exact .inr ⟨rfl,.inl ⟨f,rfl,rfl,rfl⟩⟩
  · obtain ⟨g,kept,eq⟩ := mem_map.mp (Field.find?_mem inRight)
    obtain ⟨inY,fresh⟩ := mem_filter.mp kept
    simp only [strictX,Bool.false_eq_true,if_false] at eq
    have named : g.name = name := by
      rw [← find?_name inRight,← eq]
    subst eq
    subst named
    exact .inr ⟨rfl,.inr ⟨g,by simpa using fresh,find?_of_nodup distinctY inY,rfl⟩⟩

lemma joinRecords_missing (ended : (mergeRules r (.within r depth)).joinRecords x y = some z)
    (missing : Field.find? z.fields name = none) : Field.find? x.fields name = none := by
  obtain ⟨left,mapped,eq⟩ := Option.bind_eq_some_iff.mp ended
  cases eq
  have related := find?_forall₂ (forall₂_of_mapM mapped) (fun f h joined => (joinField_eq_some joined).1) name
  simp only [find?_append,Option.or_eq_none_iff] at missing
  rw [missing.1] at related
  cases inX : Field.find? x.fields name with
  | none => rfl
  | some f => simp [inX] at related

end Records

def KeepsData (depth : Nat) : Prop := ∀ s t u, s.Data → t.Data → (within initial depth).join s t = some u → u.Data

lemma Merges.data (keeps : KeepsData depth) {z : Obj} (dataO : o.Data) (dataP : p.Data)
    (merges : Merges depth o p z) : z.Data := by
  cases merges with
  | object => exact .anyObject
  | function => exact .anyFunction
  | array joined =>
    cases dataO with
    | array dataS =>
      cases dataP with
      | array dataT => exact .array (keeps _ _ _ dataS dataT joined)
  | @record x y z joined =>
    cases dataO with
    | record strictX distinctX partsX =>
      cases dataP with
      | record strictY distinctY partsY =>
        obtain ⟨-,-,-,loose⟩ := joinRecords_eq_some joined
        refine .record (by simp [loose,strictX,strictY]) (joinRecords_names joined distinctX distinctY) ?_
        have parts : Lifting.runs.Holds (fun joined => ∀ f ∈ joined.fields, f.type.Data)
            fun _ => (mergeRules initial (.within initial depth)).joinRecords x y :=
          MergeRules.holds_joinRecords (fun s t dataS dataT u => keeps s t u dataS dataT) partsX partsY
        exact parts z joined

lemma normalize_data (keeps : KeepsData depth) (data : ∀ o ∈ objects, o.Data)
    (ended : normalizeObjects (mergeRules initial (.within initial depth)).combine objects =
      some merged) : (∀ o ∈ merged, o.Data) ∧ initial.Unchanged merged := by
  have combines (o p : Obj) (dataO : o.Data) (dataP : p.Data) : Lifting.runs.Holds
      (fun combined => (∀ z ∈ combined, z.Data) ∧ (combined = none → Separate o p))
      fun _ => (mergeRules initial (.within initial depth)).combine o p := by
    intro combined ended
    obtain ⟨merges,apart⟩ := combine_data dataO dataP ended
    exact ⟨fun z mem => (merges z mem).data keeps dataO dataP,apart⟩
  obtain ⟨unsorted,dataMerged,apart,rfl⟩ := Limits.holds_normalizeObjects_apart (L := .runs) combines data merged ended
  have perm := stableSort_perm (fun a b : Obj => a.identity.notAfter b.identity) unsorted
  refine ⟨fun o mem => dataMerged o (mem_stableSort.mp mem),0,?_⟩
  refine normalizeObjects_apart ?_ (pairwise_stableSort (fun a b => Obj.Identity.notAfter_total a.identity b.identity)
    (fun a b c => Obj.Identity.notAfter_trans a.identity b.identity c.identity) unsorted)
  exact ((perm.pairwise_iff fun apart => Separate.symm apart).mpr apart).imp fun apart => apart.combine

lemma data_union : (Ty.union u).Data ↔ u.isEmpty = false ∧ u.enums = [] ∧
    initial.Unchanged u.objects ∧ ∀ o ∈ u.objects, o.Data := by
  constructor
  · rintro ⟨⟩
    exact ⟨‹_›,‹_›,‹_›,‹_›⟩
  · rintro ⟨members,noEnums,unchanged,parts⟩
    exact .union members noEnums unchanged parts

lemma enums_joined (dataU : (Ty.union u).Data) (dataV : (Ty.union v).Data)
    (objects : List Obj) : (u.joined v objects).enums = [] := by
  simp [Union.joined,(data_union.mp dataU).2.1,(data_union.mp dataV).2.1,mergeSorted,stableSort, dropAdjacent]

/-- The join of two unions of data has all their members, with the objects combined. -/
lemma joinUnions_data (dataU : (Ty.union u).Data) (dataV : (Ty.union v).Data)
    (ended : (mergeRules initial (.within initial depth)).joinUnions u v = some t) :
    ∃ objects, normalizeObjects (mergeRules initial (.within initial depth)).combine
        (u.objects ++ v.objects) = some objects ∧
      t = .union (u.joined v objects) ∧ (u.joined v objects).isEmpty = false := by
  obtain ⟨objects,settled,normalized,absorbed,rfl⟩ := joinUnions_eq_some ended
  obtain ⟨membersU,noEnumsU,-⟩ := data_union.mp dataU
  have eq : settled = u.joined v objects := by
    simpa [absorbEnums,enums_joined dataU dataV objects] using absorbed.symm
  have members : (u.joined v objects).isEmpty = false := by
    by_contra lost
    have empty : (u.joined v objects).isEmpty = true := by simpa using lost
    refine absurd (isEmpty_of_contained (w := u) empty (by simp [Union.joined])
      (by simp [noEnumsU]) (fun name mem => by simp [Union.joined,mem]) fun o mem => ?_)
      (by simp [membersU])
    obtain ⟨z,inObjects,-⟩ := (becomes_normalized normalized).1 o (by simp [mem])
    exact ⟨z,inObjects⟩
  exact ⟨objects,normalized,by simp [eq,Ty.ofUnion,members],members⟩

lemma join_data {u : Ty} (dataS : s.Data) (dataT : t.Data) (ended : (within initial (depth + 1)).join s t = some u) :
    (s = .bottom ∧ u = t) ∨ (t = .bottom ∧ u = s) ∨ (u = .top ∧ (s = .top ∨ t = .top)) ∨
    (u = .unknown ∧ (s = .unknown ∨ t = .unknown)) ∨ ∃ a b objects, s = .union a ∧ t = .union b ∧
      normalizeObjects (mergeRules initial (.within initial depth)).combine (a.objects ++ b.objects) = some objects ∧
      u = .union (a.joined b objects) ∧ (a.joined b objects).isEmpty = false := by
  cases s with
  | bottom => exact .inl ⟨rfl,(Option.some.inj ended).symm⟩
  | top =>
    have top : u = .top := by cases t <;> exact (Option.some.inj ended).symm
    exact .inr (.inr (.inl ⟨top,.inl rfl⟩))
  | unknown =>
    by_cases top : t = .top
    · subst top
      exact .inr (.inr (.inl ⟨(Option.some.inj ended).symm,.inr rfl⟩))
    · have unknown : u = .unknown := by
        cases t with
        | top => exact absurd rfl top
        | bottom | unknown | union => exact (Option.some.inj ended).symm
      exact .inr (.inr (.inr (.inl ⟨unknown,.inl rfl⟩)))
  | union a =>
    cases t with
    | bottom => exact .inr (.inl ⟨rfl,(Option.some.inj ended).symm⟩)
    | top => exact .inr (.inr (.inl ⟨(Option.some.inj ended).symm,.inr rfl⟩))
    | unknown => exact .inr (.inr (.inr (.inl ⟨(Option.some.inj ended).symm,.inr rfl⟩)))
    | union b =>
      obtain ⟨objects,normalized,whole⟩ := joinUnions_data dataS dataT ended
      exact .inr (.inr (.inr (.inr ⟨a,b,objects,rfl,rfl,normalized,whole⟩)))

lemma keepsData (depth : Nat) : KeepsData depth := by
  induction depth with
  | zero => exact fun _ _ _ _ _ => nofun
  | succ depth ih =>
    intro s t u dataS dataT ended
    rcases join_data dataS dataT ended with ⟨-,rfl⟩ | ⟨-,rfl⟩ | ⟨rfl,-⟩ | ⟨rfl,-⟩ |
      ⟨a,b,objects,rfl,rfl,normalized,rfl,members⟩
    · exact dataT
    · exact dataS
    · exact .top
    · exact .unknown
    · have parts (o : Obj) (mem : o ∈ a.objects ++ b.objects) : o.Data :=
        (mem_append.mp mem).elim ((data_union.mp dataS).2.2.2 o) ((data_union.mp dataT).2.2.2 o)
      obtain ⟨data,unchanged⟩ := normalize_data ih parts normalized
      exact .union members (enums_joined dataS dataT objects) unchanged data

lemma Joins.data {u : Ty} (dataS : s.Data) (dataT : t.Data) (joins : initial.Joins s t u) : u.Data := by
  obtain ⟨depth,ended⟩ := joins
  exact keepsData depth s t u dataS dataT ended

end Combining
end Registry
end GradualJs
