import GradualJs.Table
import Mathlib.Tactic.Lemma

/-! The entries of a table come from what was written to it. -/
namespace GradualJs.Table

open List

variable {κ α : Type}

variable (key : κ) {pairs entries : List (κ × α)} {t : Table κ α}

/-- A table that is filled pair by pair has no entries but the pairs. -/
lemma mem_foldl (writes : ∀ t pair, ∀ entry ∈ (write t pair).entries, entry = pair ∨ entry ∈ t.entries)
    (start : Table κ α) (mem : entry ∈ (pairs.foldl write start).entries) :
    entry ∈ start.entries ∨ entry ∈ pairs := by
  induction pairs generalizing start with
  | nil => exact .inl mem
  | cons pair rest ih =>
    rcases ih _ mem with written | inRest
    · rcases writes start pair entry written with rfl | old
      · exact .inr mem_cons_self
      · exact .inl old
    · exact .inr (mem_cons_of_mem _ inRest)

lemma values_filterKeys_subset (keep : κ → Bool) (t : Table κ α) : (t.filterKeys keep).values ⊆ t.values :=
  map_subset _ filter_sublist.subset

structure AddsKeys (old : Table κ α) (added : List κ) (new : Table κ α) : Prop where
  distinct : old.keys.Nodup → new.keys.Nodup
  keys : ∀ key, key ∈ new.keys ↔ key ∈ old.keys ∨ key ∈ added

lemma AddsKeys.refl (t : Table κ α) : AddsKeys t [] t := ⟨id,by simp⟩

lemma AddsKeys.trans {old mid new : Table κ α} (adds : old.AddsKeys first mid) (further : mid.AddsKeys second new) :
    old.AddsKeys (first ++ second) new :=
  ⟨further.distinct ∘ adds.distinct,fun key => by
    rw [further.keys,adds.keys,mem_append,or_assoc]⟩

variable [DecidableEq κ]

lemma mem_of_lookup {key : κ} (found : lookup key entries = some value) : (key,value) ∈ entries := by
  induction entries with
  | nil => cases found
  | cons entry rest ih =>
    obtain ⟨first,old⟩ := entry
    simp only [lookup] at found
    split at found
    · rename_i eq
      cases found
      simp [eq]
    · exact mem_cons_of_mem _ (ih found)

lemma mem_values_of_get? {key : κ} (found : t.get? key = some value) : value ∈ t.values :=
  mem_map.mpr ⟨(key,value),mem_of_lookup found,rfl⟩

lemma mem_put {key : κ} (mem : entry ∈ put key value entries) : entry = (key,value) ∨ entry ∈ entries := by
  induction entries with
  | nil => exact .inl (by simpa [put] using mem)
  | cons first rest ih =>
    simp only [put] at mem
    split at mem
    · rename_i eq
      rcases mem_cons.mp mem with rfl | inRest
      · exact .inl (by rw [eq])
      · exact .inr (mem_cons_of_mem _ inRest)
    · rcases mem_cons.mp mem with rfl | inRest
      · exact .inr mem_cons_self
      · exact (ih inRest).imp_right (mem_cons_of_mem _)

lemma mem_insertNew {key : κ} (mem : entry ∈ (t.insertNew key value).entries) :
    entry = (key,value) ∨ entry ∈ t.entries := by
  unfold insertNew at mem
  split at mem
  · exact .inr mem
  · exact mem_put mem

lemma lookup_append (first second : List (κ × α)) :
    lookup key (first ++ second) = (lookup key first).or (lookup key second) := by
  induction first with
  | nil => rfl
  | cons entry rest ih =>
    rw [cons_append,lookup,lookup,ih]
    split <;> rfl

lemma lookup_flatMap {β : Type} (f : β → List (κ × α)) (list : List β) :
    lookup key (list.flatMap f) = list.findSome? fun b => lookup key (f b) := by
  induction list with
  | nil => rfl
  | cons b rest ih =>
    rw [flatMap_cons,lookup_append,ih,findSome?_cons]
    cases lookup key (f b) <;> rfl

lemma lookup_map {β : Type} (f : α → β) (entries : List (κ × α)) :
    lookup key (entries.map fun entry => (entry.1,f entry.2)) = (lookup key entries).map f := by
  induction entries with
  | nil => rfl
  | cons entry rest ih =>
    rw [map_cons,lookup,lookup,ih]
    split <;> rfl

/-- Pairs that are added without overriding are found unless an earlier one has the key. -/
lemma get?_foldl_insertNew (pairs : List (κ × α)) (t : Table κ α) :
    (pairs.foldl (fun t pair => t.insertNew pair.1 pair.2) t).get? key = (t.get? key).or (lookup key pairs) := by
  induction pairs generalizing t with
  | nil => simp [lookup]
  | cons pair rest ih =>
    rw [foldl_cons,ih,insertNew,contains,lookup]
    by_cases eq : pair.1 = key
    · subst eq
      cases present : t.get? pair.1 <;> simp [present]
    · split <;> simp [get?_insert,eq]

lemma mem_of_mem_ofList (mem : entry ∈ (ofList pairs).entries) : entry ∈ pairs := by
  rcases mem_foldl (fun _ _ _ => mem_put) empty mem with inEmpty | inPairs
  · cases inEmpty
  · exact inPairs

lemma isSome_lookup {key : κ} {entries : List (κ × α)} : (lookup key entries).isSome ↔ key ∈ entries.map (·.1) := by
  induction entries with
  | nil => simp [lookup]
  | cons entry rest ih =>
    obtain ⟨found,value⟩ := entry
    by_cases eq : found = key
    · simp [lookup,eq]
    · simp [lookup,eq,Ne.symm eq,ih]

lemma lookup_of_mem {key : κ} {entries : List (κ × α)}
    (distinct : (entries.map (·.1)).Nodup) (mem : (key,value) ∈ entries) :
    lookup key entries = some value := by
  induction entries with
  | nil => cases mem
  | cons entry rest ih =>
    obtain ⟨found,old⟩ := entry
    obtain ⟨fresh,others⟩ := nodup_cons.mp distinct
    rcases mem_cons.mp mem with eq | inRest
    · cases eq
      simp [lookup]
    · have differs : found ≠ key := by
        rintro rfl
        exact fresh (mem_map.mpr ⟨_,inRest,rfl⟩)
      simpa [lookup,differs] using ih others inRest

lemma nodup_insert {t : Table κ α} (distinct : t.keys.Nodup) (key : κ) (value : α) :
    (t.insert key value).keys.Nodup := by
  rw [keys_insert]
  split
  · exact distinct
  · rename_i absent
    have fresh : key ∉ t.keys := fun mem => absent (isSome_lookup.mpr mem)
    exact nodup_append.mpr ⟨distinct,by simp,by grind⟩

lemma AddsKeys.insert (t : Table κ α) (key : κ) (value : α) : t.AddsKeys [key] (t.insert key value) := by
  refine ⟨fun distinct => nodup_insert distinct key value,fun other => ?_⟩
  rw [keys_insert,mem_singleton]
  split
  · rename_i present
    have listed : key ∈ t.keys := isSome_lookup.mp present
    grind
  · simp

structure Grows (old new : Table κ α) : Prop where
  distinct : old.keys.Nodup → new.keys.Nodup
  kept {key : κ} {value : α} : old.get? key = some value → new.get? key = some value

lemma Grows.refl (t : Table κ α) : t.Grows t := ⟨id,id⟩

lemma Grows.insertNew {old new : Table κ α} (grows : old.Grows new) (key : κ) (value : α) :
    old.Grows (new.insertNew key value) := by
  unfold Table.insertNew
  split
  · exact grows
  · rename_i absent
    refine ⟨fun distinct => nodup_insert (grows.distinct distinct) key value,fun found => ?_⟩
    have kept := grows.kept found
    rw [get?_insert_of_ne _ _ fun eq => absent ?_]
    · exact kept
    · rw [eq,contains,kept,Option.isSome_some]

lemma get?_ofList {pairs : List (κ × α)} {key : κ} (listed : key ∈ pairs.map (·.1)) :
    ∃ value, (ofList pairs).get? key = some value ∧ (key,value) ∈ pairs := by
  have present (start : Table κ α) (pairs : List (κ × α)) (held : (start.get? key).isSome ∨ key ∈ pairs.map (·.1)) :
      ((pairs.foldl (fun t pair => t.insert pair.1 pair.2) start).get? key).isSome := by
    induction pairs generalizing start with
    | nil => simpa using held
    | cons pair rest ih =>
      refine ih _ ?_
      by_cases eq : pair.1 = key
      · simp [eq]
      · simpa [get?_insert_of_ne _ _ eq,Ne.symm eq] using held
  obtain ⟨value,found⟩ := Option.isSome_iff_exists.mp (present empty pairs (.inr listed))
  exact ⟨value,found,mem_of_mem_ofList (mem_of_lookup found)⟩

lemma nodup_ofList (pairs : List (κ × α)) : (ofList pairs).keys.Nodup := by
  have kept (start : Table κ α) (distinct : start.keys.Nodup) :
      (pairs.foldl (fun t pair => t.insert pair.1 pair.2) start).keys.Nodup := by
    induction pairs generalizing start with
    | nil => exact distinct
    | cons pair rest ih => exact ih _ (nodup_insert distinct pair.1 pair.2)
  exact kept empty (by simp [keys,empty])

end GradualJs.Table
