import GradualJs.Proofs.Suppression.Externs

/-! What a check shows of all that was found: everything that no region hides is shown once, in
order, and reports at one place stand as they were first made. -/
namespace GradualJs

open Diagnostic List

variable {d other : Diagnostic}

namespace Diagnostic

/-- Where a report is shown; a report without a place has no position. -/
def position (d : Diagnostic) : Option (Nat × Nat) := d.span.map fun s => (s.line,s.column)

/-- The report may stand before the other: behind reports without a place no other comes. -/
def Precedes (d other : Diagnostic) : Prop :=
  ∀ later, other.position = some later → ∃ sooner, d.position = some sooner ∧
    (sooner.1 < later.1 ∨ sooner.1 = later.1 ∧ sooner.2 ≤ later.2)

/-- How many reports were made before one first said this. -/
def firstMade (raw : List Diagnostic) (d : Diagnostic) : Nat := raw.findIdx d.repeats

lemma precedes_of_notAfter (ordered : d.notAfter other = true) : d.Precedes other := by
  obtain ⟨_,_,_,_ | place⟩ := d <;> obtain ⟨_,_,_,_ | otherPlace⟩ := other <;>
    rintro later found <;> cases found
  · cases ordered
  · refine ⟨_,rfl,?_⟩
    simpa [notAfter,Span.notAfter] using ordered

lemma notAfter_of_position (eq : d.position = other.position) : d.notAfter other = true := by
  obtain ⟨_,_,_,_ | place⟩ := d <;> obtain ⟨_,_,_,_ | otherPlace⟩ := other
  · rfl
  · cases eq
  · cases eq
  · simp only [position,Option.map_some,Option.some.injEq,Prod.mk.injEq] at eq
    simp [notAfter,Span.notAfter,eq.1,eq.2]

lemma firstMade_of_repeats (raw : List Diagnostic)
    (eq : d.repeats other = true) : firstMade raw d = firstMade raw other := by
  rw [firstMade,repeats_congr eq,firstMade]

lemma pairwise_dropRepeats (raw : List Diagnostic) :
    (dropRepeats raw).Pairwise fun d other => firstMade raw d < firstMade raw other := by
  induction raw with
  | nil => exact .nil
  | cons first rest ih =>
    have later {d : Diagnostic} (other : first.repeats d = false) :
        firstMade (first :: rest) d = firstMade rest d + 1 := by
      have apart : d.repeats first = false := Bool.eq_false_iff.mpr fun eq => by simp [repeats_symm eq] at other
      simp [firstMade,findIdx_cons,apart]
    have kept {d : Diagnostic} (mem : d ∈ (dropRepeats rest).filter (!first.repeats ·)) :
        first.repeats d = false := by simpa using (mem_filter.mp mem).2
    refine pairwise_cons.mpr ⟨?_,?_⟩
    · intro d mem
      rw [later (kept mem)]
      simp [firstMade,findIdx_cons,repeats_self]
    · refine (ih.filter _).imp_of_mem ?_
      intro d other inRest otherInRest sooner
      rw [later (kept inRest),later (kept otherInRest)]
      omega

/-- Sorting changes nothing among the reports at one place. -/
lemma filter_sortByPosition (place : Option (Nat × Nat)) (reports : List Diagnostic) :
    (sortByPosition reports).filter (·.position = place) = reports.filter (·.position = place) := by
  unfold sortByPosition
  rw [filter_stableSort notAfter_total notAfter_trans]
  apply stableSort_eq_self
  refine pairwise_of_forall_mem_list fun d mem other otherMember => ?_
  apply notAfter_of_position
  simp only [mem_filter,decide_eq_true_eq] at mem otherMember
  rw [mem.2,otherMember.2]

end Diagnostic

namespace Suppressions

/-- A region around the report lists its kind or its group. -/
def Hides (s : Suppressions) (d : Diagnostic) : Prop :=
  ∃ region names span, (region,names) ∈ s.regions ∧ d.span = some span ∧
    region.contains span = true ∧ (d.kind.name ∈ names ∨ d.kind.group ∈ names)

/-- The reports that are shown of those that were made. -/
structure Shows (s : Suppressions) (raw shown : List Diagnostic) : Prop where
  sorted : shown.Pairwise Precedes
  once : shown.Pairwise fun d other =>
    ¬(d.kind = other.kind ∧ d.span = other.span ∧ d.message = other.message)
  made : ∀ d ∈ shown, d ∈ raw
  complete : ∀ d ∈ raw, (∃ kept ∈ shown, kept.kind = d.kind ∧ kept.span = d.span ∧
    kept.message = d.message) ↔ ¬s.Hides d
  stable : shown.Pairwise fun d other => d.position = other.position → firstMade raw d < firstMade raw other

lemma suppresses_iff {s : Suppressions} : s.suppresses d = true ↔ s.Hides d := by
  unfold suppresses Hides
  split
  · simp_all
  · simp_all only [any_eq_true,Bool.and_eq_true,Bool.or_eq_true,decide_eq_true_eq, Option.some.injEq,Prod.exists]
    constructor
    · rintro ⟨region,names,mem,inside,name,listed,rfl | rfl⟩
      · exact ⟨region,names,_,mem,rfl,inside,.inl listed⟩
      · exact ⟨region,names,_,mem,rfl,inside,.inr listed⟩
    · rintro ⟨region,names,_,mem,rfl,inside,listed | listed⟩
      · exact ⟨region,names,mem,inside,_,listed,.inl rfl⟩
      · exact ⟨region,names,mem,inside,_,listed,.inr rfl⟩

variable (s : Suppressions) (raw : List Diagnostic)

/-- Whether a report is hidden may be asked before or after repeats are dropped. -/
lemma select_eq : s.select raw = sortByPosition ((dropRepeats raw).filter (!s.suppresses ·)) := by
  unfold select
  rw [filter_dropRepeats]
  intro d other eq
  rw [s.suppresses_of_repeats eq]

lemma stable_select : (s.select raw).Pairwise fun d other => d.position = other.position →
      firstMade raw d < firstMade raw other := by
  refine pairwise_iff_forall_sublist.mpr fun {d other} both eq => ?_
  -- Both are at one place, where the list was not changed by sorting it.
  have there := both.filter (·.position = other.position)
  rw [select_eq,filter_sortByPosition] at there
  have kept : [d,other].Sublist (dropRepeats raw) := by
    have dropped := there.trans (filter_sublist.trans filter_sublist)
    simpa [eq] using dropped
  exact pairwise_iff_forall_sublist.mp (pairwise_dropRepeats raw) kept

lemma once_select : (s.select raw).Pairwise fun d other => d.repeats other = false := by
  refine (s.stable_select raw).imp fun {d other} ordered => ?_
  refine Bool.eq_false_iff.mpr fun eq => ?_
  obtain ⟨-,span,-⟩ := repeats_iff.mp eq
  have sooner := ordered (by rw [position,span,position])
  rw [firstMade_of_repeats raw eq] at sooner
  exact Nat.lt_irrefl _ sooner

lemma shows_select : s.Shows raw (s.select raw) where
  sorted := (pairwise_stableSort notAfter_total notAfter_trans _).imp precedes_of_notAfter
  once := (s.once_select raw).imp fun other eq => by
    simp [repeats_iff.mpr eq] at other
  made d mem := mem_of_mem_filter (mem_of_mem_dropRepeats (mem_stableSort.mp mem))
  complete d mem := by
    simp only [← repeats_iff,← suppresses_iff,Bool.not_eq_true]
    constructor
    · rintro ⟨kept,selected,eq⟩
      rw [← s.suppresses_of_repeats eq]
      exact not_suppressed_of_mem_select selected
    · exact exists_mem_select mem
  stable := s.stable_select raw

end Suppressions

/-- Whatever was reported and suppressed: what is left is sorted, says nothing twice, and is all
that no region hides. A check shows what is left of the reports about the declarations, then the
flow, then the calls that were put off. -/
theorem unsuppressed_shown_once (options : Options) (program : Program) (externs : Option Program) {res : CheckResult}
    (checked : options.check program externs = some res) :
    (∀ (s : Suppressions) raw, s.Shows raw (s.select raw)) ∧ ∃ declared flow count replayed,
      Declarations.collect program externs options.legacyCompatibility = some declared ∧
      Flow.analyze declared.registry options program = some flow ∧
      (declared.registry.replay flow.summaries flow.deferred.values).run [] = some (count,replayed) ∧
      declared.suppressions.Shows (declared.diagnostics ++ flow.diagnostics ++ replayed)
        res.diagnostics := by
  refine ⟨Suppressions.shows_select,?_⟩
  obtain ⟨declared,collected,checked⟩ := Option.bind_eq_some_iff.mp checked
  obtain ⟨flow,followed,checked⟩ := Option.bind_eq_some_iff.mp checked
  obtain ⟨⟨_,raw⟩,ran,eq⟩ := Option.bind_eq_some_iff.mp checked
  rw [(declared.registry.appends_replay _ _).run] at ran
  obtain ⟨⟨count,replayed⟩,replays,rfl,rfl⟩ := Option.map_eq_some_iff.mp ran
  cases eq
  exact ⟨declared,flow,count,replayed,collected,followed,replays,Suppressions.shows_select _ _⟩

open Logging in
theorem unsuppressed_shown_once_logging : ∃ res declared flow count replayed,
    Options.check {} program (some (library around [])) = some res ∧
    res.diagnostics.map (·.kind) = [.mistypedAssignRhs] ∧
    Declarations.collect program (some (library around [])) false = some declared ∧
    Flow.analyze declared.registry {} program = some flow ∧
    (declared.registry.replay flow.summaries flow.deferred.values).run [] = some (count,replayed) ∧
    declared.suppressions.Shows (declared.diagnostics ++ flow.diagnostics ++ replayed)
      res.diagnostics := by
  obtain ⟨res,checked,kinds⟩ := Option.map_eq_some_iff.mp logging_checked.2.1
  obtain ⟨-,declared,flow,count,replayed,facts⟩ := unsuppressed_shown_once {} _ _ checked
  exact ⟨res,declared,flow,count,replayed,checked,kinds,facts⟩

end GradualJs
