import GradualJs.Check
import GradualJs.Proofs.Call
import GradualJs.Proofs.Declarations.Collecting
import GradualJs.Proofs.Registry.Outline
import GradualJs.Proofs.Ty.Normalize

/-! Who may silence a report. A region hides whatever lies inside it by its lines alone. So externs
that differ only in what they suppress show the same reports if and only if they hide the same ones
among those that the program itself does not hide. -/
namespace GradualJs

open List Declarations Diagnostic

variable {d other : Diagnostic} {reports raw found : List Diagnostic} {s : Suppressions}

namespace Declarations

/-- What a program and its externs declare does not depend on what their comments suppress. -/
lemma collect_loud (program : Program) (externs : Option Program) (legacy : Bool) :
    (collect program.loud (externs.map Program.loud) legacy).map (fun d => (d.registry,d.diagnostics)) =
      (collect program externs legacy).map fun d => (d.registry,d.diagnostics) := by
  have registered := (reads_registration program externs).mirrors {}
  have always : Collecting.Invariant fun _ => True := by
    refine ⟨⟨?_,?_,?_,?_⟩,⟨?_,?_⟩,⟨?_,fun _ _ _ _ => id⟩⟩ <;> intros <;> trivial
  have resolved (c : Collection) := (Collecting.keeps_resolution always program externs legacy c trivial).2
  unfold collect
  generalize (registration program externs).run {} = first at registered ⊢
  obtain ⟨_,c⟩ := first
  rw [show (registration program.loud (externs.map Program.loud)).run {} = ((),c.loud) from registered]
  dsimp only
  rw [resolved c]
  cases (resolution program externs legacy).run c with
  | none | some res => rfl

/-- So it is the same for externs that differ only in what they suppress. -/
lemma collect_congr (program : Program) {e e' : Program} (legacy : Bool) (eq : e.loud = e'.loud) :
    (collect program (some e) legacy).map (fun d => (d.registry,d.diagnostics)) =
      (collect program (some e') legacy).map fun d => (d.registry,d.diagnostics) := by
  rw [← collect_loud program (some e),← collect_loud program (some e'), Option.map_some,Option.map_some,eq]

end Declarations

section Sorting

variable {α : Type} {notAfter : α → α → Bool}

lemma insertSorted_of_first (first : ∀ b ∈ list, notAfter a b = true) : insertSorted notAfter a list = a :: list := by
  cases list with
  | nil => rfl
  | cons b rest => rw [insertSorted,if_pos (first b mem_cons_self)]

lemma filter_insertSorted (trans : ∀ a b c, notAfter a b → notAfter b c → notAfter a c)
    (wanted : α → Bool) {list : List α} (sorted : list.Pairwise (notAfter · ·)) :
    (insertSorted notAfter a list).filter wanted =
      if wanted a then insertSorted notAfter a (list.filter wanted) else list.filter wanted := by
  induction list with
  | nil => simp [insertSorted,filter_cons]
  | cons b rest ih =>
    obtain ⟨first,others⟩ := pairwise_cons.mp sorted
    have ih := ih others
    by_cases pre : notAfter a b = true
    · have all : ∀ c ∈ (b :: rest).filter wanted, notAfter a c = true := by
        intro c mem
        rcases mem_cons.mp (mem_of_mem_filter mem) with rfl | later
        · exact pre
        · exact trans a b c pre (first c later)
      rw [insertSorted,if_pos pre,filter_cons,insertSorted_of_first all]
    · rw [insertSorted,if_neg pre,filter_cons,filter_cons,ih]
      by_cases wantsA : wanted a = true <;> by_cases wantsB : wanted b = true <;>
        simp [wantsA,wantsB,insertSorted,pre]

lemma filter_stableSort (total : ∀ a b, notAfter a b = false → notAfter b a = true)
    (trans : ∀ a b c, notAfter a b → notAfter b c → notAfter a c) (wanted : α → Bool) (list : List α) :
    (stableSort notAfter list).filter wanted = stableSort notAfter (list.filter wanted) := by
  induction list with
  | nil => rfl
  | cons a rest ih =>
    rw [stableSort,filter_insertSorted trans wanted (pairwise_stableSort total trans rest),ih,filter_cons]
    split <;> rfl

end Sorting

namespace Diagnostic

lemma notAfter_total (d other : Diagnostic) (after : d.notAfter other = false) : other.notAfter d = true := by
  obtain ⟨_,_,_,_ | place⟩ := d <;> obtain ⟨_,_,_,_ | otherPlace⟩ := other
  · rfl
  · rfl
  · cases after
  · simp only [notAfter,Span.notAfter,Bool.or_eq_false_iff,Bool.or_eq_true,Bool.and_eq_true,
      Bool.and_eq_false_iff,decide_eq_true_eq,decide_eq_false_iff_not,beq_iff_eq,
      beq_eq_false_iff_ne] at *
    omega

lemma notAfter_trans (a b c : Diagnostic) (first : a.notAfter b = true)
    (second : b.notAfter c = true) : a.notAfter c = true := by
  obtain ⟨_,_,_,_ | place⟩ := c
  · obtain ⟨_,_,_,_ | _⟩ := a <;> rfl
  · obtain ⟨_,_,_,_ | mid⟩ := b
    · cases second
    · obtain ⟨_,_,_,_ | start⟩ := a
      · cases first
      · simp only [notAfter,Span.notAfter,Bool.or_eq_true,Bool.and_eq_true,decide_eq_true_eq, beq_iff_eq] at *
        omega

lemma repeats_iff : d.repeats other = true ↔ d.kind = other.kind ∧ d.span = other.span ∧ d.message = other.message := by
  simp [repeats,and_assoc]

lemma repeats_self (d : Diagnostic) : d.repeats d = true := repeats_iff.mpr ⟨rfl,rfl,rfl⟩

lemma repeats_symm (eq : d.repeats other = true) : other.repeats d = true := by
  obtain ⟨kind,span,message⟩ := repeats_iff.mp eq
  exact repeats_iff.mpr ⟨kind.symm,span.symm,message.symm⟩

lemma repeats_trans {a b c : Diagnostic} (first : a.repeats b = true)
    (second : b.repeats c = true) : a.repeats c = true := by
  obtain ⟨kind,span,message⟩ := repeats_iff.mp first
  obtain ⟨kind',span',message'⟩ := repeats_iff.mp second
  exact repeats_iff.mpr ⟨kind.trans kind',span.trans span',message.trans message'⟩

lemma repeats_congr (eq : d.repeats other = true) : d.repeats = other.repeats := by
  funext reported
  apply Bool.eq_iff_iff.mpr
  exact ⟨fun repeats => repeats_trans (repeats_symm eq) repeats,fun repeats => repeats_trans eq repeats⟩

/-- What cannot tell repeats apart may be asked before or after they are dropped. -/
lemma filter_dropRepeats (respects : ∀ d other, d.repeats other = true → wanted d = wanted other)
    (reports : List Diagnostic) :
    (dropRepeats reports).filter wanted = dropRepeats (reports.filter wanted) := by
  induction reports with
  | nil => rfl
  | cons d rest ih =>
    rw [dropRepeats,filter_cons,filter_cons]
    by_cases wants : wanted d = true
    · rw [if_pos wants,if_pos wants,dropRepeats,← ih,filter_filter,filter_filter]
      simp only [Bool.and_comm]
    · rw [if_neg wants,if_neg wants,← ih,filter_filter]
      refine filter_congr fun other _ => ?_
      by_cases eq : d.repeats other = true
      · have unwanted := respects d other eq
        simp_all
      · simp [eq]

lemma mem_of_mem_dropRepeats (mem : d ∈ dropRepeats reports) : d ∈ reports := by
  induction reports with
  | nil => exact mem
  | cons first rest ih =>
    rcases mem_cons.mp mem with rfl | later
    · exact mem_cons_self
    · exact mem_cons_of_mem _ (ih (mem_of_mem_filter later))

lemma exists_mem_dropRepeats (mem : d ∈ reports) : ∃ kept ∈ dropRepeats reports, kept.repeats d = true := by
  induction reports with
  | nil => cases mem
  | cons first rest ih =>
    by_cases eq : first.repeats d = true
    · exact ⟨first,mem_cons_self,eq⟩
    · rcases mem_cons.mp mem with rfl | later
      · exact absurd (repeats_self d) eq
      · obtain ⟨kept,inRest,repeats⟩ := ih later
        refine ⟨kept,mem_cons_of_mem _ (mem_filter.mpr ⟨inRest,?_⟩),repeats⟩
        by_cases again : first.repeats kept = true
        · exact absurd (repeats_trans again repeats) eq
        · simp [again]

end Diagnostic

namespace Suppressions

lemma suppresses_append (first second : List (Span × List String)) (d : Diagnostic) :
    (⟨first ++ second⟩ : Suppressions).suppresses d =
      ((⟨first⟩ : Suppressions).suppresses d || (⟨second⟩ : Suppressions).suppresses d) := by
  unfold suppresses
  split
  · rfl
  · rw [any_append]

lemma suppresses_of_repeats (s : Suppressions) (eq : d.repeats other = true) : s.suppresses d = s.suppresses other := by
  obtain ⟨kind,span,-⟩ := repeats_iff.mp eq
  unfold suppresses
  rw [kind,span]

lemma not_suppressed_of_mem_select (mem : d ∈ s.select raw) : s.suppresses d = false := by
  have kept := mem_of_mem_dropRepeats (mem_stableSort.mp mem)
  simpa using (mem_filter.mp kept).2

lemma exists_mem_select (mem : d ∈ raw) (shown : s.suppresses d = false) :
    ∃ kept ∈ s.select raw, kept.repeats d = true := by
  have wanted : d ∈ raw.filter (!s.suppresses ·) := mem_filter.mpr ⟨mem,by simp [shown]⟩
  obtain ⟨kept,inDropped,repeats⟩ := exists_mem_dropRepeats wanted
  exact ⟨kept,mem_stableSort.mpr inDropped,repeats⟩

lemma filter_select (s : Suppressions) (respects : ∀ d other, d.repeats other = true → wanted d = wanted other)
    (raw : List Diagnostic) : (s.select raw).filter wanted = s.select (raw.filter wanted) := by
  unfold select sortByPosition
  rw [filter_stableSort notAfter_total notAfter_trans, filter_dropRepeats respects,filter_filter,filter_filter]
  simp only [Bool.and_comm]

end Suppressions

namespace CheckResult

/-- Whether a report says what one of the given ones says. -/
def isAmong (found : List Diagnostic) (d : Diagnostic) : Bool := found.any d.repeats

def showing (res : CheckResult) (found : List Diagnostic) : List Diagnostic := res.diagnostics.filter (isAmong found)

lemma isAmong_of_repeats (found : List Diagnostic) (d other : Diagnostic)
    (eq : d.repeats other = true) : isAmong found d = isAmong found other := by
  rw [isAmong,repeats_congr eq,isAmong]

end CheckResult

namespace Suppressions

open CheckResult

/-- Two ways to suppress show the same of what was found if and only if they hide the same. -/
lemma filter_select_eq_iff (s s' : Suppressions) (reported : ∀ d ∈ found, d ∈ raw) :
    (s.select raw).filter (isAmong found) = (s'.select raw).filter (isAmong found) ↔
      ∀ d ∈ found, s.suppresses d = s'.suppresses d := by
  constructor
  · intro eq d mem
    have shown (t t' : Suppressions)
        (eq : (t.select raw).filter (isAmong found) = (t'.select raw).filter (isAmong found))
        (hidden : t.suppresses d = true) : t'.suppresses d = true := by
      by_contra shown
      obtain ⟨kept,selected,repeats⟩ := exists_mem_select (reported d mem) (eq_false_of_ne_true shown)
      have among : isAmong found kept = true := any_eq_true.mpr ⟨d,mem,repeats⟩
      have alsoKept : kept ∈ (t.select raw).filter (isAmong found) := eq ▸ mem_filter.mpr ⟨selected,among⟩
      have visible := not_suppressed_of_mem_select (mem_of_mem_filter alsoKept)
      rw [t.suppresses_of_repeats repeats,hidden] at visible
      cases visible
    exact Bool.eq_iff_iff.mpr ⟨shown s s' eq,shown s' s eq.symm⟩
  · intro eq
    rw [filter_select s (isAmong_of_repeats found),filter_select s' (isAmong_of_repeats found)]
    unfold select
    congr 2
    refine filter_congr fun d mem => ?_
    obtain ⟨reported,inFound,repeats⟩ := any_eq_true.mp (mem_filter.mp mem).2
    rw [s.suppresses_of_repeats repeats,s'.suppresses_of_repeats repeats,eq reported inFound]

end Suppressions

namespace Registry

/-- What is reported about the code of a program: by its flow, and for the calls that were put
off. -/
def codeReports (r : Registry) (options : Options) (program : Program) : Option (List Diagnostic) := do
  let flow ← Flow.analyze r options program
  return (← (r.replay flow.summaries flow.deferred.values).run flow.diagnostics).2

end Registry

namespace Options

/-- What is reported about the code of a program when its externs are known. -/
def codeReports (options : Options) (program : Program) (externs : Option Program) : Option (List Diagnostic) := do
  let declared ← collect program externs options.legacyCompatibility
  declared.registry.codeReports options program

/-- A check shows what the declarations and the code give rise to and what is not suppressed. -/
lemma check_eq (options : Options) (program : Program) (externs : Option Program) :
    (options.check program externs).map (·.diagnostics) =
      (collect program externs options.legacyCompatibility).bind fun declared =>
        (declared.registry.codeReports options program).map fun found =>
          declared.suppressions.select (declared.diagnostics ++ found) := by
  unfold check
  cases collect program externs options.legacyCompatibility with
  | none => rfl
  | some declared =>
    simp only [Option.bind_eq_bind,Option.bind_some,Registry.codeReports]
    cases Flow.analyze declared.registry options program with
    | none => rfl
    | some flow =>
      have appended := declared.registry.appends_replay flow.summaries flow.deferred.values
        declared.diagnostics flow.diagnostics
      simp only [Option.bind_some,appended]
      cases (declared.registry.replay flow.summaries flow.deferred.values).run flow.diagnostics with
      | none | some res => rfl

lemma check_eq_none_iff (options : Options) (program : Program) (externs : Option Program) :
    options.check program externs = none ↔ options.codeReports program externs = none := by
  rw [← Option.map_eq_none_iff (f := (·.diagnostics)),check_eq]
  unfold codeReports
  cases collect program externs options.legacyCompatibility with
  | none => exact Iff.rfl
  | some declared => exact Option.map_eq_none_iff

lemma check_of_codeReports {options : Options} {program e : Program}
    (reports : options.codeReports program (some e) = some found) : ∃ declared res,
      collect program (some e) options.legacyCompatibility = some declared ∧
      options.check program (some e) = some res ∧
      res.diagnostics = declared.suppressions.select (declared.diagnostics ++ found) ∧
      ∀ d, declared.suppressions.suppresses d = (e.suppressions.suppresses d || program.suppressions.suppresses d) := by
  obtain ⟨declared,collected,followed⟩ := Option.bind_eq_some_iff.mp reports
  have checked := options.check_eq program (some e)
  rw [collected,Option.bind_some,followed,Option.map_some] at checked
  obtain ⟨res,ended,shown⟩ := Option.map_eq_some_iff.mp checked
  refine ⟨declared,res,collected,ended,shown,fun d => ?_⟩
  obtain ⟨_,-,built⟩ := Option.bind_eq_some_iff.mp collected
  cases built
  exact Suppressions.suppresses_append e.suppressions.regions _ d

lemma codeReports_congr (options : Options) (program : Program) {e e' : Program} (eq : e.loud = e'.loud) :
    options.codeReports program (some e) = options.codeReports program (some e') := by
  have declared := collect_congr program options.legacyCompatibility eq
  have reports (externs : Option Program) : options.codeReports program externs =
      ((collect program externs options.legacyCompatibility).map
        fun d => (d.registry,d.diagnostics)).bind (·.1.codeReports options program) := by
    unfold codeReports
    cases collect program externs options.legacyCompatibility <;> rfl
  rw [reports,reports,declared]

/-- Externs that differ only in what they suppress give rise to the same reports about the code of
a program. A check shows the same of them if and only if the externs hide the same among those
that the program does not hide. -/
theorem externs_silence_iff (options : Options) (program : Program) {e e' : Program} (eq : e.loud = e'.loud) :
    options.codeReports program (some e) = options.codeReports program (some e') ∧
    (options.codeReports program (some e) = none →
      options.check program (some e) = none ∧ options.check program (some e') = none) ∧
    ∀ found, options.codeReports program (some e) = some found → ∃ res res', options.check program (some e) = some res ∧
        options.check program (some e') = some res' ∧ (res.showing found = res'.showing found ↔
          ∀ d ∈ found, program.suppressions.suppresses d = false →
            e.suppressions.suppresses d = e'.suppressions.suppresses d) := by
  have reports := options.codeReports_congr program eq
  refine ⟨reports,fun missing => ?_,fun found reported => ?_⟩
  · exact ⟨(options.check_eq_none_iff program _).mpr missing,
      (options.check_eq_none_iff program _).mpr (reports ▸ missing)⟩
  · obtain ⟨declared,res,collected,ended,shown,hides⟩ := check_of_codeReports reported
    obtain ⟨declared',res',collected',ended',shown',hides'⟩ := check_of_codeReports (reports ▸ reported)
    have diagnostics : declared'.diagnostics = declared.diagnostics := by
      have declared := Declarations.collect_congr program options.legacyCompatibility eq
      rw [collected,collected'] at declared
      exact (congrArg Prod.snd (Option.some.inj declared)).symm
    refine ⟨res,res',ended,ended',?_⟩
    unfold CheckResult.showing
    rw [shown,shown',diagnostics,Suppressions.filter_select_eq_iff _ _ fun d mem =>
      List.mem_append_right _ mem]
    refine forall₂_congr fun d mem => ?_
    rw [hides,hides']
    cases program.suppressions.suppresses d <;> simp

end Options

namespace Logging

/-- Externs that declare one function and suppress kinds of reports inside it. -/
def library (span : Span) (names : List String) : Program where
  statements := [.function ⟨"log",{}⟩ {
    id := 9, parameters := [⟨"text",{}⟩], body := ⟨[],{}⟩, span
    jsdoc := some {suppressions := names}}]

def program : Program where
  statements := [.var .var [{
    name := ⟨"count",⟨3,5,3,10⟩⟩
    initializer := some ⟨⟨3,13,3,20⟩,.literal (.string "three")⟩}]
    (some {declaredType := some (Outline.named "number" [])}) ⟨3,1,3,21⟩]

/-- Lines of the library before, around and behind those of the program. -/
def around : Span := ⟨1,1,9,2⟩
def behind : Span := ⟨20,1,29,2⟩

def shown (externs : Program) : Option (List DiagnosticKind) :=
  (Options.check {} program (some externs)).map fun res => res.diagnostics.map (·.kind)

lemma logging_checked : (Options.codeReports {} program (some (library behind ["checkTypes"]))).map (fun found =>
      (found.map (·.kind),found.all fun d => (library behind ["checkTypes"]).suppressions.suppresses d =
        (library behind []).suppressions.suppresses d)) = some ([.mistypedAssignRhs],true) ∧
    shown (library around []) = some [.mistypedAssignRhs] ∧
    shown (library around ["checkTypes"]) = some [] := by
  decide +kernel

end Logging

open Logging Options in
/-- A library does not hide what lies outside its lines. -/
theorem externs_silence_behind : (library behind ["checkTypes"]).loud = (library behind []).loud ∧ ∃ found res res',
      codeReports {} program (some (library behind ["checkTypes"])) = some found ∧
      found.map (·.kind) = [.mistypedAssignRhs] ∧
      check {} program (some (library behind ["checkTypes"])) = some res ∧
      check {} program (some (library behind [])) = some res' ∧
      res.showing found = res'.showing found := by
  have eq : (library behind ["checkTypes"]).loud = (library behind []).loud := rfl
  obtain ⟨found,followed,facts⟩ := Option.map_eq_some_iff.mp logging_checked.1
  obtain ⟨kinds,alike⟩ := Prod.mk.inj facts
  obtain ⟨-,-,shown⟩ := externs_silence_iff {} program eq
  obtain ⟨res,res',ended,ended',iff⟩ := shown found followed
  refine ⟨eq,found,res,res',followed,kinds,ended,ended',iff.mpr ?_⟩
  intro d mem _
  exact of_decide_eq_true (List.all_eq_true.mp alike d mem)

open Logging in
/-- A comment of the library hides an error of the program on the same lines. -/
theorem externs_silence_around : (library around ["checkTypes"]).loud = (library around []).loud ∧
    shown (library around []) = some [.mistypedAssignRhs] ∧ shown (library around ["checkTypes"]) = some [] :=
  ⟨rfl,logging_checked.2⟩

end GradualJs
