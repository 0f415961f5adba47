import GradualJs.Proofs.Call
import GradualJs.Proofs.Summaries
import GradualJs.Proofs.Ty.DecidableEq
import Mathlib.Data.List.Induction

/-! Which of the calls that were put off are checked in the end. What is pending is kept by source
span, so the last one of each call expression is checked exactly where call expressions with one
span agree on what they put off last. -/
namespace GradualJs

open List Option

variable {log : List DeferredCall}

/-- Of the calls with the label, this is the last one. -/
def LastOf {ν : Type} (calls : List (ν × DeferredCall)) (label : ν) (call : DeferredCall) : Prop :=
  ∃ pre after, calls = pre ++ (label,call) :: after ∧ ∀ later ∈ after, later.1 ≠ label

lemma LastOf.mem {ν : Type} {calls : List (ν × DeferredCall)} {label : ν}
    (last : LastOf calls label call) : (label,call) ∈ calls := by
  obtain ⟨pre,after,split,-⟩ := last
  simp [split]

namespace DeferredCalls

def ofLog (log : List DeferredCall) : DeferredCalls := log.foldl defer {}

lemma get?_ofLog (log : List DeferredCall) (span : Span) :
    (ofLog log).get? span = log.reverse.find? (·.site.span = span) := by
  induction log using reverseRecOn with
  | nil => rfl
  | append_singleton log call ih =>
    rw [ofLog,foldl_concat,defer,Table.get?_insert,reverse_concat,find?_cons]
    by_cases eq : call.site.span = span
    · simp [eq]
    · simpa [ofLog,eq] using ih

lemma nodup_ofLog (log : List DeferredCall) : (ofLog log).keys.Nodup := by
  induction log using reverseRecOn with
  | nil => exact nodup_nil
  | append_singleton log call ih =>
    rw [ofLog,foldl_concat]
    exact Table.nodup_insert ih _ _

lemma mem_values_ofLog {call : DeferredCall} : call ∈ (ofLog log).values ↔ ∃ pre after, log = pre ++ call :: after ∧
      ∀ later ∈ after, later.site.span ≠ call.site.span := by
  have found (span : Span) : (ofLog log).get? span = some call ↔ call.site.span = span ∧
      ∃ pre after, log = pre ++ call :: after ∧ ∀ later ∈ after, later.site.span ≠ span := by
    rw [get?_ofLog,find?_eq_some_iff_append]
    constructor
    · rintro ⟨eq,after,pre,split,others⟩
      refine ⟨by simpa using eq,pre.reverse,after.reverse,?_,?_⟩
      · rw [← reverse_reverse log,split]
        simp
      · intro later mem
        simpa using others later (mem_reverse.mp mem)
    · rintro ⟨eq,pre,after,split,others⟩
      refine ⟨by simpa using eq,after.reverse,pre.reverse,?_,?_⟩
      · rw [split]
        simp
      · intro later mem
        simpa using others later (mem_reverse.mp mem)
  constructor
  · intro mem
    obtain ⟨⟨span,value⟩,entry,eq⟩ := mem_map.mp mem
    obtain rfl : value = call := eq
    obtain ⟨rfl,last⟩ := (found span).mp (Table.lookup_of_mem (nodup_ofLog log) entry)
    exact last
  · intro last
    exact Table.mem_values_of_get? ((found call.site.span).mpr ⟨rfl,last⟩)

lemma eq_of_mem_values {call other : DeferredCall}
    (pending : call ∈ (ofLog log).values) (alsoPending : other ∈ (ofLog log).values)
    (eq : call.site.span = other.site.span) : call = other := by
  obtain ⟨pre,after,split,last⟩ := mem_values_ofLog.mp pending
  obtain ⟨pre',after',split',last'⟩ := mem_values_ofLog.mp alsoPending
  rw [split] at split'
  -- Of two splits of one list the shorter front has the other call behind it, unless they agree.
  rcases append_eq_append_iff.mp split' with ⟨gap,-,rest⟩ | ⟨gap,-,rest⟩
  · cases gap with
    | nil => exact (cons.inj rest).1
    | cons first gap =>
      have behind : other ∈ after := by
        rw [(cons.inj rest).2]
        simp
      exact absurd eq.symm (last other behind)
  · cases gap with
    | nil => exact (cons.inj rest).1.symm
    | cons first gap =>
      have behind : call ∈ after' := by
        rw [(cons.inj rest).2]
        simp
      exact absurd eq (last' call behind)

section Labels

variable {ν : Type} {calls : List (ν × DeferredCall)} {log : List DeferredCall}

/-- Behind every call there is a last one with its span, and it is the last of its label. -/
lemma exists_pending (logged : calls.map Prod.snd = log)
    (oneSpan : ∀ p ∈ calls, ∀ q ∈ calls, p.1 = q.1 → p.2.site.span = q.2.site.span)
    {call : DeferredCall} (mem : call ∈ log) :
    ∃ label last, LastOf calls label last ∧ last ∈ (ofLog log).values ∧ last.site.span = call.site.span := by
  subst logged
  obtain ⟨p,listed,rfl⟩ := mem_map.mp mem
  obtain ⟨pre,⟨label,last⟩,after,split,eq,others⟩ :=
    exists_last (p := fun q : ν × DeferredCall => q.2.site.span = p.2.site.span) listed rfl
  refine ⟨label,last,⟨pre,after,split,?_⟩,?_,eq⟩
  · intro later inAfter sameLabel
    have spans := oneSpan later (by simp [split,inAfter]) (label,last) (by simp [split]) sameLabel
    exact others later inAfter (spans.trans eq)
  · refine mem_values_ofLog.mpr ⟨pre.map Prod.snd,after.map Prod.snd,by simp [split],?_⟩
    intro later inAfter sameSpan
    obtain ⟨q,isLater,rfl⟩ := mem_map.mp inAfter
    exact others q isLater (sameSpan.trans eq)

/-- All labels have their last call pending just if those with one span agree on it. -/
lemma all_pending_iff (logged : calls.map Prod.snd = log)
    (oneSpan : ∀ p ∈ calls, ∀ q ∈ calls, p.1 = q.1 → p.2.site.span = q.2.site.span) :
    (∀ label call, LastOf calls label call → call ∈ (ofLog log).values) ↔
      ∀ label call label' call', LastOf calls label call → LastOf calls label' call' →
        call.site.span = call'.site.span → call = call' := by
  constructor
  · intro pending label call label' call' last last' eq
    exact eq_of_mem_values (pending label call last) (pending label' call' last') eq
  · intro agree label call last
    have mem : call ∈ log := logged ▸ mem_map_of_mem last.mem
    obtain ⟨label',call',last',pending,eq⟩ := exists_pending logged oneSpan mem
    rw [agree label call label' call' last last' eq.symm]
    exact pending

end Labels
end DeferredCalls

namespace Registry

variable (r : Registry) (summaries : Table Nat FunctionSummary)

/-- What checking a call against the summary of its callee reports. -/
def recheck (call : DeferredCall) : Option (List Diagnostic) := do
  let summary ← summaries.get? call.callee
  let (_,reports) ← (call.site.check {registry := r} summary.function call.arguments call.receiver).run []
  return reports

variable {summaries}

lemma run_replay {pending : List DeferredCall}
    (known : ∀ call ∈ pending, ∃ summary, summaries.get? call.callee = some summary) (raw : List Diagnostic) :
    (r.replay summaries pending).run raw = (pending.mapM (r.recheck summaries)).map
      fun reports => (pending.length,raw ++ reports.flatten) := by
  induction pending generalizing raw with
  | nil => simp [replay]
  | cons call rest ih =>
    obtain ⟨summary,found⟩ := known call (by simp)
    have others := ih fun other mem => known other (by simp [mem])
    have checked := (call.site.appends_check {registry := r} summary.function call.arguments call.receiver).run raw
    have signature : r.finalSignature summaries call.callee = some summary.function := by
      rw [finalSignature,found]
    rw [replay,signature,mapM_cons,recheck,found]
    simp only [StateT.run_bind,checked,bind_eq_bind,bind_some]
    cases (call.site.check {registry := r} summary.function call.arguments call.receiver).run [] with
    | none => rfl
    | some res =>
      simp only [map_some,bind_some,others]
      cases rest.mapM (r.recheck summaries) with
      | none => rfl
      | some reports => simp [append_assoc]

end Registry
namespace Flow

variable {declared : Declarations} {flow : FlowState}

/-- What is pending is what the log left, and the callees have been followed. -/
lemma analyze_putOff (collected : Declarations.collect prog externs legacy = some declared)
    (followed : analyze declared.registry options prog = some flow) : flow.deferred = .ofLog flow.putOff ∧
      ∀ call ∈ flow.putOff, ∃ summary, flow.summaries.get? call.callee = some summary := by
  obtain ⟨ledger,-,summarized⟩ := analyze_summaries followed
  obtain ⟨-,-,literals⟩ := Declarations.collect_functions collected
  refine ⟨ledger.deferred,fun call mem => ?_⟩
  obtain ⟨decl,isDeclared,own⟩ := ledger.own call mem
  have summary := (summarized _).mpr (literals call.callee decl isDeclared own)
  exact isSome_iff_exists.mp (Table.isSome_lookup.mpr summary)

/-- Every pending call is checked against the final summary of its callee, with the arguments
and the receiver it was put off with. The calls that are put off belong to call expressions,
each with one span. For all expressions what they put off last is checked just if those with
the same span put off the same last. -/
theorem last_calls_rechecked_iff (collected : Declarations.collect prog externs legacy = some declared)
    (followed : analyze declared.registry options prog = some flow) :
    (∀ call ∈ flow.putOff, ∃ summary, flow.summaries.get? call.callee = some summary) ∧
    (∀ raw, (declared.registry.replay flow.summaries flow.deferred.values).run raw =
      (flow.deferred.values.mapM (declared.registry.recheck flow.summaries)).map
        fun reports => (flow.deferred.size,raw ++ reports.flatten)) ∧
    ∀ (ν : Type) (calls : List (ν × DeferredCall)), calls.map Prod.snd = flow.putOff →
      (∀ p ∈ calls, ∀ q ∈ calls, p.1 = q.1 → p.2.site.span = q.2.site.span) →
      ((∀ expression call, LastOf calls expression call → call ∈ flow.deferred.values) ↔
        ∀ expression call expression' call', LastOf calls expression call →
          LastOf calls expression' call' → call.site.span = call'.site.span → call = call') := by
  obtain ⟨pending,known⟩ := analyze_putOff collected followed
  refine ⟨known,?_,?_⟩
  · intro raw
    have size : flow.deferred.size = flow.deferred.values.length := by
      rw [Table.size,Table.values,List.length_map]
    rw [size]
    apply declared.registry.run_replay
    intro call mem
    rw [pending] at mem
    obtain ⟨pre,after,split,-⟩ := DeferredCalls.mem_values_ofLog.mp mem
    exact known call (by simp [split])
  · intro ν calls logged oneSpan
    rw [pending]
    exact DeferredCalls.all_pending_iff logged oneSpan

end Flow
namespace Reducing

def fn : FunctionLiteral where
  id := 0
  parameters := [⟨"x",{}⟩]
  body := ⟨[.returnStmt (some ⟨{},.binary .subtract ⟨{},.identifier ⟨"x",{}⟩⟩ ⟨{},.literal (.number 5)⟩⟩) {}],{}⟩

def call (line : Nat) (arg : Literal) : Statement :=
  .expression ⟨{line},.call ⟨{},.identifier ⟨"reduce",{}⟩⟩ [⟨{},.literal arg⟩]⟩ none

/-- A function that takes numbers is called with a string and then with a number. -/
def prog (line : Nat) : Program where
  statements := [.function ⟨"reduce",{}⟩ fn,call 0 (.string "a"),call line (.number 1)]

def apart : Program := prog 1
def together : Program := prog 0
def apartDeclared : Declarations := (Declarations.collect apart none false).get (by decide +kernel)
def apartFlow : FlowState := (Flow.analyze apartDeclared.registry {} apart).get (by decide +kernel)
def togetherDeclared : Declarations := (Declarations.collect together none false).get (by decide +kernel)
def togetherFlow : FlowState := (Flow.analyze togetherDeclared.registry {} together).get (by decide +kernel)

lemma apart_replayed : apartFlow.putOff.map (·.arguments) = [[.string],[.number]] ∧
    apartFlow.putOff.map (·.site.span) = [{},{line := 1}] ∧
    ((apartDeclared.registry.replay apartFlow.summaries apartFlow.deferred.values).run []).map
      (fun res => (res.1,res.2.map (·.kind))) = some (2,[.invalidArgumentType]) ∧
    togetherFlow.putOff.map (·.arguments) = [[.string],[.number]] ∧
    togetherFlow.deferred.values.map (·.arguments) = [[.number]] ∧
    ([.string] : List Ty) ∉ [[.number]] ∧
    ((togetherDeclared.registry.replay togetherFlow.summaries togetherFlow.deferred.values).run
      []).map (fun res => (res.1,res.2.length)) = some (1,0) := by
  decide +kernel

end Reducing

open Reducing in
/-- Where the calls have spans of their own both are checked, and the string is reported. -/
theorem Flow.calls_apart_rechecked : Declarations.collect apart none false = some apartDeclared ∧
      analyze apartDeclared.registry {} apart = some apartFlow ∧
      ∃ first second, apartFlow.putOff = [first,second] ∧ first.arguments = [.string] ∧ second.arguments = [.number] ∧
        first ∈ apartFlow.deferred.values ∧ second ∈ apartFlow.deferred.values ∧
        ∃ reports, (apartDeclared.registry.replay apartFlow.summaries apartFlow.deferred.values).run
          [] = some (2,reports) ∧ reports.map (·.kind) = [.invalidArgumentType] := by
  have collected : Declarations.collect apart none false = some apartDeclared := (some_get _).symm
  have followed : analyze apartDeclared.registry {} apart = some apartFlow := (some_get _).symm
  obtain ⟨-,replayed,kept⟩ := last_calls_rechecked_iff collected followed
  obtain ⟨args,spans,checked,-⟩ := apart_replayed
  obtain ⟨first,second,split⟩ : ∃ first second, apartFlow.putOff = [first,second] :=
    List.length_eq_two.mp (by simpa using congrArg List.length args)
  simp only [split,List.map_cons,List.map_nil,List.cons.injEq,and_true] at args spans
  have different : first.site.span ≠ second.site.span := by
    rw [spans.1,spans.2]
    decide
  have pending := (kept Nat [(0,first),(1,second)] split.symm (by simp)).mpr (by
    intro expression call expression' call' last last' eq
    have listed := last.mem
    have listed' := last'.mem
    simp only [List.mem_cons,Prod.mk.injEq,List.not_mem_nil,or_false] at listed listed'
    rcases listed with ⟨-,rfl⟩ | ⟨-,rfl⟩ <;> rcases listed' with ⟨-,rfl⟩ | ⟨-,rfl⟩
    · rfl
    · exact absurd eq different
    · exact absurd eq.symm different
    · rfl)
  refine ⟨collected,followed,first,second,split,args.1,args.2,?_,?_,?_⟩
  · exact pending 0 first ⟨[],[(1,second)],rfl,by simp⟩
  · exact pending 1 second ⟨[(0,first)],[],rfl,by simp⟩
  · obtain ⟨⟨count,reports⟩,ran,eq⟩ := map_eq_some_iff.mp checked
    obtain ⟨rfl,kinds⟩ := Prod.mk.inj eq
    exact ⟨reports,ran,kinds⟩

open Reducing in
/-- Where the calls have one span the call with the string is never checked. -/
theorem Flow.first_call_together_lost : Declarations.collect together none false = some togetherDeclared ∧
      analyze togetherDeclared.registry {} together = some togetherFlow ∧
      ∃ first second, togetherFlow.putOff = [first,second] ∧
        first.arguments = [.string] ∧ second.arguments = [.number] ∧
        LastOf [(0,first),(1,second)] 0 first ∧ first ∉ togetherFlow.deferred.values ∧
        (togetherDeclared.registry.replay togetherFlow.summaries
          togetherFlow.deferred.values).run [] = some (1,[]) := by
  obtain ⟨-,-,-,args,pending,other,checked⟩ := apart_replayed
  obtain ⟨first,second,split⟩ : ∃ first second, togetherFlow.putOff = [first,second] :=
    List.length_eq_two.mp (by simpa using congrArg List.length args)
  simp only [split,List.map_cons,List.map_nil,List.cons.injEq,and_true] at args
  refine ⟨(some_get _).symm,(some_get _).symm,first,second,split,?_⟩
  refine ⟨args.1,args.2,⟨[],[(1,second)],rfl,by simp⟩,?_,?_⟩
  · intro mem
    have listed := List.mem_map_of_mem (f := DeferredCall.arguments) mem
    rw [pending,args.1] at listed
    exact other listed
  · obtain ⟨⟨count,reports⟩,ran,eq⟩ := map_eq_some_iff.mp checked
    obtain ⟨rfl,none⟩ := Prod.mk.inj eq
    obtain rfl : reports = [] := List.length_eq_zero_iff.mp none
    exact ran

end GradualJs
