import GradualJs.Check
import GradualJs.Proofs.Declarations.Signatures
import GradualJs.Proofs.Flow.ScopeOrder
import GradualJs.Proofs.Flow.Statements
import GradualJs.Proofs.Flow.Steps

/-! Functions are declared and summarized. Declarations are read, scopes are opened and bodies are
followed literal by literal, and each of the three finds the literals that are written down. -/
namespace GradualJs

/-! The calls that a program puts off. None is taken back, each waits for the body of its callee,
and what is pending in the end is what the log of these calls leaves in the table. -/
namespace Walk

/-- Between the states calls with the property were put off, and the log has them in order. -/
def Queued (p : DeferredCall → Prop) (s s' : WalkState) : Prop :=
  ∃ added, s'.putOff = s.putOff ++ added ∧ s'.deferred = added.foldl .defer s.deferred ∧ ∀ call ∈ added, p call

namespace Queued

variable {p : DeferredCall → Prop} {s s' : WalkState}

lemma of_same (putOff : s'.putOff = s.putOff) (deferred : s'.deferred = s.deferred) : Queued p s s' :=
  ⟨[],by rw [putOff,List.append_nil],deferred,nofun⟩

instance frame : Frame (Queued p) where
  refl _ := of_same rfl rfl
  trans := by
    rintro s mid s' ⟨first,log,table,waiting⟩ ⟨second,log',table',waiting'⟩
    refine ⟨first ++ second,?_,?_,?_⟩
    · rw [log',log,List.append_assoc]
    · rw [table',table,List.foldl_append]
    · intro call mem
      rcases List.mem_append.mp mem with early | late
      · exact waiting call early
      · exact waiting' call late
  reported _ _ _ := of_same rfl rfl
  muted queued := queued

instance deferring {c : WalkContext} : Deferring c (Queued c.Awaits) where
  resolved _ _ _ := of_same rfl rfl
  deferred _ call _ awaits := ⟨[call],rfl,rfl,by simpa using awaits⟩

instance indifferent : Indifferent (Queued p) where
  noted _ _ _ _ := of_same rfl rfl
  jumps _ _ _ := of_same rfl rfl
  returns _ _ _ := of_same rfl rfl
  handling _ _ _ _ := of_same rfl rfl
  tried _ _ := of_same rfl rfl

end Queued

abbrev Defers {α : Type} (c : WalkContext) (action : Walk α) : Prop := Moves (Queued c.Awaits) action

namespace Defers

lemma statements (list : List Statement) (env : Env) : Defers c (Walk.statements c list env) :=
  Tracing.statements (R := fun _ => Queued c.Awaits) list env

end Defers

end Walk

namespace Flow

variable {r : Registry} {options : Options} {state after : FlowState}

/-- What is pending is what the log left, and every call in it is to a function of the program. -/
structure Ledger (r : Registry) (state : FlowState) : Prop where
  deferred : state.deferred = state.putOff.foldl .defer {}
  own : ∀ call ∈ state.putOff, ∃ decl, r.function? call.callee = some decl ∧ decl.fromExterns = false

lemma Ledger.finish (ledger : Ledger r state)
    (queued : Walk.Queued (context r options tree state scope receiver declaredReturn).Awaits
      (startOf state) walked) : Ledger r (finish state scope walked) := by
  obtain ⟨added,log,pending,awaited⟩ := queued
  have log : walked.putOff = state.putOff ++ added := log
  have pending : walked.deferred = added.foldl .defer state.deferred := pending
  constructor
  · show walked.deferred = walked.putOff.foldl .defer {}
    rw [pending,log,List.foldl_append,← ledger.deferred]
  · intro call mem
    rw [Flow.finish,log] at mem
    rcases List.mem_append.mp mem with old | new
    · exact ledger.own call old
    · obtain ⟨decl,found,own,-⟩ := (awaited call new).incomplete
      exact ⟨decl,found,own⟩

lemma step_spec (ledger : Ledger r state) (ran : step r options tree state scope = some after) :
    Ledger r after ∧ state.summaries.AddsKeys (number? tree scope).toList after.summaries := by
  obtain ⟨receiver,declared,body,entry,left,last,walked,_,_,walk,ended,adds,rfl⟩ := step_eq_some ran
  have kept := ledger.finish (Walk.Frame.trans ((Walk.Defers.statements _ _).frame _ _ _ walk) (ended _))
  exact ⟨⟨kept.deferred,kept.own⟩,adds⟩

lemma steps_spec {order : List ScopeId} (ledger : Ledger r state)
    (ran : order.foldlM (step r options tree) state = some after) :
    Ledger r after ∧ state.summaries.AddsKeys (order.filterMap (number? tree)) after.summaries := by
  induction order generalizing state with
  | nil =>
    cases ran
    exact ⟨ledger,.refl _⟩
  | cons scope rest ih =>
    rw [List.foldlM_cons] at ran
    obtain ⟨mid,first,ran⟩ := Option.bind_eq_some_iff.mp ran
    obtain ⟨kept,summary⟩ := step_spec ledger first
    obtain ⟨kept',summaries⟩ := ih kept ran
    have both := summary.trans summaries
    refine ⟨kept',?_⟩
    cases isFunction : number? tree scope <;> simpa [isFunction] using both

variable {p : Program} {flow : FlowState}

lemma analyze_summaries (followed : analyze r options p = some flow) : Ledger r flow ∧
    flow.summaries.keys.Nodup ∧ ∀ id, id ∈ flow.summaries.keys ↔ id ∈ p.literals.map (·.id) := by
  obtain ⟨⟨_,found⟩,divided,ran⟩ := Option.bind_eq_some_iff.mp followed
  have start : Ledger r {diagnostics := found.diagnostics} := ⟨rfl,nofun⟩
  obtain ⟨ledger,adds⟩ := steps_spec start ran
  have divides := Scoping.divides_ofProgram divided
  refine ⟨ledger,adds.distinct .nil,fun id => ?_⟩
  rw [adds.keys]
  constructor
  · rintro (old | new)
    · cases old
    · obtain ⟨scope,-,isNumber⟩ := List.mem_filterMap.mp new
      obtain ⟨fn,isLiteral,rfl⟩ := Option.map_eq_some_iff.mp isNumber
      exact List.mem_map_of_mem (divides.mem_literals isLiteral)
  · intro mem
    obtain ⟨fn,written,rfl⟩ := List.mem_map.mp mem
    have inScopes : some fn ∈ found.scopes.map (·.function) := by simpa [divides.functions] using written
    obtain ⟨s,inScopes,isLiteral⟩ := List.mem_map.mp inScopes
    obtain ⟨index,isScope⟩ := List.mem_iff_getElem?.mp inScopes
    have reached := ScopeTree.mem_analysisOrder divides.nested (List.getElem?_eq_some_iff.mp isScope).1
    refine .inr (List.mem_filterMap.mpr ⟨index,reached,?_⟩)
    rw [number?,ScopeTree.scope,isScope]
    exact congrArg (Option.map FunctionLiteral.id) isLiteral

end Flow

open Declarations (allLiterals) in
/-- Where all literals have numbers of their own, each is declared once, and those of the program are
summarized once. -/
theorem functions_declared_and_summarized {prog : Program} {externs : Option Program}
    {options : Options} {declared : Declarations}
    (collected : Declarations.collect prog externs options.legacyCompatibility = some declared)
    (distinct : ((allLiterals prog externs).map (·.id)).Nodup) :
    declared.registry.functions.keys.Perm ((allLiterals prog externs).map (·.id)) ∧
    ∀ res, options.check prog externs = some res → res.summaries.keys.Perm (prog.literals.map (·.id)) ∧
      ∀ e ∈ externs, ∀ fn ∈ e.literals, res.summaries.get? fn.id = none := by
  obtain ⟨nodup,keys,-⟩ := Declarations.collect_functions collected
  refine ⟨(List.perm_ext_iff_of_nodup nodup distinct).mpr keys,fun res checked => ?_⟩
  obtain ⟨_,again,checked⟩ := Option.bind_eq_some_iff.mp checked
  cases collected.symm.trans again
  obtain ⟨flow,followed,checked⟩ := Option.bind_eq_some_iff.mp checked
  obtain ⟨_,-,eq⟩ := Option.bind_eq_some_iff.mp checked
  cases eq
  obtain ⟨-,nodup,summarized⟩ := Flow.analyze_summaries followed
  rw [allLiterals,List.map_append,List.nodup_append] at distinct
  refine ⟨(List.perm_ext_iff_of_nodup nodup distinct.2.1).mpr summarized,?_⟩
  rintro e ⟨⟩ fn mem
  have absent : fn.id ∉ prog.literals.map (·.id) := fun own =>
    distinct.2.2 _ (List.mem_map_of_mem mem) _ own rfl
  exact Option.not_isSome_iff_eq_none.mp fun found =>
    absent ((summarized _).mp (Table.isSome_lookup.mp found))

open ScopeTree (crew)

def deck : Program where
  statements := [.function ⟨"drum",{}⟩ {id := 3, parameters := [], body := ⟨[],{}⟩}]

def crewDeclared : Declarations := (Declarations.collect crew (some deck) false).get (by decide +kernel)
def crewChecked : CheckResult := (({} : Options).check crew (some deck)).get (by decide +kernel)

theorem crew_declared_and_summarized : Declarations.collect crew (some deck) false = some crewDeclared ∧
    ({} : Options).check crew (some deck) = some crewChecked ∧
    crewDeclared.registry.functions.keys.Perm [3,0,1,2] ∧
    crewChecked.summaries.keys.Perm [0,1,2] ∧ crewChecked.summaries.get? 3 = none := by
  have collected : Declarations.collect crew (some deck) false = some crewDeclared := (Option.some_get _).symm
  have checked : ({} : Options).check crew (some deck) = some crewChecked := (Option.some_get _).symm
  have numbers : (Declarations.allLiterals crew (some deck)).map (·.id) = [3,0,1,2] := rfl
  have inside : crew.literals.map (·.id) = [0,1,2] := rfl
  obtain ⟨drum,outside,number⟩ : ∃ fn ∈ deck.literals, fn.id = 3 := ⟨_,List.mem_cons_self,rfl⟩
  obtain ⟨declared,summarized⟩ := @functions_declared_and_summarized crew (some deck) {} crewDeclared
    collected (numbers ▸ by decide)
  obtain ⟨own,others⟩ := summarized crewChecked checked
  exact ⟨collected,checked,numbers ▸ declared,inside ▸ own,number ▸ others deck rfl drum outside⟩

end GradualJs
