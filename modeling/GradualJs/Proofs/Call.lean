import GradualJs.Deferred
import Mathlib.Tactic.Lemma

/-! Checking a call only adds reports, whatever was reported before. -/
namespace GradualJs

namespace Reporting

variable {α β : Type}

/-- What the action answers and what it adds do not depend on the reports there are. -/
def Appends (x : Reporting α) : Prop := ∀ pre s, x.run (pre ++ s) = (x.run s).map fun res => (res.1,pre ++ res.2)

lemma Appends.pure (a : α) : Appends (Pure.pure a) := by
  intro pre s
  rfl

lemma Appends.bind (first : Appends x) (next : ∀ a, Appends (f a)) : Appends (x >>= f) := by
  intro pre s
  simp only [StateT.run_bind,first pre s,Option.bind_eq_bind]
  cases x.run s with
  | none => rfl
  | some res => exact next res.1 pre res.2

lemma Appends.ite {_ : Decidable p} (holds : Appends x) (fails : Appends y) : Appends (if p then x else y) := by
  by_cases holding : p
  · rwa [if_pos holding]
  · rwa [if_neg holding]

lemma Appends.forM {list : List α} (each : ∀ a, Appends (f a)) : Appends (list.forM f) := by
  induction list with
  | nil => exact .pure _
  | cons a rest ih => exact (each a).bind fun _ => ih

lemma appends_ask (ans : Option α) : Appends (ask ans) := by
  intro pre s
  cases ans <;> rfl

lemma appends_report (kind : DiagnosticKind) (message : String) (span : Span) : Appends (report kind message span) := by
  intro pre s
  simp [report,StateT.run_modify]

/-- An action that only appends does to any reports what it does to none. -/
lemma Appends.run {x : Reporting α} (appends : Appends x) (s : List Diagnostic) :
    x.run s = (x.run []).map fun res => (res.1,s ++ res.2) := by
  simpa using appends s []

end Reporting

namespace CallSite

open Reporting

variable (site : CallSite) (l : Lattice)
variable (callee : FunctionType)

lemma appends_checkArity (count : Nat) : Appends (site.checkArity callee count) := .ite (.pure _) (appends_report _ _ _)

lemma appends_unifyPart (blame : String) (span : Span)
    (template concrete : Ty) (bindings : Substitution) (ambiguous : List String) :
    Appends (site.unifyPart l callee blame span template concrete bindings ambiguous) := by
  apply (appends_ask _).bind
  rintro ⟨outcome,bindings⟩
  cases outcome with
  | ok _ => exact .pure _
  | error e => exact (appends_report _ _ _).bind fun _ => .pure _

lemma appends_unifyArguments (pairings : List (Nat × Ty × Ty)) (bindings : Substitution) (ambiguous : List String) :
    Appends (site.unifyArguments l callee pairings bindings ambiguous) := by
  induction pairings generalizing bindings ambiguous with
  | nil => exact .pure _
  | cons pairing rest ih => exact (site.appends_unifyPart l _ _ _ _ _ _ _).bind fun _ => ih _ _

lemma appends_instantiate (args : List Ty) (recv : Option Ty) : Appends (site.instantiate l callee args recv) := by
  apply (site.appends_unifyArguments l callee _ _ _).bind
  rintro ⟨bindings,ambiguous⟩
  dsimp only
  split
  · exact (site.appends_unifyPart l _ _ _ _ _ _ _).bind fun _ => appends_ask _
  · exact (Appends.pure _).bind fun _ => appends_ask _

lemma appends_checkArgument (index : Nat) (arg param : Ty) : Appends (site.checkArgument l index arg param) := by
  apply (appends_ask _).bind
  intro fits
  exact .ite (.pure _) ((appends_ask _).bind fun _ => appends_report _ _ _)

lemma appends_checkReceiver (recv : Option Ty) : Appends (site.checkReceiver l callee recv) := by
  apply Appends.ite (.pure _)
  split
  · exact (appends_ask _).bind fun fits => .ite (.pure _) (appends_report _ _ _)
  · exact .pure _

lemma appends_check (args : List Ty) (recv : Option Ty) : Appends (site.check l callee args recv) := by
  apply Appends.ite (.pure _)
  apply (site.appends_checkArity callee _).bind
  intro _
  -- The callee is instantiated or taken as it is, and then checked in one way.
  refine .ite ((site.appends_instantiate l callee args recv).bind ?_) ((Appends.pure _).bind ?_)
  all_goals
    intro function
    apply (Appends.forM fun _ => site.appends_checkArgument l _ _ _).bind
    intro _
    exact (site.appends_checkReceiver l function recv).bind fun _ => .pure _

end CallSite

namespace Registry

open Reporting

lemma appends_replay (r : Registry) (summaries : Table Nat FunctionSummary)
    (calls : List DeferredCall) : Appends (r.replay summaries calls) := by
  induction calls with
  | nil => exact .pure _
  | cons call rest ih =>
    unfold replay
    split
    · exact ih
    · exact (call.site.appends_check _ _ _ _).bind fun _ => ih.bind fun _ => .pure _

end Registry
end GradualJs
