import GradualJs.Call

/-! Calls that are checked once the signature of their callee is known. A place holds one
pending call: putting off a call at the same place again replaces the earlier one. -/
namespace GradualJs

structure FunctionSummary where
  id : Nat
  name : String
  function : FunctionType

structure DeferredCall where
  site : CallSite
  callee : Nat
  arguments : List Ty
  receiver : Option Ty

abbrev DeferredCalls := Table Span DeferredCall

namespace DeferredCalls

def defer (calls : DeferredCalls) (call : DeferredCall) : DeferredCalls := calls.insert call.site.span call

end DeferredCalls

namespace Registry

/-- What is known of a callee in the end: its summary, or what its comment declares. -/
def finalSignature (r : Registry) (summaries : Table Nat FunctionSummary) (id : Nat) : Option FunctionType :=
  match summaries.get? id with
  | some summary => some summary.function
  | none => (r.function? id).map (·.signature.toFunctionType)

/-- Checks the calls in the order in which they were put off, and counts those whose
callee is known. -/
def replay (r : Registry) (summaries : Table Nat FunctionSummary) : List DeferredCall → Reporting Nat
  | [] => pure 0
  | call :: rest => do
    match r.finalSignature summaries call.callee with
    | none => r.replay summaries rest
    | some callee =>
      let _ ← call.site.check {registry := r} callee call.arguments call.receiver
      return (← r.replay summaries rest) + 1

end Registry
end GradualJs
