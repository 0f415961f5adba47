import GradualJs.Diagnostic
import GradualJs.Lattice.Explain
import GradualJs.Lattice.Unify

/-! Checking a call against the signature of its callee: the number of arguments, the
template variables, each argument, and the receiver. -/
namespace GradualJs

structure CallSite where
  span : Span
  calleeName : String
  argumentSpans : List Span := []
  isNew : Bool := false
  /-- The fewest arguments of a callee that takes any number above them. -/
  legacyMinArity : Option Nat := none

/-- An action that may report. There is no result when types are nested too deep. -/
abbrev Reporting := StateT (List Diagnostic) Option

namespace Reporting

def report (kind : DiagnosticKind) (message : String) (span : Span) : Reporting Unit :=
  modify (· ++ [.report kind message span])

def ask (answer : Option α) : Reporting α := StateT.lift answer

end Reporting

/-- A headline, with the reason for the mismatch when there is one to give. -/
def Lattice.mismatch (l : Lattice) (headline : String) (found expected : Ty) : Option String := do
  match ← l.explainMismatch found expected with
  | some detail => return headline ++ ": " ++ detail
  | none => return headline

def FunctionType.pairings (f : FunctionType) (arguments : List Ty) : List (Nat × Ty × Ty) :=
  arguments.zipIdx.filterMap fun (argument,index) =>
    (f.param index).map fun param => (index,argument,param)

namespace CallSite

open Reporting

def argumentSpan (site : CallSite) (index : Nat) : Span := (site.argumentSpans[index]?).getD site.span

def arity (site : CallSite) (callee : FunctionType) : Nat × Option Nat :=
  match site.legacyMinArity with
  | some least => (least,none)
  | none => (callee.minArity,callee.maxArity)

def arityText : Nat × Option Nat → String
  | (least,some most) =>
    if most = least then s!"{least}" else s!"between {least} and {most}"
  | (least,none) => s!"at least {least}"

def accepts (arity : Nat × Option Nat) (count : Nat) : Bool :=
  arity.1 ≤ count && (arity.2.map fun most => decide (count ≤ most)).getD true

def checkArity (site : CallSite) (callee : FunctionType) (count : Nat) : Reporting Unit :=
  let arity := site.arity callee
  if accepts arity count then pure ()
  else report .wrongArgumentCount (site.calleeName ++
    s!" called with {count} argument(s) but expects " ++ arityText arity) site.span

/-- Lays a template over a type. A variable with two candidates is reported, and is unknown
in the end. -/
def unifyPart (site : CallSite) (l : Lattice) (callee : FunctionType) (blame : String)
    (span : Span) (template concrete : Ty) (bindings : Substitution) (ambiguous : List String) :
    Reporting (Substitution × List String) := do
  match ← ask ((l.unify callee.typeParams template concrete).run.run bindings) with
  | (.ok _,bindings) => return (bindings,ambiguous)
  | (.error e,bindings) =>
    report .notUniqueInstantiation ("cannot instantiate " ++ Name.short e.var ++ " in call to " ++
      site.calleeName ++ ": " ++ blame ++ " " ++ l.describe e.first ++ " and " ++
      l.describe e.second) span
    return (bindings,ambiguous ++ [e.var])

def unifyArguments (site : CallSite) (l : Lattice) (callee : FunctionType) :
    List (Nat × Ty × Ty) → Substitution → List String → Reporting (Substitution × List String)
  | [], bindings, ambiguous => pure (bindings,ambiguous)
  | (index,argument,param) :: rest, bindings, ambiguous => do
    let (bindings,ambiguous) ← site.unifyPart l callee "it would be both"
      (site.argumentSpan index) param argument bindings ambiguous
    site.unifyArguments l callee rest bindings ambiguous

def instantiate (site : CallSite) (l : Lattice) (callee : FunctionType) (arguments : List Ty)
    (receiver : Option Ty) : Reporting FunctionType := do
  let (bindings,ambiguous) ← site.unifyArguments l callee (callee.pairings arguments) {} []
  let (bindings,ambiguous) ← match callee.receiver, receiver with
    | some expected, some actual =>
      site.unifyPart l callee "the receiver would make it both" site.span expected actual bindings ambiguous
    | _, _ => pure (bindings,ambiguous)
  ask (l.instantiate callee (ambiguous.foldl (·.insert · .unknown) bindings))

def checkArgument (site : CallSite) (l : Lattice) (index : Nat) (argument param : Ty) : Reporting Unit := do
  if ← ask (l.isSubtype argument param) then return
  let headline := s!"argument {index + 1} of " ++ site.calleeName ++ ": found " ++
    l.describe argument ++ ", required " ++ l.describe param
  report .invalidArgumentType (← ask (l.mismatch headline argument param)) (site.argumentSpan index)

/-- The receiver of a `new` call is the object that is made, so it is not checked. -/
def checkReceiver (site : CallSite) (l : Lattice) (callee : FunctionType) (receiver : Option Ty) : Reporting Unit := do
  if site.isNew then return
  match callee.receiver, receiver with
  | some expected, some actual =>
    if ← ask (l.isSubtype actual expected) then return
    report .invalidThisType (site.calleeName ++ " must be called on " ++ l.describe expected ++
      ", not " ++ l.describe actual) site.span
  | _, _ => return

/-- Checks a call and gives the type of its result. Nothing is asked of a callee of which
nothing is known. -/
def check (site : CallSite) (l : Lattice) (callee : FunctionType) (arguments : List Ty)
    (receiver : Option Ty) : Reporting Ty := do
  if callee.loose then return callee.returnType
  site.checkArity callee arguments.length
  let function ← if callee.isGeneric then site.instantiate l callee arguments receiver
    else pure callee
  (function.pairings arguments).forM fun (index,argument,param) =>
    site.checkArgument l index argument param
  site.checkReceiver l function receiver
  return if site.isNew then function.constructs.getD .unknown else function.returnType

end CallSite
end GradualJs
