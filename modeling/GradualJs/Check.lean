import GradualJs.Declarations
import GradualJs.Flow

/-! Checking a whole program: its declarations, the flow of its bodies, and the calls that
were put off. -/
namespace GradualJs

structure CheckResult where
  /-- Sorted by position, each report once, without those that are not wanted. -/
  diagnostics : List Diagnostic
  summaries : Table Nat FunctionSummary

namespace CheckResult

def errors (result : CheckResult) : List Diagnostic := result.diagnostics.filter (·.level = .error)
def warnings (result : CheckResult) : List Diagnostic := result.diagnostics.filter (·.level = .warning)
def hasErrors (result : CheckResult) : Bool := !result.errors.isEmpty

def summaryNamed (result : CheckResult) (name : String) : Option FunctionSummary :=
  result.summaries.values.find? (·.name = name)

end CheckResult

def Suppressions.select (s : Suppressions) (raw : List Diagnostic) : List Diagnostic :=
  Diagnostic.sortByPosition (Diagnostic.dropRepeats (raw.filter (!s.suppresses ·)))

/-- Checks a program against the declarations of its externs. There is no result when types
are nested too deep. -/
def Options.check (options : Options) (program : Program) (externs : Option Program) : Option CheckResult := do
  let declared ← Declarations.collect program externs options.legacyCompatibility
  let flow ← Flow.analyze declared.registry options program
  let raw := declared.diagnostics ++ flow.diagnostics
  let (_,raw) ← (declared.registry.replay flow.summaries flow.deferred.values).run raw
  return {diagnostics := declared.suppressions.select raw, summaries := flow.summaries}

end GradualJs
