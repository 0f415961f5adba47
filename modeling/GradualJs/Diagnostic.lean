import GradualJs.Diagnostic.Kind
import GradualJs.Order
import GradualJs.Span

/-! Reports about a program, and the regions of source in which some of them are not
wanted. -/
namespace GradualJs

structure Diagnostic where
  kind : DiagnosticKind
  message : String
  level : Level
  /-- A report without a place is about the program as a whole. -/
  span : Option Span
  deriving DecidableEq

namespace Diagnostic

def report (kind : DiagnosticKind) (message : String) (span : Span) : Diagnostic :=
  ⟨kind,message,kind.defaultLevel,some span⟩

def repeats (d other : Diagnostic) : Bool := d.kind = other.kind && d.span = other.span && d.message = other.message

def hasErrors (reports : List Diagnostic) : Bool := reports.any (·.level = .error)
def countOf (kind : DiagnosticKind) (reports : List Diagnostic) : Nat := (reports.filter (·.kind = kind)).length

/-- Reports are sorted by line and column; those without a place come last. -/
def notAfter (d other : Diagnostic) : Bool :=
  match d.span, other.span with
  | some place, some otherPlace =>
    Span.notAfter place.line place.column otherPlace.line otherPlace.column
  | some _, none => true
  | none, some _ => false
  | none, none => true

def sortByPosition (reports : List Diagnostic) : List Diagnostic := stableSort notAfter reports

def dropRepeats : List Diagnostic → List Diagnostic
  | [] => []
  | d :: rest => d :: (dropRepeats rest).filter (!repeats d ·)

end Diagnostic

/-- Regions of source, each with the kinds and groups that are not reported inside. -/
structure Suppressions where
  regions : List (Span × List String) := []

namespace Suppressions

def isEmpty (s : Suppressions) : Bool := s.regions.isEmpty

/-- A region that names nothing is not kept. -/
def add (s : Suppressions) (span : Span) (names : List String) : Suppressions :=
  if names.isEmpty then s else ⟨s.regions ++ [(span,names)]⟩

def suppresses (s : Suppressions) (d : Diagnostic) : Bool :=
  match d.span with
  | none => false
  | some span => s.regions.any fun (region,names) =>
    region.contains span && names.any fun name => name = d.kind.name || name = d.kind.group

end Suppressions
end GradualJs
