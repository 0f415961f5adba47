import GradualJs.Declarations.Validate

/-! Everything a program and its externs declare: a frozen registry, the reports about
the declarations, and the regions where reports are not wanted. -/
namespace GradualJs

def Node.suppressed : Node → List (Span × List String)
  | .statement (.var _ declarators jsdoc span) =>
    (jsdoc.map fun doc => (span,doc.suppressions)).toList ++ declarators.filterMap fun d =>
      match d.jsdoc, d.initializer with
      | some doc, some initializer =>
        some (d.name.span.cover initializer.span,doc.suppressions)
      | _, _ => none
  | .statement (.expression value jsdoc) =>
    (jsdoc.map fun doc => (value.span,doc.suppressions)).toList
  | .statement (.classDecl d) => (d.jsdoc.map fun doc => (d.span,doc.suppressions)).toList
  | .statement _ | .expression _ => []
  | .function literal _ =>
    (literal.jsdoc.map fun doc => (literal.span,doc.suppressions)).toList

def Program.suppressions (p : Program) : Suppressions :=
  ((Node.deepList (statementNodes p.statements)).flatMap Node.suppressed).foldl
    (fun s (span,names) => s.add span names) {}

structure Declarations where
  registry : Registry
  suppressions : Suppressions
  diagnostics : List Diagnostic

namespace Declarations

def registration (program : Program) (externs : Option Program) : Registering Unit := do
  match externs with
  | some e => Registering.statements true e.statements
  | none => pure ()
  Registering.statements false program.statements

def resolution (program : Program) (externs : Option Program) (legacy : Bool) : Collecting Unit := do
  Collecting.typedefs
  Collecting.enums
  Collecting.headers
  Collecting.breakCycles
  Collecting.bindMethodOwners
  match externs with
  | some e => Collecting.functions [] true (statementNodes e.statements)
  | none => pure ()
  Collecting.functions [] false (statementNodes program.statements)
  Collecting.inheritConstructors
  Collecting.members
  Collecting.globals
  Collecting.checkNominals legacy

/-- Collects the declarations. There is no answer when types are nested too deep. -/
def collect (program : Program) (externs : Option Program) (legacy : Bool) : Option Declarations := do
  let (_,registered) := (registration program externs).run {}
  let (_,c) ← (resolution program externs legacy).run registered
  let outer := (externs.map Program.suppressions).getD {}
  return {
    registry := c.registry.freeze
    suppressions := ⟨outer.regions ++ program.suppressions.regions⟩
    diagnostics := c.diagnostics }

end Declarations
end GradualJs
