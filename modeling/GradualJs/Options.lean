import GradualJs.Json.Decode
import GradualJs.Yaml.Basic

/-! What a check may be asked to report and to tolerate. -/
namespace GradualJs

inductive InputMode where
  /-- The program uses no syntax that needs transpiling. -/
  | noTranspilation
  /-- Newer syntax is accepted, and reported. -/
  | mixed
  deriving DecidableEq, Inhabited

structure Options where
  inputMode : InputMode := .noTranspilation
  reportUnknownTypes : Bool := false
  /-- Relaxes the checks of argument counts and parameter variance. -/
  legacyCompatibility : Bool := false
  deriving DecidableEq, Inhabited

def InputMode.tag : InputMode → String
  | .noTranspilation => "no-transpilation"
  | .mixed => "mixed"

def InputMode.ofTag? : String → Option InputMode
  | "no-transpilation" => some .noTranspilation
  | "mixed" => some .mixed
  | _ => none

namespace Options

def toJson (o : Options) : Json :=
  .object [("inputMode",.string o.inputMode.tag),("reportUnknownTypes",.bool o.reportUnknownTypes),
    ("legacyCompatibility",.bool o.legacyCompatibility)]

def fieldNames : List String := ["inputMode", "reportUnknownTypes", "legacyCompatibility"]

def ofJson? (j : Json) : Option Options := do
  let fields ← Json.structure? fieldNames j
  return {
    inputMode := ← fields.defaulted "inputMode" (fun mode => (Json.tag? mode).bind InputMode.ofTag?) .noTranspilation
    reportUnknownTypes := ← fields.defaulted "reportUnknownTypes" Json.bool? false
    legacyCompatibility := ← fields.defaulted "legacyCompatibility" Json.bool? false }

def ofYaml? (node : Yaml) : Option Options := do
  let field ← node.structure? fieldNames
  let flag (name : String) : Option Bool := (field name).elim (some false) Yaml.bool?
  return {
    inputMode := ← (field "inputMode").elim (some .noTranspilation) fun mode =>
      mode.text?.bind InputMode.ofTag?
    reportUnknownTypes := ← flag "reportUnknownTypes"
    legacyCompatibility := ← flag "legacyCompatibility" }

end Options
end GradualJs
