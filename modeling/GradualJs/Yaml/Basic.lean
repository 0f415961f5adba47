/-! YAML nodes, and what can be read out of them. Structures are mappings; an alternative
that carries something would need a tag, and no tags are read. -/
namespace GradualJs

inductive Yaml where
  /-- Only a plain scalar, one without quotes, can be anything but text. -/
  | scalar (text : String) (isPlain : Bool)
  | sequence (items : List Yaml)
  | mapping (entries : List (Yaml × Yaml))

namespace Yaml

instance : Inhabited Yaml := ⟨.scalar "" true⟩

def empty : Yaml := .scalar "" true

def text? : Yaml → Option String
  | .scalar text _ => some text
  | _ => none

def bool? : Yaml → Option Bool
  | .scalar "true" true | .scalar "True" true | .scalar "TRUE" true => some true
  | .scalar "false" true | .scalar "False" true | .scalar "FALSE" true => some false
  | _ => none

/-- The items of a sequence. Nothing at all is an empty sequence. -/
def items? : Yaml → Option (List Yaml)
  | .sequence items => some items
  | .scalar "" true => some []
  | _ => none

/-- The entries of a mapping whose keys are texts. Nothing at all is an empty mapping. -/
def entries? : Yaml → Option (List (String × Yaml))
  | .mapping entries => entries.mapM fun (key,value) => do return (← key.text?,value)
  | .scalar "" true => some []
  | _ => none

/-- The fields of a structure: unknown keys are ignored, a known one may stand there once. -/
def structure? (names : List String) (node : Yaml) : Option (String → Option Yaml) := do
  let entries ← node.entries?
  if names.all fun name => (entries.filter (·.1 = name)).length ≤ 1 then
    some fun name => (entries.find? (·.1 = name)).map (·.2)
  else none

end Yaml
end GradualJs
