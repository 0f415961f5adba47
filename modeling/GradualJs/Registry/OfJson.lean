import GradualJs.Json.Decode
import GradualJs.Lattice.Basic

/-! Types written as JSON. Declared things are given by name and looked up in a registry;
a type may also be given by a name under which it was saved. -/
namespace GradualJs

structure TypeReader where
  registry : Registry
  saved : Table String Ty := {}

namespace TypeReader

def nominal? (c : TypeReader) (name : String) : Option NominalId :=
  match c.registry.lookup name with
  | some (.nominal id) => some id
  | _ => none

def enum? (c : TypeReader) (name : String) : Option EnumId :=
  match c.registry.lookup name with
  | some (.enumType id) => some id
  | _ => none

def typedef? (c : TypeReader) (name : String) : Option TypedefId :=
  match c.registry.lookup name with
  | some (.typedef id) => some id
  | _ => none

/-- The empty name is the global namespace; a nominal type stands for its static properties
and an enum for its members. -/
def space? (c : TypeReader) (name : String) : Option NamespaceId :=
  if name = "" then some .global
  else match c.registry.lookup name with
    | some (.space id) => some id
    | some (.nominal id) => some (c.registry.nominal id).statics
    | some (.enumType id) => some (c.registry.enumDecl id).space
    | _ => none

def plain? : String → Option Ty
  | "bottom" => some .bottom
  | "top" => some .top
  | "unknown" => some .unknown
  | "null" => some .null
  | "undefined" => some .undefined
  | "boolean" => some .boolean
  | "true" => some (.primitive .trueOnly)
  | "false" => some (.primitive .falseOnly)
  | "number" => some .number
  | "string" => some .string
  | "function" => some (.function .any)
  | _ => none

def part (j : Json) (name : String) : Option Json :=
  match j with
  | .object fields =>
    match Json.findField fields name with
    | none | some .null => none
    | some value => some value
  | _ => none

def listPart (read : Json → Option α) (j : Json) (name : String) : Option (List α) :=
  match part j name with
  | none => some []
  | some value => Json.listOf read value

def optionalPart (read : Json → Option α) (j : Json) (name : String) : Option (Option α) :=
  match part j name with
  | none => some none
  | some value => (read value).map some

def flag (j : Json) (name : String) : Bool := ((part j name).bind Json.bool?).getD false
def hasMark (marks : String) (mark : Char) : Bool := marks.toList.contains mark

/-- The forms a type may have, in the order in which they are looked for. -/
def forms : List String :=
  ["bits", "instance", "namespace", "enum", "var", "record", "function", "union", "global", "typedef", "ref"]

def instanceWith (c : TypeReader) (type : Json → Option Ty) (j : Json) : Option Instance := do
  let id ← c.nominal? (← (← part j "instance").string?)
  return ⟨id,← listPart type j "args"⟩

def fieldWith (type : Json → Option Ty) : Json → Option Field
  | .array (.string name :: t :: rest) => do
    let marks ← match rest with
      | [] | .null :: _ => some ""
      | m :: _ => m.string?
    return ⟨name,← type t,hasMark marks 'o',hasMark marks 'd',hasMark marks 'c'⟩
  | _ => none

def functionWith (type : Json → Option Ty) : Json → Option FunctionType
  | .string "any" => some .any
  | j => do
    if j.fields?.isNone then none
    return {
      required := ← listPart type j "required"
      optional := ← listPart type j "optional"
      rest := ← optionalPart type j "rest"
      returnType := (← optionalPart type j "ret").getD .unknown
      receiver := ← optionalPart type j "this"
      constructs := ← optionalPart type j "new"
      typeParams := ← listPart Json.string? j "type_params"
      loose := flag j "loose" }

def typeAt (c : TypeReader) : Nat → Json → Option Ty
  | 0, _ => none
  | _ + 1, .string name => plain? name
  | levels + 1, j => do
    let form ← forms.find? fun form => (part j form).isSome
    let value ← part j form
    match form with
    | "bits" => return .primitive (.ofBits ((← value.nat?) % 256))
    | "instance" => return .object (.nominal (← c.instanceWith (typeAt c levels) j))
    | "namespace" => return .namespaceValue (← c.space? (← value.string?))
    | "enum" => return .enumMember (← c.enum? (← value.string?))
    | "var" => return .var (← value.string?)
    | "record" =>
      let fields ← Json.listOf (fieldWith (typeAt c levels)) value
      return .record ⟨fields.foldl (fun done f => f.put done) [],flag j "exact",flag j "loose"⟩
    | "function" => return .function (← functionWith (typeAt c levels) value)
    | "union" =>
      Lattice.joinAll {registry := c.registry} (← Json.listOf (typeAt c levels) value)
    | "global" => (← c.registry.global? (← value.string?)) |> Registry.memberType
    | "typedef" => (c.registry.typedef (← c.typedef? (← value.string?))).resolved
    | _ => c.saved.get? (← value.string?)

def type (c : TypeReader) (j : Json) : Option Ty := c.typeAt (j.height + 1) j
def instance? (c : TypeReader) (j : Json) : Option Instance := c.instanceWith c.type j
def function? (c : TypeReader) (j : Json) : Option FunctionType := functionWith c.type j

end TypeReader
end GradualJs
