import GradualJs.Json.Basic

/-! Reading structures and alternatives out of JSON values. A structure is an object
or the array of its fields in order; unknown keys of an object are ignored, a known
key may stand in it once. An alternative is its tag, or an object whose only key is
the tag. -/
namespace GradualJs.Json

abbrev Fields := String → Option Json

def findField (fields : List (String × Json)) (name : String) : Option Json := (fields.find? (·.1 = name)).map (·.2)

def structure? (names : List String) : Json → Option Fields
  | .object fields =>
    if names.all fun name => (fields.filter (·.1 = name)).length ≤ 1 then some (findField fields)
    else none
  | .array items =>
    if items.length ≤ names.length then some (findField (names.zip items)) else none
  | _ => none

/-- Where a JSON value is found: as a value at hand, or in a text that is being read. -/
inductive Form where
  | value
  | text
  deriving DecidableEq

/-- The fields that stand directly behind the tag of an alternative. Only in a text may
they be an array. -/
def inlineStructure? (form : Form) (names : List String) (j : Json) : Option Fields :=
  match form, j with
  | .value, .array _ => none
  | _, j => structure? names j

namespace Fields

def required (fields : Fields) (name : String) (decode : Json → Option α) : Option α := (fields name).bind decode

def optional (fields : Fields) (name : String) (decode : Json → Option α) : Option (Option α) :=
  match fields name with
  | none | some .null => some none
  | some value => (decode value).map some

def defaulted (fields : Fields) (name : String) (decode : Json → Option α) (default : α) : Option α :=
  match fields name with
  | none => some default
  | some value => decode value

end Fields

def alternative? : Json → Option (String × Option Json)
  | .string tag => some (tag,none)
  | .object [(tag,payload)] => some (tag,some payload)
  | _ => none

def tag? (j : Json) : Option String :=
  match alternative? j with
  | some (tag,none) | some (tag,some .null) => some tag
  | _ => none

def listOf (decode : Json → Option α) : Json → Option (List α)
  | .array items => items.mapM decode
  | _ => none

def strings? : Json → Option (List String) := listOf string?

end GradualJs.Json
