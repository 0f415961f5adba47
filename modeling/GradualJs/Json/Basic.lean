/-! JSON values. An object keeps its fields as they were written, repetitions
included: whether a repeated key is an error is for the reader of the object. So it is
with a value that is well formed but cannot be had: it does no harm where nobody asks
for it. -/
namespace GradualJs

/-- Whole numbers stay apart from numbers written with a fraction or an exponent,
because only the former can be a count or a position. -/
inductive Json.Number where
  | natural (value : Nat)
  | negative (magnitude : Nat)
  | real (value : Float)

inductive Json where
  | null
  | bool (value : Bool)
  | number (value : Json.Number)
  | string (value : String)
  | array (items : List Json)
  | object (fields : List (String × Json))
  /-- Stands for a value in a text that can be passed over but not read. -/
  | illegible

namespace Json

instance : Inhabited Json := ⟨.null⟩

/-- Unsigned words: the largest whole number a value keeps as such. -/
def wordLimit : Nat := .pow 2 64
def negativeLimit : Nat := .pow 2 63
def nat (n : Nat) : Json := .number (.natural n)

def Number.toFloat : Number → Float
  | .natural n => Float.ofNat n
  | .negative n => -(Float.ofNat n)
  | .real x => x

def nat? : Json → Option Nat
  | .number (.natural n) => some n
  | _ => none

def float? : Json → Option Float
  | .number n => some n.toFloat
  | _ => none

def string? : Json → Option String
  | .string s => some s
  | _ => none

def bool? : Json → Option Bool
  | .bool b => some b
  | _ => none

def array? : Json → Option (List Json)
  | .array items => some items
  | _ => none

def fields? : Json → Option (List (String × Json))
  | .object fields => some fields
  | _ => none

def isNull : Json → Bool
  | .null => true
  | _ => false

mutual
def height : Json → Nat
  | .null | .bool _ | .number _ | .string _ | .illegible => 0
  | .array items => heightItems items + 1
  | .object fields => heightFields fields + 1
def heightItems : List Json → Nat
  | [] => 0
  | item :: rest => max item.height (heightItems rest)
def heightFields : List (String × Json) → Nat
  | [] => 0
  | (_,value) :: rest => max value.height (heightFields rest)
end

end Json
end GradualJs
