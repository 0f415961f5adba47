import GradualJs.Hex
import GradualJs.Json.Numeral

/-! Reading JSON text. The reader accepts exactly one value between blanks. A value that
is well formed but cannot be had is illegible: a string with half a surrogate pair, a
number beyond all doubles, an array or object nested deeper than a given limit. -/
namespace GradualJs.Json.Reader

def isBlank (c : Char) : Bool := c = ' ' || c = '\n' || c = '\t' || c = '\r'
def skip (cs : List Char) : List Char := cs.dropWhile isBlank

def expect (token : String) (cs : List Char) : Option (List Char) :=
  if token.toList.isPrefixOf cs then some (cs.drop token.toList.length) else none

def isHighSurrogate (unit : Nat) : Bool := 0xD800 ≤ unit && unit < 0xDC00
def isLowSurrogate (unit : Nat) : Bool := 0xDC00 ≤ unit && unit < 0xE000

def simpleEscape (c : Char) : Option Char :=
  match c with
  | '"' => some '"'
  | '\\' => some '\\'
  | '/' => some '/'
  | 'b' => some (Char.ofNat 8)
  | 'f' => some (Char.ofNat 12)
  | 'n' => some '\n'
  | 'r' => some '\r'
  | 't' => some '\t'
  | _ => none

def pairedChar (high low : Nat) : Char := Char.ofNat (0x10000 + (high - 0xD800) * 0x400 + (low - 0xDC00))

/-- The rest of a string after its opening quote. `done` holds the characters read so
far, the last one first, and `half` the first half of a surrogate pair that was just
read. A half that stays alone makes the string illegible. -/
def stringRest (isLegible : Bool) (half : Option Nat) (done : List Char) :
    List Char → Option (Option String × List Char)
  | '"' :: rest =>
    some (if isLegible && half.isNone then some (.ofList done.reverse) else none,rest)
  | '\\' :: 'u' :: a :: b :: c :: d :: rest =>
    match Hex.value? [a,b,c,d], half with
    | none, _ => none
    | some unit, some high =>
      stringRest (isLegible && isLowSurrogate unit) none (pairedChar high unit :: done) rest
    | some unit, none =>
      if isHighSurrogate unit then stringRest isLegible (some unit) done rest
      else stringRest (isLegible && !isLowSurrogate unit) none (Char.ofNat unit :: done) rest
  | '\\' :: c :: rest =>
    match simpleEscape c with
    | some escaped => stringRest (isLegible && half.isNone) none (escaped :: done) rest
    | none => none
  | c :: rest =>
    if c.toNat < 0x20 then none else stringRest (isLegible && half.isNone) none (c :: done) rest
  | [] => none

/-- An array or object, where `limit` more levels are left. -/
def nested (limit : Nat) (j : Json) : Json := if limit = 0 then .illegible else j

def object (fields : Option (List (String × Json))) : Json :=
  match fields with
  | some fields => .object fields
  | none => .illegible

def addField (key : Option String) (value : Json) (others : Option (List (String × Json))) :
    Option (List (String × Json)) := do
  return (← key,value) :: (← others)

mutual
/-- A value that starts here. `fuel` bounds the number of steps, `limit` the nesting. -/
def value (fuel limit : Nat) (cs : List Char) : Option (Json × List Char) :=
  match fuel with
  | 0 => none
  | fuel + 1 =>
    match skip cs with
    | '"' :: rest => do
      let (text,rest) ← stringRest true none [] rest
      return (text.elim .illegible .string,rest)
    | '[' :: rest => do
      match skip rest with
      | ']' :: rest => return (nested limit (.array []),rest)
      | rest =>
        let (items,rest) ← items fuel (limit - 1) rest
        return (nested limit (.array items),rest)
    | '\x7b' :: rest => do
      match skip rest with
      | '\x7d' :: rest => return (nested limit (.object []),rest)
      | rest =>
        let (fields,rest) ← fields fuel (limit - 1) rest
        return (nested limit (object fields),rest)
    | 'n' :: rest => do return (.null,← expect "ull" rest)
    | 't' :: rest => do return (.bool true,← expect "rue" rest)
    | 'f' :: rest => do return (.bool false,← expect "alse" rest)
    | rest => do
      let (n,rest) ← Numeral.read rest
      return (n.elim .illegible .number,rest)

def items (fuel limit : Nat) (cs : List Char) : Option (List Json × List Char) :=
  match fuel with
  | 0 => none
  | fuel + 1 => do
    let (first,rest) ← value fuel limit cs
    match skip rest with
    | ',' :: rest =>
      let (others,rest) ← items fuel limit rest
      return (first :: others,rest)
    | ']' :: rest => return ([first],rest)
    | _ => none

def fields (fuel limit : Nat) (cs : List Char) : Option (Option (List (String × Json)) × List Char) :=
  match fuel with
  | 0 => none
  | fuel + 1 => do
    match skip cs with
    | '"' :: rest =>
      let (key,rest) ← stringRest true none [] rest
      match skip rest with
      | ':' :: rest =>
        let (first,rest) ← value fuel limit rest
        match skip rest with
        | ',' :: rest =>
          let (others,rest) ← fields fuel limit rest
          return (addField key first others,rest)
        | '\x7d' :: rest => return (addField key first (some []),rest)
        | _ => none
      | _ => none
    | _ => none
end

end Reader

def textNesting : Nat := 127

def parseWithin (limit : Nat) (text : String) : Option Json := do
  let cs := text.toList
  let (value,rest) ← Reader.value (2 * cs.length + 2) limit cs
  if (Reader.skip rest).isEmpty then some value else none

def parse (text : String) : Option Json := parseWithin textNesting text

end GradualJs.Json
