import GradualJs.Json.Basic

/-! Numerals: how numbers are written in JSON text, and which numbers they stand for. A
numeral with a fraction or an exponent, or one too long for a word, stands for a double.
As many of its digits as fit an unsigned word are taken, and the result is multiplied or
divided by a power of ten; each of these steps rounds, so the double is close to the
written number but not always the closest one. -/
namespace GradualJs.Json.Numeral

def digitValue (c : Char) : Nat := c.toNat - '0'.toNat

/-- Appends digits to `n` for as long as the result is an unsigned word. The digits that
are left over come second. -/
def appendDigits (n : Nat) : List Char → Nat × List Char
  | [] => (n,[])
  | digit :: rest =>
    if 10 * n + digitValue digit < wordLimit then appendDigits (10 * n + digitValue digit) rest
    else (n,digit :: rest)

def digitsValue (cs : List Char) : Nat := cs.foldl (fun n c => 10 * n + digitValue c) 0

/-- The digits of a whole part: a single zero, or digits that do not start with one. -/
def wholePart (cs : List Char) : Option (List Char × List Char) :=
  match cs with
  | '0' :: rest => some (['0'],rest)
  | _ =>
    match cs.takeWhile Char.isDigit with
    | [] => none
    | digits => some (digits,cs.dropWhile Char.isDigit)

def fraction (cs : List Char) : Option (List Char × List Char) :=
  match cs with
  | '.' :: rest =>
    match rest.takeWhile Char.isDigit with
    | [] => none
    | digits => some (digits,rest.dropWhile Char.isDigit)
  | _ => some ([],cs)

def signed (cs : List Char) : Bool × List Char :=
  match cs with
  | '-' :: rest => (true,rest)
  | '+' :: rest => (false,rest)
  | _ => (false,cs)

def exponent (cs : List Char) : Option (Option Int × List Char) :=
  match cs with
  | c :: rest =>
    if c = 'e' || c = 'E' then
      let (isNegative,rest) := signed rest
      match rest.takeWhile Char.isDigit with
      | [] => none
      | digits =>
        let power : Int := digitsValue digits
        some (some (if isNegative then -power else power),rest.dropWhile Char.isDigit)
    else some (none,cs)
  | [] => some (none,cs)

def topPower : Nat := 308
def powerOfTen (power : Nat) : Float := Float.ofScientific 1 false power

/-- Multiplies by a power of ten, unless that leaves the range of doubles. -/
def raise (x : Float) (power : Nat) : Option Float :=
  if power ≤ topPower then
    let raised := x * powerOfTen power
    if raised.isFinite then some raised else none
  else if x == 0.0 then some x
  else none

def lower (x : Float) (power : Nat) : Float :=
  if power ≤ topPower then x / powerOfTen power
  else if x == 0.0 then x
  else lower (x / powerOfTen topPower) (power - topPower)
termination_by power
decreasing_by simp only [topPower] at *; omega

/-- The double for `significand * 10 ^ power`, unless it is beyond all doubles. -/
def scaled (significand : Nat) (power : Int) : Option Float :=
  if 0 ≤ power then raise (Float.ofNat significand) power.toNat
  else some (lower (Float.ofNat significand) power.natAbs)

def real (isNegative : Bool) (significand : Nat) (power : Int) : Option Number :=
  (scaled significand power).map fun value => .real (if isNegative then -value else value)

def whole (isNegative : Bool) (n : Nat) : Option Number :=
  if isNegative then
    if 0 < n && n ≤ negativeLimit then some (.negative n) else real true n 0
  else some (.natural n)

/-- A numeral that starts here. It may be well formed and yet stand for no number, if it
is beyond all doubles. -/
def read (cs : List Char) : Option (Option Number × List Char) := do
  let (isNegative,cs) := match cs with
    | '-' :: rest => (true,rest)
    | _ => (false,cs)
  let (integer,cs) ← wholePart cs
  let (decimals,cs) ← fraction cs
  let (power,cs) ← exponent cs
  let (significand,dropped) := appendDigits 0 integer
  match dropped, decimals, power with
  | [], [], none => return (whole isNegative significand,cs)
  | _, _, _ =>
    let (significand,unread) := appendDigits significand decimals
    let places : Int := decimals.length - unread.length
    return (real isNegative significand (power.getD 0 + dropped.length - places),cs)

end GradualJs.Json.Numeral
