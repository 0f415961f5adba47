/-! The shortest decimal that reads back as a given double. -/
namespace GradualJs.Json.Decimal

structure Approximation where
  digits : Nat
  power : Int

def Approximation.toFloat (a : Approximation) : Float := Float.ofScientific a.digits (a.power < 0) a.power.natAbs

def fraction (x : Float) : Nat × Nat :=
  let bits := x.toBits.toNat
  let mantissa := bits % .pow 2 52
  let biased := bits / .pow 2 52 % .pow 2 11
  let significand := if biased = 0 then mantissa else mantissa + .pow 2 52
  let shift : Int := (if biased = 0 then 1 else biased : Nat) - 1075
  if shift < 0 then (significand,.pow 2 shift.natAbs) else (significand * .pow 2 shift.natAbs,1)

def countDigits (n : Nat) : Nat := (Nat.toDigits 10 n).length

def scaledFloor (num den : Nat) (power : Int) : Nat :=
  if power < 0 then num / (den * .pow 10 power.natAbs) else num * .pow 10 power.natAbs / den

def leadingPower (num den : Nat) : Int :=
  let guess : Int := countDigits num - countDigits den
  if scaledFloor num den (-guess) = 0 then guess - 1 else guess

/-- The two neighbours with a given number of digits, the nearer one first. -/
def neighbours (num den : Nat) (count : Nat) : List Approximation :=
  let power := leadingPower num den + 1 - count
  let low := scaledFloor num den (-power)
  let twice := scaledFloor (2 * num) den (-power)
  if twice ≤ 2 * low then [⟨low,power⟩,⟨low + 1,power⟩] else [⟨low + 1,power⟩,⟨low,power⟩]

def searchFrom (x : Float) (num den : Nat) : Nat → Nat → Approximation
  | 0, count => ⟨scaledFloor num den (count - leadingPower num den),leadingPower num den - count⟩
  | tries + 1, count =>
    match (neighbours num den count).find? (·.toFloat == x) with
    | some found => found
    | none => searchFrom x num den tries (count + 1)

/-- The fewest digits that read back as the positive double `x`. -/
def shortest (x : Float) : Approximation :=
  let (num,den) := fraction x
  searchFrom x num den 17 1

def positional (power : Int) : Bool := -5 ≤ power && power ≤ 15

def renderPositive (a : Approximation) : String :=
  let digits := Nat.toDigits 10 a.digits
  let leading := a.power + digits.length - 1
  let text (cs : List Char) := String.ofList cs
  if positional leading then
    if leading < 0 then
      "0." ++ text (List.replicate (leading.natAbs - 1) '0' ++ digits)
    else
      let point := leading.natAbs + 1
      let filled := digits ++ List.replicate (point + 1 - digits.length) '0'
      text (filled.take point) ++ "." ++ text (filled.drop point)
  else
    let mantissa := match digits with
      | [] => "0"
      | [d] => text [d]
      | d :: rest => text [d] ++ "." ++ text rest
    mantissa ++ "e" ++ toString leading

/-- A double in JSON; one that is not a number is written as null. -/
def render (x : Float) : String :=
  if !x.isFinite then "null"
  else if x == 0.0 then if x.toBits == (0.0 : Float).toBits then "0.0" else "-0.0"
  else if x < 0.0 then "-" ++ renderPositive (shortest (-x))
  else renderPositive (shortest x)

end GradualJs.Json.Decimal
