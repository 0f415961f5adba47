/-! Numbers in hexadecimal digits, of either case. -/
namespace GradualJs.Hex

def digit? (c : Char) : Option Nat :=
  if c.isDigit then some (c.toNat - '0'.toNat)
  else if 'a' ≤ c && c ≤ 'f' then some (c.toNat - 'a'.toNat + 10)
  else if 'A' ≤ c && c ≤ 'F' then some (c.toNat - 'A'.toNat + 10)
  else none

def value? (digits : List Char) : Option Nat := do
  return (← digits.mapM digit?).foldl (fun n digit => 16 * n + digit) 0

end GradualJs.Hex
