import GradualJs.Json.Basic
import GradualJs.Json.Decimal

/-! Writing JSON text, on one line or indented by two blanks a level. -/
namespace GradualJs.Json

def hexChar (n : Nat) : Char := if n < 10 then Char.ofNat (48 + n) else Char.ofNat (87 + n)

def escapeChar (c : Char) : List Char :=
  if c = '"' then ['\\', '"']
  else if c = '\\' then ['\\', '\\']
  else if c = '\n' then ['\\', 'n']
  else if c = '\r' then ['\\', 'r']
  else if c = '\t' then ['\\', 't']
  else if c.toNat = 8 then ['\\', 'b']
  else if c.toNat = 12 then ['\\', 'f']
  else if c.toNat < 0x20 then
    ['\\', 'u', '0', '0',hexChar (c.toNat / 16),hexChar (c.toNat % 16)]
  else [c]

def quote (s : String) : String := .ofList ('"' :: (s.toList.flatMap escapeChar ++ ['"']))

def Number.render : Number → String
  | .natural n => toString n
  | .negative n => "-" ++ toString n
  | .real x => Decimal.render x

mutual
def appendTo (done : String) : Json → String
  | .null | .illegible => done ++ "null"
  | .bool b => done ++ (if b then "true" else "false")
  | .number n => done ++ n.render
  | .string s => done ++ quote s
  | .array [] => done ++ "[]"
  | .array (item :: rest) => appendItems (appendTo (done ++ "[") item) rest ++ "]"
  | .object [] => done ++ "\x7b\x7d"
  | .object ((key,value) :: rest) =>
    appendFields (appendTo (done ++ "\x7b" ++ quote key ++ ":") value) rest ++ "\x7d"
def appendItems (done : String) : List Json → String
  | [] => done
  | item :: rest => appendItems (appendTo (done ++ ",") item) rest
def appendFields (done : String) : List (String × Json) → String
  | [] => done
  | (key,value) :: rest => appendFields (appendTo (done ++ "," ++ quote key ++ ":") value) rest
end

def compact (j : Json) : String := j.appendTo ""
def newline (level : Nat) : String := "\n" ++ .ofList (List.replicate (2 * level) ' ')

mutual
def appendPretty (level : Nat) (done : String) : Json → String
  | .array (item :: rest) =>
    let opened := done ++ "[" ++ newline (level + 1)
    appendPrettyItems (level + 1) (appendPretty (level + 1) opened item) rest ++ newline level ++ "]"
  | .object ((key,value) :: rest) =>
    let opened := done ++ "\x7b" ++ newline (level + 1) ++ quote key ++ ": "
    appendPrettyFields (level + 1) (appendPretty (level + 1) opened value) rest ++ newline level ++ "\x7d"
  | .null | .illegible => done ++ "null"
  | .bool b => done ++ (if b then "true" else "false")
  | .number n => done ++ n.render
  | .string s => done ++ quote s
  | .array [] => done ++ "[]"
  | .object [] => done ++ "\x7b\x7d"
def appendPrettyItems (level : Nat) (done : String) : List Json → String
  | [] => done
  | item :: rest =>
    appendPrettyItems level (appendPretty level (done ++ "," ++ newline level) item) rest
def appendPrettyFields (level : Nat) (done : String) : List (String × Json) → String
  | [] => done
  | (key,value) :: rest =>
    let opened := done ++ "," ++ newline level ++ quote key ++ ": "
    appendPrettyFields level (appendPretty level opened value) rest
end

def pretty (j : Json) : String := j.appendPretty 0 ""

end GradualJs.Json
