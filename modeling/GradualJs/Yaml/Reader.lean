import GradualJs.Hex
import GradualJs.Yaml.Basic

/-! Reading YAML text, as far as it looks like JSON: a document is empty or a collection in
brackets, and its scalars are quoted or plain. The rules are those of YAML, not of JSON.
Some characters may not occur at all, a key ends on the line where it starts, tabs indent
only within brackets, and an escape is a whole character, never half a surrogate pair. On
the other hand values and last commas may be left out, and any word is a scalar. -/
namespace GradualJs.Yaml.Reader

def isAllowed (c : Char) : Bool :=
  let n := c.toNat
  n = 0x09 || n = 0x0A || n = 0x0D || (0x20 ≤ n && n ≤ 0x7E) || n = 0x85 ||
    (0xA0 ≤ n && n ≤ 0xFFFD) || 0x10000 ≤ n

def isBlank (c : Char) : Bool := c = ' ' || c = '\t'
def isBreak (c : Char) : Bool := c = '\n' || c = '\r' || c = '\u0085' || c = '\u2028' || c = '\u2029'

/-- The characters that end a plain scalar within brackets. -/
def isBracket (c : Char) : Bool := c = ',' || c = '[' || c = ']' || c = '\x7b' || c = '\x7d'

/-- The characters that have a meaning of their own at the start of a node. -/
def isIndicator (c : Char) : Bool := "-?:,[]\x7b\x7d#&*!|>'\"%@`".toList.contains c

/-- A place in a text: how many characters and how many line breaks stand before it. -/
structure Place where
  index : Nat := 0
  line : Nat := 0

def Place.after (place : Place) (c : Char) : Place := ⟨place.index + 1,if isBreak c then place.line + 1 else place.line⟩

structure Cursor where
  rest : List Char
  place : Place

def Cursor.advance (cursor : Cursor) : Cursor :=
  match cursor.rest with
  | [] => cursor
  | c :: rest => ⟨rest,cursor.place.after c⟩

def keyLimit : Nat := 1024

/-- Whether what starts at `start` is a key if its colon stands at `colon`. -/
def isKey (start colon : Place) : Bool := colon.line = start.line && colon.index ≤ start.index + keyLimit

def skipFrom (inComment : Bool) (place : Place) : List Char → Cursor
  | [] => ⟨[],place⟩
  | c :: rest =>
    if inComment then skipFrom (!isBreak c) (place.after c) rest
    else if isBlank c || isBreak c then skipFrom false (place.after c) rest
    else if c = '#' then skipFrom true (place.after c) rest
    else ⟨c :: rest,place⟩

def Cursor.skip (cursor : Cursor) : Cursor := skipFrom false cursor.place cursor.rest

/-- Passes over blanks, line breaks and comments outside of brackets, where a tab may
follow something on its line but not start a line. -/
def skipOutside (inComment tabs : Bool) : List Char → List Char
  | [] => []
  | c :: rest =>
    if isBreak c then skipOutside false false rest
    else if inComment || c = ' ' || (tabs && c = '\t') then skipOutside inComment tabs rest
    else if c = '#' then skipOutside true tabs rest
    else c :: rest

/-! ## Scalars -/

def numbered (digits : List Char) : Option Char := do
  let n ← Hex.value? digits
  if n.isValidChar then some (Char.ofNat n) else none

def simpleEscape (c : Char) : Option Char :=
  match c with
  | '0' => some '\x00'
  | 'a' => some '\x07'
  | 'b' => some '\x08'
  | 't' | '\t' => some '\t'
  | 'n' => some '\n'
  | 'v' => some '\x0b'
  | 'f' => some '\x0c'
  | 'r' => some '\r'
  | 'e' => some '\x1b'
  | ' ' | '"' | '/' | '\\' => some c
  | 'N' => some '\u0085'
  | '_' => some '\u00a0'
  | 'L' => some '\u2028'
  | 'P' => some '\u2029'
  | _ => none

def quotedText (done : List Char) (place : Place) (rest : List Char) : Yaml × Cursor :=
  (.scalar (.ofList done.reverse) false,⟨rest,place⟩)

def doubleQuoted (done : List Char) (place : Place) : List Char → Option (Yaml × Cursor)
  | '"' :: rest => some (quotedText done (place.after '"') rest)
  | '\\' :: 'x' :: a :: b :: rest => do
    doubleQuoted ((← numbered [a,b]) :: done) ⟨place.index + 4,place.line⟩ rest
  | '\\' :: 'u' :: a :: b :: c :: d :: rest => do
    doubleQuoted ((← numbered [a,b,c,d]) :: done) ⟨place.index + 6,place.line⟩ rest
  | '\\' :: 'U' :: a :: b :: c :: d :: e :: f :: g :: h :: rest => do
    let c ← numbered [a,b,c,d,e,f,g,h]
    doubleQuoted (c :: done) ⟨place.index + 10,place.line⟩ rest
  | '\\' :: c :: rest => do
    doubleQuoted ((← simpleEscape c) :: done) ⟨place.index + 2,place.line⟩ rest
  | c :: rest => doubleQuoted (c :: done) (place.after c) rest
  | [] => none

/-- The rest of a scalar after its opening single quote. Doubled, the quote stands for itself. -/
def singleQuoted (done : List Char) (place : Place) : List Char → Option (Yaml × Cursor)
  | '\x27' :: '\x27' :: rest => singleQuoted ('\x27' :: done) ⟨place.index + 2,place.line⟩ rest
  | '\x27' :: rest => some (quotedText done (place.after '\x27') rest)
  | c :: rest => singleQuoted (c :: done) (place.after c) rest
  | [] => none

/-- A word of a plain scalar. A colon belongs to it unless a blank follows; a bracket must
not follow a colon. -/
def word (done : List Char) (place : Place) : List Char → Option (List Char × Cursor)
  | [] => some (done,⟨[],place⟩)
  | c :: rest =>
    if isBlank c || isBreak c || isBracket c then some (done,⟨c :: rest,place⟩)
    else if c = ':' then
      match rest with
      | [] => some (done,⟨c :: rest,place⟩)
      | next :: _ =>
        if isBracket next || next = '?' then none
        else if isBlank next || isBreak next then some (done,⟨c :: rest,place⟩)
        else word (c :: done) (place.after c) rest
    else word (c :: done) (place.after c) rest

def gap (place : Place) : List Char → Cursor
  | [] => ⟨[],place⟩
  | c :: rest => if isBlank c || isBreak c then gap (place.after c) rest else ⟨c :: rest,place⟩

/-- Whether another word of a plain scalar follows. A word that is cut short by an error
counts, so that it is met again when it is read. -/
def hasMore (cursor : Cursor) : Bool :=
  match cursor.rest, word [] cursor.place cursor.rest with
  | '#' :: _, _ => false
  | _, some (more,_) => !more.isEmpty
  | _, none => true

def plain (fuel : Nat) (done : List Char) (cursor : Cursor) : Option (Yaml × Cursor) := do
  let (text,behind) ← word done cursor.place cursor.rest
  let next := gap behind.place behind.rest
  match fuel, hasMore next with
  | fuel + 1, true => plain fuel (' ' :: text) next
  | _, _ => return (.scalar (.ofList text.reverse) true,behind)

def startsPlain : List Char → Bool
  | '-' :: c :: _ => !(isBlank c || isBreak c)
  | c :: _ => !isIndicator c
  | [] => false

/-! ## Collections -/

mutual
/-- A node that starts here, within brackets or at the start of a document. -/
def node (fuel : Nat) (cursor : Cursor) : Option (Yaml × Cursor) :=
  match fuel with
  | 0 => none
  | fuel + 1 =>
    match cursor.rest with
    | '"' :: rest => doubleQuoted [] (cursor.place.after '"') rest
    | '\x27' :: rest => singleQuoted [] (cursor.place.after '\x27') rest
    | '[' :: _ => do
      let (items,behind) ← items fuel cursor.advance.skip
      return (.sequence items,behind)
    | '\x7b' :: _ => do
      let (entries,behind) ← entries fuel cursor.advance.skip
      return (.mapping entries,behind)
    | rest => if startsPlain rest then plain rest.length [] cursor else none

def keyed (fuel : Nat) (cursor : Cursor) : Option (Yaml × Option Yaml × Cursor) :=
  match fuel with
  | 0 => none
  | fuel + 1 => do
    let (key,behind) ← node fuel cursor
    let colon := behind.skip
    match colon.rest with
    | ':' :: _ =>
      if isKey cursor.place colon.place then
        let start := colon.advance.skip
        match start.rest with
        | ',' :: _ | ']' :: _ | '\x7d' :: _ => return (key,some .empty,start)
        | _ =>
          let (value,behind) ← node fuel start
          return (key,some value,behind.skip)
      else none
    | _ => return (key,none,colon)

/-- The items up to a closing bracket. A key with its value is a mapping of one entry. -/
def items (fuel : Nat) (cursor : Cursor) : Option (List Yaml × Cursor) :=
  match fuel, cursor.rest with
  | 0, _ => none
  | _ + 1, ']' :: _ => some ([],cursor.advance)
  | fuel + 1, _ => do
    let (key,value,behind) ← keyed fuel cursor
    let item := value.elim key fun value => .mapping [(key,value)]
    match behind.rest with
    | ',' :: _ =>
      let (others,behind) ← items fuel behind.advance.skip
      return (item :: others,behind)
    | ']' :: _ => return ([item],behind.advance)
    | _ => none

def entries (fuel : Nat) (cursor : Cursor) : Option (List (Yaml × Yaml) × Cursor) :=
  match fuel, cursor.rest with
  | 0, _ => none
  | _ + 1, '\x7d' :: _ => some ([],cursor.advance)
  | fuel + 1, _ => do
    let (key,value,behind) ← keyed fuel cursor
    let entry := (key,value.getD .empty)
    match behind.rest with
    | ',' :: _ =>
      let (others,behind) ← entries fuel behind.advance.skip
      return (entry :: others,behind)
    | '\x7d' :: _ => return ([entry],behind.advance)
    | _ => none
end

end Reader

def withoutMark : List Char → List Char
  | '\ufeff' :: rest => rest
  | cs => cs

def parse (text : String) : Option Yaml := do
  let cs := text.toList
  if !cs.all Reader.isAllowed then none
  match Reader.skipOutside false false (withoutMark cs) with
  | [] => return .empty
  | start@('[' :: _) | start@('\x7b' :: _) =>
    let (value,behind) ← Reader.node (3 * start.length + 1) ⟨start,{}⟩
    if (Reader.skipOutside false true behind.rest).isEmpty then return value else none
  | _ => none

end GradualJs.Yaml
