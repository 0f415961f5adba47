/-! Dotted names such as `a.b.c`, and template variables, which are written
`Owner#T` to keep variables of different declarations apart. -/
namespace GradualJs.Name

def cutLast (mark : Char) (name : String) : Option (String × String) :=
  let reversed := name.toList.reverse
  match reversed.dropWhile (· ≠ mark) with
  | [] => none
  | _ :: before =>
    some (.ofList before.reverse,.ofList (reversed.takeWhile (· ≠ mark)).reverse)

def split (name : String) : Option String × String :=
  match cutLast '.' name with
  | some (parent,last) => (some parent,last)
  | none => (none,name)

def startsWith (start name : String) : Bool := start.toList.isPrefixOf name.toList

def stripEnd (ending name : String) : Option String :=
  if ending.toList.isSuffixOf name.toList then
    some (.ofList (name.toList.take (name.toList.length - ending.toList.length)))
  else none

/-- `C.prototype.p` names the property `p` of the instances of `C`. -/
def splitPrototype (name : String) : Option (String × String) := do
  let (owner,property) ← cutLast '.' name
  let owner ← stripEnd ".prototype" owner
  return (owner,property)

def segmentsFrom (current : List Char) : List Char → List (List Char)
  | [] => [current.reverse]
  | c :: rest =>
    if c = '.' then current.reverse :: segmentsFrom [] rest else segmentsFrom (c :: current) rest

def segments (name : String) : List String := (segmentsFrom [] name.toList).map String.ofList
def isDotted (name : String) : Bool := name.toList.contains '.'
def property (path name : String) : String := path ++ "." ++ name
def isBelow (path key : String) : Bool := startsWith (path ++ ".") key
def qualify (owner template : String) : String := owner ++ "#" ++ template

/-- A template variable as its declaration writes it. -/
def short (template : String) : String :=
  match cutLast '#' template with
  | some (_,name) => name
  | none => template

end GradualJs.Name
