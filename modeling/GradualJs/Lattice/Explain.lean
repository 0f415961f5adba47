import GradualJs.Lattice.Basic
import GradualJs.Registry.Describe

/-! Why one type does not fit where another is expected, in words. -/
namespace GradualJs.Lattice

def describe (l : Lattice) (t : Ty) : String := l.registry.describe t

def fieldProblem (l : Lattice) (found : List Field) (foundLoose : Bool) (expected : Field) : Option (Option String) :=
  match Field.find? found expected.name with
  | none => some (if !expected.optional && !foundLoose
      then some ("property " ++ expected.name ++ " is missing") else none)
  | some field =>
    if field.optional && !expected.optional then
      some (some ("property " ++ expected.name ++ " is optional but required"))
    else do
      if ← l.isSubtype field.type expected.type then return none
      return some ("property " ++ expected.name ++ " has type " ++ l.describe field.type ++
        " where " ++ l.describe expected.type ++ " was expected")

def explainFields (l : Lattice) (found : List Field) (foundLoose : Bool)
    (expected : List Field) : Option (Option String) := do
  let problems ← expected.filterMapM (l.fieldProblem found foundLoose)
  return if problems.isEmpty then none else some (Registry.joined ", " problems)

def explainArgs (l : Lattice) : Nat → List (Ty × Ty) → Option (Option String)
  | _, [] => some none
  | index, (found,expected) :: rest => do
    if ← l.isSubtype found expected then l.explainArgs (index + 1) rest
    else return some (s!"type argument {index} is " ++ l.describe found ++ " where " ++
      l.describe expected ++ " was expected")

def explainParams (l : Lattice) (found expected : FunctionType) : List Nat → Option (Option String)
  | [] => some none
  | index :: rest =>
    match found.param index, expected.param index with
    | some accepted, some passed => do
      if ← l.isSubtype passed accepted then l.explainParams found expected rest
      else return some (s!"parameter {index + 1} accepts " ++ l.describe accepted ++ " but " ++
        l.describe passed ++ " may be passed")
    | _, _ => l.explainParams found expected rest

def explainFunction (l : Lattice) (found expected : FunctionType) : Option (Option String) := do
  if found.minArity > expected.minArity then
    return some (s!"the function requires {found.minArity} arguments but callers pass at least "
      ++ s!"{expected.minArity}")
  match ← l.explainParams found expected (List.range expected.positionalLength) with
  | some text => return some text
  | none =>
    if ← l.isSubtype found.returnType expected.returnType then return none
    return some ("the return type " ++ l.describe found.returnType ++ " is not a subtype of " ++
      l.describe expected.returnType)

/-- A class is not compared by its properties, unless a record is offered for it. -/
def explainStructure (l : Lattice) (found expected : Obj) : Option (Option String) :=
  let (fields,loose) := l.registry.fieldsOf found
  match expected with
  | .record record => l.explainFields fields loose record.fields
  | .nominal i =>
    let isRecord := match found with
      | .record _ => true
      | _ => false
    if (l.registry.nominal i.id).kind.isInterface || isRecord then
      l.explainFields fields loose (l.registry.instanceFields i)
    else some none
  | _ => some none

def explainObject (l : Lattice) (found expected : Obj) : Option (Option String) :=
  match found, expected with
  | .nominal x, .nominal y =>
    if x.id = y.id then l.explainArgs 1 (x.args.zip y.args) else l.explainStructure found expected
  | .function f, .function g => l.explainFunction f g
  | _, _ => l.explainStructure found expected

def explainMember (l : Lattice) (found expected : Ty) : Option (Option String) :=
  match found.objects with
  | [] => some none
  | object :: _ => do
    let lines ← expected.objects.filterMapM (l.explainObject object)
    return if lines.isEmpty then none else some (Registry.joined "; " lines)

/-- Where one type departs from another. There is no text when it fits, or when there is
nothing to add to the two types themselves. -/
def explainMismatch (l : Lattice) (found expected : Ty) : Option (Option String) := do
  if ← l.isSubtype found expected then return none
  if found.memberCount > 1 then
    match ← found.members.findM? fun m => do return !(← l.isSubtype m expected) with
    | none => return none
    | some offending =>
      let text := "the union member " ++ l.describe offending ++ " is not a subtype of " ++ l.describe expected
      match ← l.explainMember offending expected with
      | some detail => return some (text ++ "; " ++ detail)
      | none => return some text
  else l.explainMember found expected

end GradualJs.Lattice
