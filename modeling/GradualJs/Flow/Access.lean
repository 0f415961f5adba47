import GradualJs.Flow.Walk

/-! Reading and writing properties and elements, for every kind of object. -/
namespace GradualJs

structure PropertyRead where
  type : Ty
  /-- The function literal behind the property, when there is exactly one. -/
  function : Option Nat

inductive MemberLookup where
  | found (type : Ty) (function : Option Nat)
  | missing
  /-- The object may have any property. -/
  | unlimited

namespace MemberLookup

def types (lookups : List MemberLookup) : List Ty :=
  lookups.filterMap fun
    | .found type _ => some type
    | _ => none

def function (lookups : List MemberLookup) : Option Nat :=
  let found := lookups.filterMap fun
    | .found _ function => some function
    | _ => none
  match found with
  | [only] => only
  | _ => none

def isMissing : MemberLookup → Bool
  | .missing => true
  | _ => false

def isUnlimited : MemberLookup → Bool
  | .unlimited => true
  | _ => false

end MemberLookup

namespace Walk

def valueOf (c : WalkContext) (type : Ty) (optional : Bool) : Walk Ty :=
  if optional then ask (c.lattice.join type .undefined) else pure type

def declaredValue (c : WalkContext) (p : PropertyDecl) : Walk Ty := valueOf c p.type p.optional
def fieldValue (c : WalkContext) (f : Field) : Walk Ty := valueOf c f.type f.optional
def nominalName (c : WalkContext) (i : Instance) : String := (c.registry.nominal i.id).name

def lookupInstance (c : WalkContext) (i : Instance) (name : String) (span : Span) : Walk MemberLookup := do
  if i.id = .object then return .unlimited
  if c.registry.accessOf i.id = .dict then
    report .illegalDotAccessOnDict ("dict type " ++ nominalName c i ++
      " must be accessed with brackets, not ." ++ name) span
    return .unlimited
  match c.registry.lookupProperty i name with
  | some lookup => return .found (← declaredValue c lookup.decl) lookup.decl.function
  | none => return .missing

def lookupNamespace (c : WalkContext) (id : NamespaceId) (name : String) : Walk MemberLookup := do
  let space := c.registry.space id
  match space.members.get? name, c.registry.namespaceProperty id name with
  | some (.value decl), _ => return .found (← declaredValue c decl) decl.function
  | _, some type => return .found type none
  | _, none =>
    return match space.kind with
      | .global | .incidental => .unlimited
      | .constructor _ => if name = "prototype" then .unlimited else .missing
      | .real | .enumObject _ => .missing

def lookupMember (c : WalkContext) (name : String) (span : Span) : Obj → Walk MemberLookup
  | .nominal i => lookupInstance c i name span
  | .record r => do
    match Field.find? r.fields name with
    | some field => return .found (← fieldValue c field) none
    | none => return if r.loose then .unlimited else .missing
  | .function _ => pure .unlimited
  | .namespaceValue id => lookupNamespace c id name

/-- Primitive values are wrapped when a property is asked of them, and a variable may stand
for anything. -/
def mayHaveMore (u : Union) : Bool :=
  !u.vars.isEmpty || !u.enums.isEmpty || !(u.primitives.without .nullOrUndefined).isEmpty

def readUnion (c : WalkContext) (object : Ty) (u : Union) (name : String) (span : Span) : Walk PropertyRead := do
  let lookups ← u.objects.mapM (lookupMember c name span)
  let isMissing := lookups.any (·.isMissing)
  match MemberLookup.types lookups with
  | [] =>
    if isMissing && !mayHaveMore u && !lookups.any (·.isUnlimited) then
      report .inexistentProperty ("property " ++ name ++ " never defined on " ++ c.describe object) span
    return ⟨.unknown,none⟩
  | types =>
    if isMissing then
      report .possiblyInexistentProperty ("property " ++ name ++
        " may not be defined on every member of " ++ c.describe object) span
    return ⟨← ask (c.lattice.joinAll types),MemberLookup.function lookups⟩

def readProperty (c : WalkContext) (object : Ty) (name : String) (span : Span) : Walk PropertyRead := do
  match object with
  | .union u =>
    if object.isNullOrUndefined then
      report .propertyAccessOnNonObject ("cannot read property " ++ name ++ " of " ++ c.describe object) span
      return ⟨.unknown,none⟩
    if object.isNullable then
      report .nullableDereference ("reading property " ++ name ++ " of " ++ c.describe object ++
        ", which may be null or undefined") span
    readUnion c object u name span
  | _ => return ⟨.unknown,none⟩

def checkWrite (c : WalkContext) (name : String) (value expected : Ty) (declared : Bool)
    (span : Span) : Walk (Option Ty) := do
  if !declared then return none
  if ← checkStored c ("assignment to property " ++ name) value expected span then return none
  return some expected

/-- Checks a value against a declared property. Gives the declared type when the value does
not fit it. -/
def checkPropertyWrite (c : WalkContext) (p : PropertyDecl) (name : String) (value : Ty)
    (span : Span) : Walk (Option Ty) := do
  if p.constant && p.span ≠ span then
    report .constPropertyReassigned ("constant property " ++ name ++ " assigned a value more than once") span
  checkWrite c name value (← declaredValue c p) p.declared span

def writeInstance (c : WalkContext) (i : Instance) (name : String) (value : Ty) (span : Span) : Walk (Option Ty) := do
  if i.id = .object then return none
  let access := c.registry.accessOf i.id
  if access = .dict then
    report .illegalDotAccessOnDict ("dict type " ++ nominalName c i ++
      " must be written with brackets, not ." ++ name) span
    return none
  match c.registry.lookupProperty i name with
  | some lookup => checkPropertyWrite c lookup.decl name value span
  | none =>
    if access = .struct then
      report .illegalPropertyCreationOnStruct ("cannot add property " ++ name ++ " to struct " ++ nominalName c i) span
    return none

/-- Writes a property of one object. Gives a type when something else than the value is to
be remembered. -/
def writeMember (c : WalkContext) (name : String) (value : Ty) (span : Span) : Obj → Walk (Option Ty)
  | .nominal i => writeInstance c i name value span
  | .record r => do
    match Field.find? r.fields name with
    | some field => checkWrite c name value (← fieldValue c field) field.declared span
    | none => return none
  | .namespaceValue id => do
    match (c.registry.space id).members.get? name with
    | some (.value decl) => checkPropertyWrite c decl name value span
    | _ => return none
  | .function _ => pure none

def extendRecord (object : Ty) (path name : String) (stored : Ty) (env : Env) : Env :=
  if Name.isDotted path || path = "this" then env
  else match object.objects with
    | [.record r] =>
      if !r.loose && (Field.find? r.fields name).isNone && object.memberCount = 1 then
        let field : Field := {name, type := stored}
        env.refine path (.record {r with fields := field.put r.fields})
      else env
    | _ => env

def writeProperty (c : WalkContext) (object : Ty) (path : Option String) (name : String)
    (value : Ty) (span : Span) (env : Env) : Walk Env := do
  if object.isNullOrUndefined then
    report .propertyAccessOnNonObject ("cannot set property " ++ name ++ " of " ++ c.describe object) span
  else if object.isNullable then
    report .nullableDereference ("setting property " ++ name ++ " of " ++ c.describe object ++
      ", which may be null or undefined") span
  let replaced ← object.objects.mapM (writeMember c name value span)
  let stored := (replaced.filterMap id).getLast?.getD value
  return match path with
    | none => env
    | some path => (extendRecord object path name stored env).set (Name.property path name) stored

def elementOf (c : WalkContext) (key : Ty) (span : Span) : Obj → Walk Ty
  | .nominal i => do
    if i.id = .array then
      if !(← isSubtype c key .number) then
        report .invalidIndexType ("array index must be number, found " ++ c.describe key) span
      return i.args.head?.getD .unknown
    if c.registry.accessOf i.id = .struct then
      report .illegalBracketAccessOnStruct
        ("struct type " ++ nominalName c i ++ " cannot be accessed with brackets") span
    return .unknown
  | _ => pure .unknown

def elementAccess (c : WalkContext) (object key : Ty) (span : Span) : Walk Ty := do
  match object with
  | .union u =>
    if object.isNullOrUndefined then
      report .propertyAccessOnNonObject ("cannot index " ++ c.describe object) span
      return .unknown
    if object.isNullable then
      report .nullableDereference ("indexing " ++ c.describe object ++ ", which may be null or undefined") span
    match ← u.objects.mapM (elementOf c key span) with
    | [] => return .unknown
    | elements => ask (c.lattice.joinAll elements)
  | _ => return .unknown

end Walk
end GradualJs
