import GradualJs.Deferred
import GradualJs.Flow.Env
import GradualJs.Flow.Scope
import GradualJs.Options
import GradualJs.Declarations.SimpleType

/-! Following the body of one scope. What stays fixed during the walk is its context; what
it gathers is its state. A walk is muted while it only explores: then it reports nothing,
puts off no calls and notes no results. -/
namespace GradualJs

structure WalkContext where
  registry : Registry
  options : Options
  tree : ScopeTree
  scope : ScopeId
  receiver : Ty
  declaredReturn : Option Ty
  summaries : Table Nat FunctionSummary
  /-- For each scope that is finished, the join of all values it gave to each local. -/
  assignedBy : Table ScopeId (Table String Ty)

structure Callee where
  type : Ty
  receiver : Option Ty := none
  function : Option Nat := none

inductive JumpKind where
  | loop
  | switch
  deriving DecidableEq

/-- Environments that leave a loop or a switch by `break` or `continue`. -/
structure JumpFrame where
  kind : JumpKind
  breaks : List Env := []
  continues : List Env := []

/-- What was passed in a `try` block, from the start of the block on. The blocks of inner `try`
statements with a handler are left out. -/
structure Exposure where
  /-- What the statements were given, the latest first. -/
  passed : List Env := []
  /-- What was known where branches, bodies of loops, cases, handlers and finalizers were
  entered. -/
  entered : List Env := []

instance : Append Exposure where
  append later earlier := ⟨later.passed ++ earlier.passed,later.entered ++ earlier.entered⟩

structure Handling where
  seen : List Env
  exposure : Exposure
  entry : Env

structure MetCall where
  span : Span
  name : Option String
  isNew : Bool
  env : Env
  callee : Callee

structure WalkState where
  diagnostics : List Diagnostic := []
  deferred : DeferredCalls := {}
  /-- Every call that was put off, the latest last, whether or not another one took its place. -/
  putOff : List DeferredCall := []
  /-- The types of the `return` statements that can be reached. -/
  returns : List Ty := []
  /-- The loops and switches around the current point, the innermost first. -/
  jumps : List JumpFrame := []
  /-- For each `try` block around the current point, the environments seen in it. -/
  tryFrames : List (List Env) := []
  muted : Nat := 0
  /-- A frame was taken from an empty stack, or a walk that was not muted was unmuted. -/
  underflowed : Bool := false
  assigned : Table String Ty := {}
  /-- What was known at each point that was passed, the latest first. -/
  visited : List Env := []
  /-- What was passed in the innermost `try` block that has a handler. -/
  exposure : Exposure := {}
  /-- The handlers that were entered, and what was known at the start of each `try`
  statement. -/
  handled : List Handling := []
  tried : List Env := []
  calls : List MetCall := []

/-- There is no result when types are nested too deep. -/
abbrev Walk := StateT WalkState Option

namespace WalkContext

def lattice (c : WalkContext) : Lattice := {registry := c.registry}
def describe (c : WalkContext) (t : Ty) : String := c.registry.describe t
def isOwn (c : WalkContext) (id : ScopeId) : Bool := id = c.scope

/-- The type of a function literal: its summary once there is one, otherwise what its
comment declares. -/
def functionValue (c : WalkContext) (id : Nat) : Ty :=
  match c.summaries.get? id with
  | some summary => .function summary.function
  | none => c.registry.literalType id

/-- A local of an enclosing scope: its declared type, or all that was ever assigned to it. -/
def captured (c : WalkContext) (scope : ScopeId) (name : String) (l : Local) : Ty :=
  match l.declared, l.kind with
  | some declared, _ => declared
  | none, .function id => c.functionValue id
  | none, _ => ((c.assignedBy.get? scope).bind (·.get? name)).getD .unknown

def globalValue (c : WalkContext) (name : String) : Option Ty :=
  match name with
  | "undefined" => some .undefined
  | "NaN" | "Infinity" => some .number
  | _ =>
    match (c.registry.global? name).bind Registry.memberType with
    | some type => some type
    | none =>
      match c.registry.lookup name with
      | some (.nominal id) => some (.namespaceValue (c.registry.nominal id).statics)
      | some (.space id) => some (.namespaceValue id)
      | some (.enumType id) => some (.namespaceValue (c.registry.enumDecl id).space)
      | some (.typedef _) | none => none

def functionNamed (c : WalkContext) (name : String) : Option Nat :=
  match c.tree.resolve c.scope name with
  | some (_,l) => l.function
  | none =>
    match c.registry.global? name with
    | some (.value decl) => decl.function
    | _ => none

end WalkContext

namespace Walk

def ask (answer : Option α) : Walk α := StateT.lift answer

def report (kind : DiagnosticKind) (message : String) (span : Span) : Walk Unit :=
  modify fun s =>
    if s.muted = 0 then {s with diagnostics := s.diagnostics ++ [.report kind message span]}
    else s

def quietly (action : Walk α) : Walk α := do
  modify fun s => {s with muted := s.muted + 1}
  let result ← action
  modify fun s => {s with muted := s.muted - 1, underflowed := s.underflowed || s.muted == 0}
  return result

def underflow : Walk Unit := modify fun s => {s with underflowed := true}

def visiting (left : α → List Env) (walk : Env → Walk α) (env : Env) : Walk α := do
  modify fun s => {s with visited := env :: s.visited}
  let result ← walk env
  modify fun s => {s with visited := left result ++ s.visited}
  return result

def passing (walk : Env → Walk α) (env : Env) : Walk α := do
  modify fun s => {s with exposure := {passed := [env]} ++ s.exposure}
  walk env

/-- The walk of a statement, which notes what it is given and what is known behind it. -/
def following (walk : Env → Walk Env) : Env → Walk Env := passing (visiting (fun env => [env]) walk)

/-- Notes what is known where something is entered that a statement consists of. -/
def entering (walk : Env → Walk α) (env : Env) : Walk α := do
  modify fun s => {s with exposure := {entered := [env]} ++ s.exposure}
  walk env

def isMuted : Walk Bool := do return (← get).muted > 0
def join (c : WalkContext) (a b : Env) : Walk Env := ask (a.join c.lattice b)
def joinAll (c : WalkContext) (start : Env) (envs : List Env) : Walk Env := ask (start.joinAll c.lattice envs)
def isSubtype (c : WalkContext) (a b : Ty) : Walk Bool := ask (c.lattice.isSubtype a b)

def reportMismatch (c : WalkContext) (kind : DiagnosticKind) (headline : String)
    (found expected : Ty) (span : Span) : Walk Unit := do
  report kind (← ask (c.lattice.mismatch headline found expected)) span

def foundRequired (c : WalkContext) (what : String) (found expected : Ty) : String :=
  what ++ ": found " ++ c.describe found ++ ", required " ++ c.describe expected

def checkStored (c : WalkContext) (what : String) (value expected : Ty) (span : Span) : Walk Bool := do
  if ← isSubtype c value expected then return true
  reportMismatch c .mistypedAssignRhs (foundRequired c what value expected) value expected span
  return false

/-- The type that a type expression in the body stands for. What is wrong with it is
reported in every round. -/
def typeExpr (c : WalkContext) (e : TypeExpr) : Walk Ty := do
  let resolution := c.registry.typeOrReport (c.tree.scope c.scope).templates e
  let (type,diagnostics) ← ask (resolution.run (← get).diagnostics)
  modify fun s => {s with diagnostics}
  return type

/-- Gives a local of the current scope a value, which inner scopes will see as well. -/
def writeLocal (c : WalkContext) (env : Env) (name : String) (type : Ty) : Walk Env := do
  let joined ← match (← get).assigned.get? name with
    | some previous => ask (c.lattice.join previous type)
    | none => pure type
  modify fun s => {s with assigned := s.assigned.insert name joined}
  return env.set name type

def snapshot (env : Env) : Walk Unit :=
  modify fun s =>
    match s.tryFrames with
    | [] => s
    | frame :: outer => {s with tryFrames := (frame ++ [env]) :: outer}

def requiresTranspilation (c : WalkContext) (what : String) (span : Span) : Walk Unit :=
  if c.options.inputMode = .mixed then
    report .requiresTranspilation (what ++ " requires transpilation in mixed input mode") span
  else pure ()

def reportReassigned (name : String) (span : Span) : Walk Unit :=
  report .constReassigned ("constant " ++ name ++ " assigned a value more than once") span

/-- Assigns to a local of the current scope. A value that does not fit the declared type
leaves the declared type behind, and so does one of which nothing is known. -/
def assignLocal (c : WalkContext) (env : Env) (name : String) (l : Local) (value : Ty)
    (span : Span) (declaring : Bool) : Walk Env := do
  if l.constant && !declaring then reportReassigned name span
  let stored ← match l.declared with
    | some declared => do
      let fits ← checkStored c ("assignment to " ++ name) value declared span
      pure (if fits && !value.isUnknown && !value.isBottom then value else declared)
    | none => pure value
  writeLocal c env name stored

def reportUndeclared (message : String) (span : Span) : Walk Unit := report .undefinedName message span

/-- Assigns to a name. Only locals of the current scope are followed. -/
def assignName (c : WalkContext) (id : Identifier) (value : Ty) (span : Span) (env : Env) : Walk Env := do
  let check (constant : Bool) (declared : Option Ty) : Walk Unit := do
    if constant then reportReassigned id.name span
    match declared with
    | some type => discard (checkStored c ("assignment to " ++ id.name) value type span)
    | none => pure ()
  match c.tree.resolve c.scope id.name with
  | some (scope,l) =>
    if c.isOwn scope then assignLocal c env id.name l value span false
    else do
      check l.constant l.declared
      return env
  | none =>
    match c.registry.global? id.name with
    | some (.value decl) => check decl.constant (if decl.declared then some decl.type else none)
    | some _ => pure ()
    | none =>
      if (c.registry.lookup id.name).isNone then
        reportUndeclared ("assignment to undeclared variable " ++ id.name) id.span
    return env

def readName (c : WalkContext) (id : Identifier) (env : Env) : Walk Ty := do
  match c.tree.resolve c.scope id.name with
  | some (scope,l) =>
    return if c.isOwn scope then (env.get? id.name).getD (l.declared.getD .unknown)
      else c.captured scope id.name l
  | none =>
    match c.globalValue id.name with
    | some type => return type
    | none =>
      reportUndeclared ("variable " ++ id.name ++ " is not declared") id.span
      return .unknown

end Walk
end GradualJs
