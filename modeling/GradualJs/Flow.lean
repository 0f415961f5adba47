import GradualJs.Flow.Body
import GradualJs.Flow.Demand

/-! The flow of a program. Each scope is followed once, from the outside in, against a
registry that no longer changes; following a function gives its summary. -/
namespace GradualJs

structure ScopeWalk where
  context : WalkContext
  body : List Statement
  entry : Env
  state : WalkState

structure FlowState where
  diagnostics : List Diagnostic := []
  summaries : Table Nat FunctionSummary := {}
  deferred : DeferredCalls := {}
  /-- Every call that was put off, in the order in which that happened. -/
  putOff : List DeferredCall := []
  /-- For each scope that is finished, the join of all values it gave to each local. -/
  assigned : Table ScopeId (Table String Ty) := {}
  receivers : Table ScopeId Ty := {}
  visited : List (ScopeId × Env) := []
  handled : List (ScopeId × Handling) := []
  walks : List ScopeWalk := []

structure Formal where
  name : String
  kind : ParamKind
  type : Ty

namespace Flow

/-- Hoisted declarations: a function has its type from the start, a variable is undefined
unless its type is declared. Formals are not among them. -/
def hoistedType (c : WalkContext) (l : Local) : Option Ty :=
  match l.kind with
  | .parameter => none
  | .function id => some (c.functionValue id)
  | .classType | .caught => some .unknown
  | .binding => some (l.declared.getD .undefined)

def hoist (c : WalkContext) : Env :=
  (c.tree.scope c.scope).locals.entries.foldl (fun env (name,l) =>
    match hoistedType c l with
    | some type => env.set name type
    | none => env) {}

def undeclaredFormals (literal : FunctionLiteral) (s : Signature) : List String :=
  literal.parameters.zipIdx.filterMap fun (p,index) =>
    match (s.params[index]?).bind (·.type) with
    | some _ => none
    | none => some p.name

def formals (literal : FunctionLiteral) (s : Signature) (inferred : Table String Ty) : List Formal :=
  literal.parameters.zipIdx.map fun (p,index) =>
    let declared := s.params[index]?
    { name := p.name
      kind := (declared.map (·.kind)).getD .required
      type := ((declared.bind (·.type)).or (inferred.get? p.name)).getD .unknown }

def formalTypes (formals : List Formal) (kind : ParamKind) : List Ty := (formals.filter (·.kind = kind)).map (·.type)

def entryType (l : Lattice) (f : Formal) : Option Ty :=
  match f.kind with
  | .required => some f.type
  | .optional => l.join f.type .undefined
  | .rest => some (Registry.arrayOf f.type)

def bindFormals (l : Lattice) (env : Env) (formals : List Formal) : Option Env :=
  formals.foldlM (fun env f => return env.set f.name (← entryType l f)) env

/-- An arrow function has the receiver of the scope around it. -/
def receiverOf (state : FlowState) (scope : Scope) (literal : FunctionLiteral) (s : Signature) : Ty :=
  if literal.isArrow then ((scope.parent?).bind state.receivers.get?).getD .unknown
  else s.receiver.getD .unknown

def returnType (l : Lattice) (s : Signature) (returns : List Ty) (fallsOff : Bool) : Option Ty :=
  match s.returnType, s.constructs with
  | some declared, _ => some declared
  | none, some _ => some .undefined
  | none, none =>
    l.joinAll (if fallsOff || returns.isEmpty then returns ++ [.undefined] else returns)

def checkEnd (c : WalkContext) (name : String) (env : Env) (span : Span) : Walk Unit := do
  match c.declaredReturn with
  | none => return
  | some declared =>
    if env.live && !(← Walk.isSubtype c .undefined declared) then
      Walk.report .missingReturnStatement (name ++ " is declared to return " ++
        c.describe declared ++ " but can reach its end without returning") span

def context (r : Registry) (options : Options) (tree : ScopeTree) (state : FlowState)
    (scope : ScopeId) (receiver : Ty) (declaredReturn : Option Ty) : WalkContext where
  registry := r
  options
  tree
  scope
  receiver
  declaredReturn
  summaries := state.summaries
  assignedBy := state.assigned

def startOf (state : FlowState) : WalkState :=
  {diagnostics := state.diagnostics, deferred := state.deferred, putOff := state.putOff}

def finish (state : FlowState) (scope : ScopeId) (walked : WalkState) : FlowState :=
  { state with
    diagnostics := walked.diagnostics
    deferred := walked.deferred
    putOff := walked.putOff
    assigned := state.assigned.insert scope walked.assigned
    visited := walked.visited.map (scope,·) ++ state.visited
    handled := walked.handled.map (scope,·) ++ state.handled }

def topLevel (r : Registry) (options : Options) (tree : ScopeTree) (state : FlowState)
    (scope : ScopeId) : Option FlowState := do
  let c := context r options tree state scope .unknown none
  let body := (tree.scope scope).body
  let (_,walked) ← (Walk.statements c body (hoist c)).run (startOf state)
  return {finish state scope walked with walks := ⟨c,body,hoist c,walked⟩ :: state.walks}

def function (r : Registry) (options : Options) (tree : ScopeTree) (state : FlowState)
    (scope : ScopeId) (literal : FunctionLiteral) : Option FlowState := do
  let decl := r.function? literal.id
  let s := (decl.map (·.signature)).getD {}
  let name := (decl.map (·.name)).getD (tree.scope scope).name
  let demand : DemandContext := ⟨r,tree,scope,undeclaredFormals literal s⟩
  let formals := formals literal s (← demand.infer literal.body.statements)
  let receiver := receiverOf state (tree.scope scope) literal s
  let declaredReturn := if s.constructs.isSome then none else s.returnType
  let c := context r options tree state scope receiver declaredReturn
  let entry ← bindFormals c.lattice (hoist c) formals
  let walk : Walk Env := do
    let env ← Walk.statements c literal.body.statements entry
    checkEnd c name env literal.span
    return env
  let (env,walked) ← walk.run (startOf state)
  let summary : FunctionSummary := {
    id := literal.id
    name
    function := {
      required := formalTypes formals .required
      optional := formalTypes formals .optional
      rest := (formalTypes formals .rest).getLast?
      returnType := ← returnType c.lattice s walked.returns env.live
      receiver := s.receiver
      constructs := s.constructs
      typeParams := s.typeParams } }
  let state := finish state scope walked
  return { state with
    receivers := state.receivers.insert scope receiver
    summaries := state.summaries.insert literal.id summary
    walks := ⟨c,literal.body.statements,entry,walked⟩ :: state.walks }

def step (r : Registry) (options : Options) (tree : ScopeTree) (state : FlowState)
    (scope : ScopeId) : Option FlowState :=
  match (tree.scope scope).function with
  | none => topLevel r options tree state scope
  | some literal => function r options tree state scope literal

def analyze (r : Registry) (options : Options) (p : Program) : Option FlowState := do
  let (_,found) ← (Scoping.ofProgram r p).run {}
  let tree : ScopeTree := ⟨found.scopes⟩
  tree.analysisOrder.foldlM (step r options tree) {diagnostics := found.diagnostics}

end Flow
end GradualJs
