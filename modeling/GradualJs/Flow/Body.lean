import GradualJs.Flow.Roles

/-! Following statements. -/
namespace GradualJs

structure LoopRound where
  /-- What is known when the body has run and the loop starts over. -/
  back : Env
  exit : Env

namespace Walk

def loopRounds : Nat := 3

/-- Follows a loop quietly until what is known at its head no longer changes, as often as
given. Gives what is known at the head. -/
def settle (c : WalkContext) (round : Env → Walk LoopRound) (start : Env) : Nat → Env → Walk Env
  | 0, head => pure head
  | rounds + 1, head => do
    let result ← quietly (round head)
    let next ← join c start result.back
    if next.same head then return head
    settle c round start rounds next

/-- Only the last round of a loop reports. -/
def runLoop (c : WalkContext) (round : Env → Walk LoopRound) (env : Env) : Walk Env := do
  let head ← settle c round env (loopRounds - 1) env
  return (← round head).exit

def pushJumps (kind : JumpKind) : Walk Unit :=
  modify fun s => {s with jumps := {kind} :: s.jumps}

def popJumps : Walk JumpFrame := do
  match (← get).jumps with
  | [] =>
    underflow
    return {kind := .loop}
  | frame :: outer =>
    modify fun s => {s with jumps := outer}
    return frame

def recordBreak (env : Env) : List JumpFrame → List JumpFrame
  | [] => []
  | frame :: outer => {frame with breaks := frame.breaks ++ [env]} :: outer

def recordContinue (env : Env) : List JumpFrame → List JumpFrame
  | [] => []
  | frame :: outer =>
    if frame.kind = .loop then {frame with continues := frame.continues ++ [env]} :: outer
    else frame :: recordContinue env outer

/-- Ends the body of a loop: `continue` leads back to the head and `break` to the exit. -/
def finishRound (c : WalkContext) (body exit : Env) : Walk LoopRound := do
  let frame ← popJumps
  let back ← joinAll c body frame.continues
  return ⟨back,← joinAll c exit frame.breaks⟩

def loopBody (c : WalkContext) (body : Env → Walk Env) (entry exit : Env) : Walk LoopRound := do
  pushJumps .loop
  finishRound c (← body entry) exit

def valueOfExpression (c : WalkContext) (e : Expression) (env : Env) : Walk (Ty × Env) := (e.roles c).value env

def effect (c : WalkContext) (e : Expression) (env : Env) : Walk Env := do
  return (← valueOfExpression c e env).2

def optionalEffect (c : WalkContext) (e : Option Expression) (env : Env) : Walk Env :=
  match e with
  | some e => effect c e env
  | none => pure env

def branchOn (c : WalkContext) (e : Expression) (env : Env) : Walk Branches := (e.roles c).condition env

/-- A loop without a condition goes on for ever. -/
def optionalCondition (c : WalkContext) (e : Option Expression) (env : Env) : Walk Branches :=
  match e with
  | some e => branchOn c e env
  | none => pure ⟨.boolean,env,.dead⟩

/-- Ends the body of a loop that is tested behind it. `continue` leads to the test. -/
def testRound (c : WalkContext) (condition : Expression) (body : Env) : Walk LoopRound := do
  let frame ← popJumps
  let b ← branchOn c condition (← joinAll c body frame.continues)
  return ⟨b.whenTrue,← joinAll c b.whenFalse frame.breaks⟩

/-- Variables that belong to the registry are not followed. -/
def declarator (c : WalkContext) (env : Env) (d : Declarator) : Walk Env := do
  match d.initializer with
  | none => return env
  | some initializer =>
    let (value,env) ← valueOfExpression c initializer env
    match c.tree.resolve c.scope d.name.name with
    | some (scope,l) =>
      if c.isOwn scope then assignLocal c env d.name.name l value initializer.span true
      else return env
    | none => return env

def checkReturned (c : WalkContext) (type : Ty) (span : Span) : Walk Unit := do
  match c.declaredReturn with
  | some declared =>
    if !(← isSubtype c type declared) then
      reportMismatch c .returnTypeMismatch
        ("returning " ++ c.describe type ++ " where " ++ c.describe declared ++ " is declared")
        type declared span
  | none => return

def noteReturned (type : Ty) (env : Env) : Walk Unit := do
  if env.live && !(← isMuted) then modify fun s => {s with returns := s.returns ++ [type]}

def returnStatement (c : WalkContext) (value : Option Expression) (span : Span) (env : Env) : Walk Env := do
  let (type,env) ← match value with
    | some e => valueOfExpression c e env
    | none => pure (.undefined,env)
  checkReturned c type span
  noteReturned type env
  return env.kill

def checkEnumerable (c : WalkContext) (object : Ty) (span : Span) : Walk Unit :=
  if object.isScalarOnly && !object.isNullOrUndefined && !object.primitives.isEmpty then
    report .invalidOperandType ("for-in over " ++ c.describe object ++ ", which has no properties") span
  else pure ()

def inTryFrame (env : Env) (action : Walk α) : Walk (α × List Env) := do
  modify fun s => {s with tryFrames := [env] :: s.tryFrames}
  let result ← action
  match (← get).tryFrames with
  | [] =>
    underflow
    return (result,[])
  | frame :: outer =>
    modify fun s => {s with tryFrames := outer}
    return (result,frame)

def exposing (action : Walk α) : Walk (α × Exposure) := do
  let outer := (← get).exposure
  modify fun s => {s with exposure := {}}
  let result ← action
  let inner := (← get).exposure
  modify fun s => {s with exposure := outer}
  return (result,inner)

/-- Adds what was passed in a `try` block without a handler to the block around it. -/
def expose (inner : Exposure) : Walk Unit :=
  modify fun s => {s with exposure := inner ++ s.exposure}

def passOn (seen : List Env) : Walk Unit :=
  modify fun s =>
    match s.tryFrames with
    | [] => s
    | frame :: outer => {s with tryFrames := (frame ++ seen) :: outer}

def caughtEnv (c : WalkContext) (seen : List Env) : Walk Env := do
  return (← joinAll c .dead seen).revive

/-- A finalizer also runs when no path reaches it in the normal way. -/
def runFinalizer (c : WalkContext) (finalizer : Option (Env → Walk Env)) (seen : List Env)
    (after : Env) : Walk Env := do
  match finalizer with
  | none => return after
  | some body =>
    if after.live then entering body after
    else
      discard (entering body (← caughtEnv c seen))
      return after

/-- What a handler starts with. Of the value that it catches nothing is known. -/
def handlerEntry (c : WalkContext) (parameter : Option Identifier) (seen : List Env) : Walk Env := do
  let caught ← caughtEnv c seen
  match parameter with
  | some id => writeLocal c caught id.name .unknown
  | none => return caught

/-- Runs the handler of a `try` block. What a block without one has seen and passed belongs to the
block around it. -/
def runHandler (c : WalkContext) (handler : Option (Option Identifier × (Env → Walk Env)))
    (seen : List Env) (exposure : Exposure) (left : Env) : Walk Env := do
  match handler with
  | some (parameter,catching) =>
    let entry ← handlerEntry c parameter seen
    modify fun s => {s with handled := ⟨seen,exposure,entry⟩ :: s.handled}
    join c left (← entering catching entry)
  | none =>
    passOn seen
    expose exposure
    return left

def runTry (c : WalkContext) (body : Env → Walk Env) (handler : Option (Option Identifier × (Env → Walk Env)))
    (finalizer : Option (Env → Walk Env)) (env : Env) : Walk Env := do
  modify fun s => {s with tried := env :: s.tried}
  let ((left,seen),exposure) ← exposing (inTryFrame env (body env))
  runFinalizer c finalizer seen (← runHandler c handler seen exposure left)

/-- Follows the cases of a switch. A case is entered by its test, or from the case before
it. Gives what is known behind the last case. -/
def runCases (c : WalkContext) (entry : Env) : List (Option Expression × (Env → Walk Env)) → Env → Walk Env
  | [], falling => pure falling
  | (test,body) :: rest, falling => do
    let tested ← optionalEffect c test entry
    runCases c entry rest (← entering body (← join c tested falling))

def runSwitch (c : WalkContext) (discriminant : Expression)
    (cases : List (Option Expression × (Env → Walk Env))) (env : Env) : Walk Env := do
  let env ← effect c discriminant env
  pushJumps .switch
  let falling ← runCases c env cases .dead
  let frame ← popJumps
  let exit ← joinAll c falling frame.breaks
  if cases.any (·.1.isNone) then return exit
  join c exit env

def requireFunctionScoped (c : WalkContext) (kind : VarKind) (span : Span) : Walk Unit :=
  if kind = .var then pure () else requiresTranspilation c "let and const declarations" span

mutual
def statement (c : WalkContext) (s : Statement) : Env → Walk Env :=
  following <| match s with
  | .var kind declarators _ span => fun env => do
    requireFunctionScoped c kind span
    declarators.foldlM (declarator c) env
  | .function _ _ | .empty _ => pure
  | .classDecl d => fun env => do
    requiresTranspilation c "class declaration" d.span
    return env
  | .expression value _ => effect c value
  | .returnStmt value span => returnStatement c value span
  | .ifStmt condition consequent alternative _ => fun env => do
    let b ← branchOn c condition env
    let first ← entering (statement c consequent) b.whenTrue
    let second ← entering (optionalStatement c alternative) b.whenFalse
    join c first second
  | .whileLoop condition body _ => fun env =>
    let round (entry : Env) : Walk LoopRound := do
      let b ← branchOn c condition entry
      loopBody c (entering (statement c body)) b.whenTrue b.whenFalse
    runLoop c round env
  | .doWhile body condition _ => fun env =>
    let round (entry : Env) : Walk LoopRound := do
      pushJumps .loop
      testRound c condition (← entering (statement c body) entry)
    runLoop c round env
  | .forLoop start condition update body _ => fun env => do
    let env ← optionalStatement c start env
    let round (entry : Env) : Walk LoopRound := do
      let b ← optionalCondition c condition entry
      let result ← loopBody c (entering (statement c body)) b.whenTrue b.whenFalse
      return {result with back := ← optionalEffect c update result.back}
    runLoop c round env
  | .forIn key declaration object body span => fun env => do
    requireFunctionScoped c (declaration.getD .var) span
    let (type,env) ← valueOfExpression c object env
    checkEnumerable c type object.span
    let round (entry : Env) : Walk LoopRound :=
      let assigning (env : Env) : Walk Env := do
        entering (statement c body) (← assignName c key .string key.span env)
      loopBody c assigning entry entry
    runLoop c round env
  | .block body => block c body
  | .breakStmt _ => fun env => do
    modify fun s => {s with jumps := recordBreak env s.jumps}
    return env.kill
  | .continueStmt _ => fun env => do
    modify fun s => {s with jumps := recordContinue env s.jumps}
    return env.kill
  | .throwStmt value _ => fun env => do
    let env ← effect c value env
    snapshot env
    return env.kill
  | .tryStmt body handler finalizer _ =>
    runTry c (block c body) (handlerBody c handler) (finalizerBody c finalizer)
  | .switch discriminant cases _ => runSwitch c discriminant (caseBodies c cases)
termination_by structural s

def optionalStatement (c : WalkContext) : Option Statement → Env → Walk Env
  | none, env => pure env
  | some s, env => statement c s env
termination_by structural s => s

def block (c : WalkContext) : Block → Env → Walk Env
  | ⟨list,_⟩, env => statements c list env
termination_by structural b => b

def handlerBody (c : WalkContext) : Option CatchClause → Option (Option Identifier × (Env → Walk Env))
  | none => none
  | some ⟨parameter,body⟩ => some (parameter,block c body)
termination_by structural h => h

def finalizerBody (c : WalkContext) : Option Block → Option (Env → Walk Env)
  | none => none
  | some body => some (block c body)
termination_by structural b => b

def caseBodies (c : WalkContext) : List SwitchCase → List (Option Expression × (Env → Walk Env))
  | [] => []
  | ⟨test,body⟩ :: rest => (test,statements c body) :: caseBodies c rest
termination_by structural list => list

/-- Statements in order. The environment after each of them may reach a handler. -/
def statements (c : WalkContext) : List Statement → Env → Walk Env
  | [], env => visiting (fun env => [env]) pure env
  | s :: rest, env => do
    let env ← statement c s env
    snapshot env
    statements c rest env
termination_by structural list => list
end

end Walk
end GradualJs
