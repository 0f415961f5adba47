import GradualJs.Proofs.Flow.Roles

/-! What following statements leaves alone. A relation between the states before and behind a
statement may depend on what the statement is given. It holds of all statements if it allows for
what expressions note, for jumps and for results, and if the composite statements keep it. -/
namespace GradualJs

/-! What evaluating an expression leaves alone. A relation that allows for what is reported, put off
and noted holds between the states before and behind every expression. -/
section Evaluation

namespace Walk

/-- The relation also allows for what is noted on the way through an expression. -/
class Noting (R : WalkState → WalkState → Prop) : Prop extends Frame R where
  noted : ∀ s visited assigned calls, R s {s with visited, assigned, calls}

namespace Moves

section Environments

variable [noting : Noting R] {c : WalkContext} {α : Type} {env : Env}

instance visiting [Moves R (walk env)] : Moves R (Walk.visiting left walk env) := by
  have noted (envs : List Env) : Moves R (modify fun s => {s with visited := envs ++ s.visited}) :=
    of_modify fun s => noting.noted s _ s.assigned s.calls
  have entered : Moves R (modify fun s => {s with visited := env :: s.visited}) := noted [env]
  unfold Walk.visiting
  infer_instance

instance join : Moves R (Walk.join c env other) := ask _
instance joinAll : Moves R (Walk.joinAll c env envs) := ask _
instance meet : Moves R (Walk.meet call) := of_modify fun s => noting.noted s s.visited s.assigned _

instance writeLocal : Moves R (Walk.writeLocal c env name type) :=
  (Yields.writeLocal fun s _ => noting.noted s s.visited _ s.calls).moves

instance assignLocal : Moves R (Walk.assignLocal c env name l value span declaring) := by
  unfold Walk.assignLocal
  dsimp only
  split <;> split <;> infer_instance

instance assignName {id : Identifier} : Moves R (Walk.assignName c id value span env) := by
  obtain ⟨_,_,-,-,eq⟩ | ⟨check,moves,eq⟩ := assignName_cases c id value span env
  · rw [eq]
    infer_instance
  · have := moves R
    rw [eq]
    infer_instance

instance writeProperty {object : Ty} : Moves R (Walk.writeProperty c object path name value span env) :=
  Yields.writeProperty.moves

end Environments

end Moves

/-- Whatever role an expression plays, it leads to related states. -/
def leading (c : WalkContext) (R : WalkState → WalkState → Prop) [Noting R] [Deferring c R] : Regard c where
  toWalking := .between R
  holds _ := True
  Knows _ _ := True
  harmless _ := True
  walks_meet _ := .of_moves _
  visiting {_ left walk env post} _ walks _ := by
    have noted (f : List Env → List Env) : Moves R (modify fun s => {s with visited := f s.visited}) :=
      .of_modify fun s => Noting.noted s _ s.assigned s.calls
    exact .moves_then fun _ => walks.bind fun a held => .moves_then fun _ => .pure held
  refine _ held := held
  join _ _ := .of_moves _
  readName _ := .of_moves _
  assignName _ := .of_moves _
  writeProperty _ _ := .of_moves _
  this _ := trivial
  dotted := Regard.dotted_trivial

end Walk

namespace Walk.Moves

variable [Noting R] {c : WalkContext} [Deferring c R] {env : Env}

instance valueOfExpression : Moves R (Walk.valueOfExpression c e env) :=
  (Regard.walks_value (w := leading c R) (fun _ _ => trivial) trivial).moves

instance effect : Moves R (Walk.effect c e env) := by
  unfold Walk.effect
  infer_instance

instance optionalEffect : Moves R (Walk.optionalEffect c e env) := by
  cases e
  · exact pure env
  · exact effect

instance branchOn : Moves R (Walk.branchOn c e env) :=
  (Regard.walks_condition (w := leading c R) (fun _ _ => trivial) (fun _ _ => trivial) trivial).moves

instance optionalCondition : Moves R (Walk.optionalCondition c e env) := by
  cases e
  · exact pure _
  · exact branchOn

instance declarator : Moves R (Walk.declarator c env d) := by
  unfold Walk.declarator
  split
  · infer_instance
  · refine @bind _ _ _ _ _ _ inferInstance fun _ => ?_
    dsimp only
    split <;> infer_instance

end Walk.Moves

end Evaluation

namespace Walk

class Leaving (R : WalkState → WalkState → Prop) : Prop extends Noting R where
  jumps : ∀ s jumps underflowed, R s {s with jumps, underflowed}
  returns : ∀ s returns, s.muted = 0 → R s {s with returns}

namespace Moves

section Bodies

variable [leaving : Leaving R] {c : WalkContext} {env : Env}

instance caughtEnv : Moves R (Walk.caughtEnv c seen) := by
  unfold Walk.caughtEnv
  infer_instance

instance noteReturned : Moves R (Walk.noteReturned type env) where
  frame s _ _ ran := by
    rw [run_noteReturned] at ran
    cases ran
    split
    · exact leaving.returns s _ (And.right ‹_›)
    · exact Frame.refl s

instance returnStatement [Deferring c R] {span : Span} : Moves R (Walk.returnStatement c value span env) := by
  unfold Walk.returnStatement
  cases value <;> infer_instance

instance jumping {f : List JumpFrame → List JumpFrame} : Moves R (modify fun s => {s with jumps := f s.jumps}) :=
  of_modify fun s => leaving.jumps s _ s.underflowed

instance pushJumps : Moves R (Walk.pushJumps kind) := of_modify fun s => leaving.jumps s _ s.underflowed
instance underflow : Moves R Walk.underflow := of_modify fun s => leaving.jumps s s.jumps true

instance popJumps : Moves R Walk.popJumps := by
  have popped (outer : List JumpFrame) : Moves R (modify fun s => {s with jumps := outer}) :=
    of_modify fun s => leaving.jumps s outer s.underflowed
  unfold Walk.popJumps
  refine @bind _ _ _ _ _ _ inferInstance fun s => ?_
  split <;> infer_instance

end Bodies

section Loops

variable {c : WalkContext} {round : Env → Walk LoopRound} [∀ env, Moves R (round env)] [Leaving R]

instance settle {start : Env} : Moves R (Walk.settle c round start rounds head) := by
  induction rounds generalizing head with
  | zero => exact pure head
  | succ rounds ih =>
    unfold Walk.settle
    infer_instance

instance runLoop {env : Env} : Moves R (Walk.runLoop c round env) := by
  unfold Walk.runLoop
  infer_instance

instance finishRound : Moves R (Walk.finishRound c body exit) := by
  unfold Walk.finishRound
  infer_instance

instance loopBody {body : Env → Walk Env} [∀ env, Moves R (body env)] : Moves R (Walk.loopBody c body entry exit) := by
  unfold Walk.loopBody
  infer_instance

instance testRound [Deferring c R] {condition : Expression} : Moves R (Walk.testRound c condition body) := by
  unfold Walk.testRound
  infer_instance

end Loops

section Switches

variable [Leaving R] {c : WalkContext} [Deferring c R] {cases : List (Option Expression × (Env → Walk Env))}
  (inCases : ∀ p ∈ cases, ∀ env, Moves R (entering p.2 env))
include inCases

lemma runCases : Moves R (Walk.runCases c entry cases falling) := by
  induction cases generalizing falling with
  | nil => exact pure falling
  | cons p rest ih =>
    have first := inCases p (by simp)
    have others {falling : Env} : Moves R (Walk.runCases c entry rest falling) :=
      ih fun q mem => inCases q (by simp [mem])
    unfold Walk.runCases
    infer_instance

lemma runSwitch : Moves R (Walk.runSwitch c subject cases env) := by
  have followed {entry falling : Env} : Moves R (Walk.runCases c entry cases falling) := runCases inCases
  unfold Walk.runSwitch
  infer_instance

end Switches

end Moves

/-- A relation that is kept by everything that statements are made of. -/
class Tracing (c : WalkContext) (R : Env → WalkState → WalkState → Prop) : Prop where
  leaving : ∀ env, Leaving (R env)
  deferring : ∀ env, Deferring c (R env)
  following : ∀ {walk env}, Moves (R env) (walk env) → Moves (R env) (following walk env)
  entering : ∀ {walk : Env → Walk Env} {outer env}, Moves (R env) (walk env) → Moves (R outer) (entering walk env)
  snapshot : ∀ env left, Moves (R env) (snapshot left)
  next : ∀ {first : Walk Env} {walk : Env → Walk Env} {env}, Moves (R env) first → (∀ left, Moves (R left) (walk left)) →
    Moves (R env) (do let left ← first; Walk.snapshot left; walk left)
  trying : ∀ {body handler finalizer env}, (∀ env, Moves (R env) (body env)) →
    (∀ p ∈ handler, ∀ env, Moves (R env) (p.2 env)) →
    (∀ last ∈ finalizer, ∀ env, Moves (R env) (last env)) →
    Moves (R env) (runTry c body handler finalizer env)

namespace Tracing

variable {c : WalkContext} [tracing : Tracing c R]

variable (c) in
lemma plainly (moves : ∀ [Leaving (R env)] [Deferring c (R env)], Moves (R env) (walk env)) :
    Moves (R env) (Walk.following walk env) :=
  tracing.following (@moves (tracing.leaving env) (tracing.deferring env))

variable (c) in
include tracing in
lemma entered (outer : Env) {walk : Env → Walk Env} (moves : ∀ env, Moves (R env) (walk env))
    (env : Env) : Moves (R outer) (Walk.entering walk env) :=
  tracing.entering (moves env)

set_option linter.unusedSectionVars false in
mutual
lemma statement : (s : Statement) → (env : Env) → Moves (R env) (Walk.statement c s env)
  | .var _ _ _ _, env | .function _ _, env | .empty _, env | .classDecl _, env
  | .expression _ _, env | .returnStmt _ _, env | .breakStmt _, env | .continueStmt _, env => by
    rw [Walk.statement]
    exact plainly c inferInstance
  | .throwStmt _ _, env => by
    have := tracing.snapshot env
    rw [Walk.statement]
    exact plainly c inferInstance
  | .ifStmt condition consequent alternative _, env => by
    have first := entered c env (statement consequent)
    have second := entered c env (optionalStatement alternative)
    rw [Walk.statement]
    exact plainly c inferInstance
  | .whileLoop _ body _, env | .doWhile body _ _, env => by
    have entered := entered c env (statement body)
    rw [Walk.statement]
    exact plainly c inferInstance
  | .forLoop start condition update body _, env => by
    have := tracing.leaving env
    have := tracing.deferring env
    have started := optionalStatement start env
    have entered := entered c env (statement body)
    rw [Walk.statement]
    refine tracing.following (@Moves.bind _ _ _ _ _ _ started fun _ => ?_)
    refine @Moves.runLoop _ _ _ (fun _ => ?_) _ _
    infer_instance
  | .forIn key declaration object body span, env => by
    have := tracing.leaving env
    have := tracing.deferring env
    have entered := entered c env (statement body)
    have round (entry : Env) : Moves (R env) (Walk.loopBody c (fun inner => do
        Walk.entering (Walk.statement c body) (← Walk.assignName c key .string key.span inner))
        entry entry) := Moves.loopBody
    have loop (start : Env) := @Moves.runLoop _ c _ round _ start
    rw [Walk.statement]
    refine tracing.following ?_
    dsimp only
    infer_instance
  | .block body, env => by
    rw [Walk.statement]
    exact tracing.following (block body env)
  | .tryStmt body caught last _, env => by
    rw [Walk.statement]
    exact tracing.following (tracing.trying (block body) (handler caught) (finalizer last))
  | .switch subject list _, env => by
    have := tracing.leaving env
    have := tracing.deferring env
    rw [Walk.statement]
    exact tracing.following (Moves.runSwitch fun p mem inner =>
      tracing.entering (cases list p mem inner))

lemma optionalStatement : (s : Option Statement) → (env : Env) → Moves (R env) (Walk.optionalStatement c s env)
  | none, env =>
    have := tracing.leaving env
    Moves.pure env
  | some s, env => statement s env

lemma block : (b : Block) → (env : Env) → Moves (R env) (Walk.block c b env)
  | ⟨list,_⟩, env => statements list env

lemma handler : (h : Option CatchClause) → ∀ p ∈ handlerBody c h, ∀ env, Moves (R env) (p.2 env)
  | none => nofun
  | some ⟨parameter,body⟩ => fun p mem => by
    obtain rfl : (parameter,Walk.block c body) = p := Option.mem_some_iff.mp mem
    exact block body

lemma finalizer : (b : Option Block) → ∀ last ∈ finalizerBody c b, ∀ env, Moves (R env) (last env)
  | none => nofun
  | some b => fun last mem => by
    obtain rfl : Walk.block c b = last := Option.mem_some_iff.mp mem
    exact block b

lemma cases : (list : List SwitchCase) → ∀ p ∈ caseBodies c list, ∀ env, Moves (R env) (p.2 env)
  | [] => nofun
  | ⟨_,body⟩ :: rest => List.forall_mem_cons.mpr ⟨statements body,cases rest⟩

lemma statements : (list : List Statement) → (env : Env) → Moves (R env) (Walk.statements c list env)
  | [], env =>
    have := tracing.leaving env
    Moves.visiting
  | s :: rest, env => by
    rw [Walk.statements]
    exact tracing.next (statement s env) (statements rest)
end

end Tracing

/-- The relation allows for everything else that statements record. -/
class Indifferent (R : WalkState → WalkState → Prop) : Prop extends Leaving R where
  handling : ∀ s tryFrames exposure handled, R s {s with tryFrames, exposure, handled}
  tried : ∀ s env, R s {s with tried := env :: s.tried}

namespace Indifferent

open Moves (of_modify)

variable [indifferent : Indifferent R] {env : Env} {α : Type}

lemma following (walks : Moves R (walk env)) : Moves R (Walk.following walk env) :=
  @Moves.bind _ _ _ _ _ _ (of_modify fun s => indifferent.handling s s.tryFrames _ s.handled) fun _ => Moves.visiting

lemma entering (walks : Moves R (walk env)) : Moves R (Walk.entering walk env) :=
  @Moves.bind _ _ _ _ _ _ (of_modify fun s => indifferent.handling s s.tryFrames _ s.handled) fun _ => walks

instance passOn : Moves R (Walk.passOn seen) := by
  refine of_modify fun s => ?_
  split
  · exact Frame.refl s
  · exact indifferent.handling s _ s.exposure s.handled

instance snapshot : Moves R (Walk.snapshot env) := passOn

instance inTryFrame [Moves R action] : Moves R (Walk.inTryFrame env action) := by
  have framed (update : List (List Env) → List (List Env)) :
      Moves R (modify fun s => {s with tryFrames := update s.tryFrames}) :=
    of_modify fun s => indifferent.handling s _ s.exposure s.handled
  have entered := framed ([env] :: ·)
  have left (outer : List (List Env)) := framed fun _ => outer
  unfold Walk.inTryFrame
  refine @Moves.bind _ _ _ _ _ _ entered fun _ => ?_
  refine @Moves.bind _ _ _ _ _ _ inferInstance fun res => ?_
  refine @Moves.bind _ _ _ _ _ _ inferInstance fun s => ?_
  split <;> infer_instance

instance exposing [Moves R action] : Moves R (Walk.exposing action) := by
  have noted (exposure : Exposure) : Moves R (modify fun s => {s with exposure}) :=
    of_modify fun s => indifferent.handling s s.tryFrames exposure s.handled
  unfold Walk.exposing
  dsimp only
  infer_instance

instance expose {inner : Exposure} : Moves R (Walk.expose inner) :=
  of_modify fun s => indifferent.handling s s.tryFrames _ s.handled

variable {c : WalkContext}
lemma runFinalizer (inFinalizer : ∀ last ∈ finalizer, ∀ env, Moves R (last env)) :
    Moves R (Walk.runFinalizer c finalizer seen after) := by
  unfold Walk.runFinalizer
  cases finalizer with
  | none => infer_instance
  | some last =>
    have (env : Env) := entering (inFinalizer last rfl env)
    infer_instance

instance handlerEntry {parameter : Option Identifier} : Moves R (Walk.handlerEntry c parameter seen) := by
  unfold Walk.handlerEntry
  cases parameter <;> infer_instance

lemma runHandler (inHandler : ∀ p ∈ handler, ∀ env, Moves R (p.2 env)) :
    Moves R (Walk.runHandler c handler seen exposure left) := by
  have handled (h : Handling) : Moves R (modify fun s => {s with handled := h :: s.handled}) :=
    of_modify fun s => indifferent.handling s s.tryFrames s.exposure _
  unfold Walk.runHandler
  cases handler with
  | none => infer_instance
  | some p =>
    have (env : Env) := entering (inHandler p rfl env)
    infer_instance

lemma runTry {body : Env → Walk Env} (inBody : ∀ env, Moves R (body env))
    (inHandler : ∀ p ∈ handler, ∀ env, Moves R (p.2 env))
    (inFinalizer : ∀ last ∈ finalizer, ∀ env, Moves R (last env)) :
    Moves R (Walk.runTry c body handler finalizer env) := by
  have tried : Moves R (modify fun s => {s with tried := env :: s.tried}) := of_modify fun s => indifferent.tried s env
  have handles {seen : List Env} {exposure : Exposure} {left : Env} :
      Moves R (Walk.runHandler c handler seen exposure left) := runHandler inHandler
  have finalizes {seen : List Env} {after : Env} :
      Moves R (Walk.runFinalizer c finalizer seen after) := runFinalizer inFinalizer
  unfold Walk.runTry
  infer_instance

instance tracing [Deferring c R] : Tracing c fun _ => R where
  leaving _ := inferInstance
  deferring _ := inferInstance
  following := following
  entering := entering
  snapshot _ _ := snapshot
  next _ _ := inferInstance
  trying := runTry

end Indifferent

end Walk
end GradualJs
