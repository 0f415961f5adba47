import GradualJs.Check
import GradualJs.Proofs.Flow.Reach
import GradualJs.Proofs.Registry.Outline

/-! Code that cannot be reached. It is followed, and whether something of it is heard elsewhere
depends on its handlers and finalizers, which are taken to be reached. -/
namespace GradualJs

variable {s s' : WalkState} {c : WalkContext} {env left : Env}

namespace Env

/-- Those that count in joins. -/
def reachable (envs : List Env) : List Env := envs.filter (·.live)

lemma joinAll_reachable (l : Lattice) (start : Env) (envs : List Env) :
    start.joinAll l (reachable envs) = start.joinAll l envs := by
  induction envs generalizing start with
  | nil => rfl
  | cons e rest ih =>
    cases live : e.live with
    | true =>
      simp only [reachable,List.filter_cons,live,if_true,joinAll,List.foldlM_cons]
      exact congrArg _ (funext ih)
    | false =>
      simp only [reachable,List.filter_cons,live,joinAll,List.foldlM_cons,join_of_not_live l start live]
      exact ih start

lemma reachable_append_iff : reachable (envs ++ more) = reachable envs ↔ reached more = false := by
  simp [reachable,reached]

end Env

def JumpFrame.reachable (frame : JumpFrame) : JumpFrame :=
  {frame with breaks := Env.reachable frame.breaks, continues := Env.reachable frame.continues}

/-- What a loop or a switch joins with what else comes to its end and to its head. -/
def JumpFrame.merged (l : Lattice) (start : Env) (frame : JumpFrame) : Option Env × Option Env :=
  (start.joinAll l frame.breaks,start.joinAll l frame.continues)

namespace Walk

/-- The states agree on results and on all environments that count in joins. -/
structure SameReach (s s' : WalkState) : Prop where
  jumps : s'.jumps.map JumpFrame.reachable = s.jumps.map JumpFrame.reachable
  tryFrames : s'.tryFrames.map Env.reachable = s.tryFrames.map Env.reachable
  returns : s'.returns = s.returns

/-- Nothing around the code listens to its exits. -/
structure Unheard (x : Exits) (s : WalkState) : Prop where
  breaks : x.breaks = true → s.jumps = []
  continues : x.continues = true → ∀ frame ∈ s.jumps, frame.kind = .switch
  raises : x.raises = true → s.tryFrames = []
  returns : x.returns = true → 0 < s.muted

lemma SameReach.joins (reach : SameReach s s') (l : Lattice) (start : Env) :
    s'.jumps.map (·.merged l start) = s.jumps.map (·.merged l start) ∧
      s'.tryFrames.map (start.joinAll l) = s.tryFrames.map (start.joinAll l) := by
  have merged (frame : JumpFrame) : frame.merged l start = frame.reachable.merged l start := by
    simp only [JumpFrame.merged,JumpFrame.reachable,Env.joinAll_reachable]
  have joined (envs : List Env) : start.joinAll l envs = start.joinAll l (Env.reachable envs) :=
    (Env.joinAll_reachable l start envs).symm
  constructor
  · have mapped := congrArg (List.map (·.merged l start)) reach.jumps
    simpa only [List.map_map,Function.comp_def,← merged] using mapped
  · have mapped := congrArg (List.map (start.joinAll l)) reach.tryFrames
    simpa only [List.map_map,Function.comp_def,← joined] using mapped

lemma reachable_restart {jumps : List JumpFrame} :
    (restart continued jumps).map JumpFrame.reachable = jumps.map JumpFrame.reachable ↔
      (Env.reached continued = true → ∀ frame ∈ jumps, frame.kind = .switch) := by
  induction jumps with
  | nil => simp [restart]
  | cons frame outer ih =>
    cases kind : frame.kind with
    | loop => simp [restart,kind,JumpFrame.reachable,Env.reachable_append_iff]
    | switch => simp [restart,kind,ih]

lemma reachable_jumps {broken continued : List Env} {jumps : List JumpFrame} :
    (restart continued (leave broken jumps)).map JumpFrame.reachable = jumps.map JumpFrame.reachable ↔
      (Env.reached broken = true → jumps = []) ∧
      (Env.reached continued = true → ∀ frame ∈ jumps, frame.kind = .switch) := by
  cases jumps with
  | nil => simp [restart,leave]
  | cons frame outer =>
    cases kind : frame.kind with
    | loop => simp [restart,leave,kind,JumpFrame.reachable,Env.reachable_append_iff]
    | switch =>
      simp [restart,leave,kind,JumpFrame.reachable,Env.reachable_append_iff,reachable_restart]

lemma reachable_raise {frames : List (List Env)} :
    (raise seen frames).map Env.reachable = frames.map Env.reachable ↔ (Env.reached seen = true → frames = []) := by
  cases frames <;> simp [raise,Env.reachable_append_iff]

lemma Emitted.sameReach_iff (emitted : Emitted x s s') : SameReach s s' ↔ Unheard x s := by
  obtain ⟨broken,continued,jumps,isBroken,isContinued⟩ := emitted.jumps
  obtain ⟨seen,frames,isSeen⟩ := emitted.tryFrames
  obtain ⟨results,returns,isResult⟩ := emitted.returns
  have sameJumps := @reachable_jumps broken continued s.jumps
  have sameFrames := @reachable_raise seen s.tryFrames
  rw [← jumps,isBroken,isContinued] at sameJumps
  rw [← frames,isSeen] at sameFrames
  have sameReturns : s'.returns = s.returns ↔ (x.returns = true → 0 < s.muted) := by
    rw [returns,List.append_right_eq_self,isResult]
    simp [Nat.pos_iff_ne_zero]
  constructor
  · rintro ⟨inJumps,inFrames,inReturns⟩
    obtain ⟨breaks,continues⟩ := sameJumps.mp inJumps
    exact ⟨breaks,continues,sameFrames.mp inFrames,sameReturns.mp inReturns⟩
  · rintro ⟨breaks,continues,raises,noted⟩
    exact ⟨sameJumps.mpr ⟨breaks,continues⟩,sameFrames.mpr raises,sameReturns.mpr noted⟩

lemma run_statements_append (ran : (statements c (first ++ second) env).run s = some (left,s')) :
    ∃ cut mid, (statements c second cut).run mid = some (left,s') ∧ (statements c first env).run s =
        some (cut,{mid with visited := cut :: cut :: mid.visited}) := by
  induction first generalizing env s with
  | nil => exact ⟨env,s,ran,rfl⟩
  | cons stmt rest ih =>
    rw [List.cons_append,statements] at ran
    obtain ⟨after,passed,walked,ran⟩ := run_bind_iff.mp ran
    obtain ⟨_,noted,snapped,ran⟩ := run_bind_iff.mp ran
    obtain ⟨cut,mid,later,earlier⟩ := ih ran
    refine ⟨cut,mid,later,?_⟩
    rw [statements]
    exact run_bind_iff.mpr ⟨after,passed,walked,run_bind_iff.mpr ⟨_,noted,snapped,earlier⟩⟩

end Walk

def Statement.isJump : Statement → Bool
  | .returnStmt _ _ | .throwStmt _ _ | .breakStmt _ | .continueStmt _ => true
  | _ => false

lemma statementsWays_jump {jump : Statement} (jumps : jump.isJump = true)
    (pre : List Statement) (live : Bool) : (statementsWays (pre ++ [jump]) live).completes = false := by
  induction pre generalizing live with
  | nil =>
    cases jump with
    | returnStmt | throwStmt | breakStmt | continueStmt => rfl
    | _ => cases jumps
  | cons s rest ih => exact ih _

namespace Walk

/-- The code between the states has no bearing on anything else: not on a join, not on the type
of the result, and not on whether a result is missed at the end. -/
structure Inert (c : WalkContext) (env left : Env) (s s' : WalkState) : Prop where
  live : left.live = false
  reach : SameReach s s'
  joins : ∀ start, s'.jumps.map (·.merged c.lattice start) = s.jumps.map (·.merged c.lattice start) ∧
    s'.tryFrames.map (start.joinAll c.lattice) = s.tryFrames.map (start.joinAll c.lattice)
  result : ∀ signature, Flow.returnType c.lattice signature s'.returns left.live =
    Flow.returnType c.lattice signature s.returns env.live
  report : ∀ name span after, (Flow.checkEnd c name left span).run s' = some ((),after) → after = s'

lemma run_checkEnd_of_not_live (unreachable : env.live = false)
    (ran : (Flow.checkEnd c name env span).run s = some ((),after)) : after = s := by
  unfold Flow.checkEnd at ran
  split at ran
  · cases ran
    rfl
  · obtain ⟨fits,mid,asked,ran⟩ := run_bind_iff.mp ran
    obtain ⟨_,-,eq⟩ := Option.bind_eq_some_iff.mp asked
    cases eq
    simp only [unreachable,Bool.false_and] at ran
    cases ran
    rfl

lemma inert_iff {x : Ways} (unreachable : env.live = false) (emitted : Emitted x.toExits s s')
    (ends : left.live = x.completes) : Inert c env left s s' ↔ x.completes = false ∧ Unheard x.toExits s := by
  rw [← ends,← emitted.sameReach_iff]
  constructor
  · exact fun inert => ⟨inert.live,inert.reach⟩
  · rintro ⟨dead,reach⟩
    refine ⟨dead,reach,fun start => reach.joins c.lattice start,fun signature => ?_,
      fun name span after => run_checkEnd_of_not_live dead⟩
    rw [reach.returns,dead,unreachable]

end Walk

open Walk in
/-- Code that is not reached has no bearing on anything else if and only if its ways, with each
handler and finalizer taken to be reached, do not come to its end and nobody listens to the
others. This is so for the code after a jump, where all else is as if it were not there. Without
handlers and finalizers there are no ways. -/
theorem dead_code_inert_iff (c : WalkContext) (list : List Statement) :
    (∀ env left s s', env.live = false → (statements c list env).run s = some (left,s') →
      left.live = (statementsWays list false).completes ∧
      (Inert c env left s s' ↔ (statementsWays list false).completes = false ∧
        Unheard (statementsWays list false).toExits s)) ∧ (∀ pre jump env left s s', jump.isJump = true →
      (statements c (pre ++ jump :: list) env).run s = some (left,s') →
      ∃ cut mid, (statements c (pre ++ [jump]) env).run s = some (cut,mid) ∧ cut.live = false ∧
        (Inert c cut left mid s' ↔ (statementsWays list false).completes = false ∧
          Unheard (statementsWays list false).toExits mid)) ∧
    (Node.Unguarded (statementNodes list) → statementsWays list false = {}) := by
  refine ⟨fun env left s s' unreachable ran => ?_,fun pre jump env left s s' jumps ran => ?_,
    statementsWays_unreached list⟩
  · obtain ⟨emitted,ends⟩ := follows_statements list env s left s' ran
    rw [unreachable] at emitted ends
    exact ⟨ends,inert_iff unreachable emitted ends⟩
  · rw [List.append_cons] at ran
    obtain ⟨cut,mid,later,earlier⟩ := run_statements_append ran
    have dead : cut.live = false := (follows_statements _ env s _ _ earlier).2.trans (statementsWays_jump jumps pre _)
    obtain ⟨emitted,ends⟩ := follows_statements list cut mid left s' later
    rw [dead] at emitted ends
    refine ⟨cut,_,earlier,dead,?_⟩
    -- Only the points that were passed tell the two states apart.
    exact inert_iff dead ⟨emitted.jumps,emitted.tryFrames,emitted.returns,emitted.muted, emitted.underflowed⟩ ends

namespace Errand

def text (value : String) : Expression := ⟨{},.literal (.string value)⟩
def early : Statement := .returnStmt (some (text "early")) {}

/-- A loop that is left at once, and a second result. -/
def late : List Statement := [
  .whileLoop ⟨{},.literal (.boolean true)⟩ (.block ⟨[.breakStmt {}],{}⟩) {},
  .returnStmt (some (text "late")) {}]

def rescue : List Statement := [.tryStmt ⟨[],{}⟩ (some ⟨none,⟨[],{}⟩⟩) none {}]
def context : WalkContext := Flow.context (Outline.registry []) {} ⟨[]⟩ {} 0 .unknown (some .string)

/-- A function that says it returns a string, and does. -/
def prog (after : List Statement) : Program where
  statements := [.function ⟨"fetch",{}⟩ {
    id := 0, parameters := [], body := ⟨early :: after,{}⟩,
    jsdoc := some {returnType := some (Outline.named "string" [])}}]

def reports (after : List Statement) : Option (List DiagnosticKind) :=
  (Options.check {} (prog after) none).map fun result => result.diagnostics.map (·.kind)

open Walk in
lemma errands_run : Node.Unguarded (statementNodes late) ∧
    ((statements context (early :: late) {}).run {}).isSome = true ∧
    ((statements context rescue .dead).run {}).map (·.1.live) = some true ∧
    reports [] = some [] ∧ reports rescue = some [.missingReturnStatement] := by
  decide +kernel

end Errand

open Walk Errand in
theorem dead_code_inert_late : Node.Unguarded (statementNodes late) ∧
    ∃ cut left mid s', (statements context [early] {}).run {} = some (cut,mid) ∧
      (statements context (early :: late) {}).run {} = some (left,s') ∧
      Inert context cut left mid s' := by
  obtain ⟨unguarded,ended,-⟩ := errands_run
  obtain ⟨⟨left,s'⟩,ran⟩ := Option.isSome_iff_exists.mp ended
  obtain ⟨-,after,unreached⟩ := dead_code_inert_iff context late
  obtain ⟨cut,mid,pre,-,inert⟩ := after [] early {} left {} s' rfl ran
  rw [unreached unguarded] at inert
  exact ⟨unguarded,cut,left,mid,s',pre,ran,inert.mpr ⟨rfl,⟨nofun,nofun,nofun,nofun⟩⟩⟩

open Walk Errand in
/-- Behind a handler that is not reached, code is taken to be reached again. -/
theorem dead_code_rescued : (∃ left s', (statements context rescue .dead).run {} = some (left,s') ∧ left.live = true) ∧
    reports [] = some [] ∧ reports rescue = some [.missingReturnStatement] := by
  obtain ⟨-,-,revived,reported⟩ := errands_run
  obtain ⟨⟨left,s'⟩,ran,live⟩ := Option.map_eq_some_iff.mp revived
  exact ⟨⟨left,s',ran,live⟩,reported⟩

end GradualJs
