import GradualJs.Proofs.Flow.Reach
import GradualJs.Proofs.Flow.Statements

/-! Statements follow the paths through them, whatever an environment is taken to say of the values
that the paths have stored. -/
namespace GradualJs

open Walk Paths CallPoint
open Node (subjects conditions)

variable {α : Type} {inner : PathEnd → Stored → Prop} {env : Env} {finalizer : Option (Env → Walk Env)}
  {catching : Option (Paths PathEnd)} {handler : Option (Option Identifier × (Env → Walk Env))} {e : Expression} {p : Paths PathEnd}

namespace Walk

def Tries (s s' : WalkState) : Prop := s.tried <:+ s'.tried

namespace Tries

lemma of_same {s s' : WalkState} (eq : s'.tried = s.tried) : Tries s s' := by
  simp [Tries,eq]

instance indifferent : Indifferent Tries where
  refl _ := of_same rfl
  trans := List.IsSuffix.trans
  reported _ _ _ := of_same rfl
  muted moved := moved
  noted _ _ _ _ := of_same rfl
  jumps _ _ _ := of_same rfl
  returns _ _ _ := of_same rfl
  handling _ _ _ _ := of_same rfl
  tried _ env := List.suffix_cons env _

instance deferring : Deferring c Tries where
  resolved _ _ _ := of_same rfl
  deferred _ _ _ _ := of_same rfl

variable {c : WalkContext} {env : Env}

instance statement : Moves Tries (statement c s env) := Tracing.statement (R := fun _ => Tries) s env

instance optionalStatement : Moves Tries (optionalStatement c s env) :=
  Tracing.optionalStatement (R := fun _ => Tries) s env

instance block : Moves Tries (block c body env) := Tracing.block (R := fun _ => Tries) body env
instance statements : Moves Tries (statements c list env) := Tracing.statements (R := fun _ => Tries) list env

instance entering {walk : Env → Walk α} [moves : Moves Tries (walk env)] : Moves Tries (entering walk env) :=
  Indifferent.entering moves

end Tries

end Walk

/-- Something that environments say of the values that paths have stored. Expressions follow the
paths, and merging, killing and entering a handler keep what is said. -/
structure Follower (c : WalkContext) extends Simulator c where
  /-- What is needed where a `try` statement is entered. -/
  Tried : Env → Prop
  /-- Nothing is sent elsewhere, and the rest is noted. -/
  Calm : WalkState → WalkState → Prop
  Noted : WalkState → WalkState → Prop
  deferring : Deferring c Calm
  yields {α : Type} {x : Walk α} {post : α → Prop} : Walks x post → Yields Calm x post
  calm {s s' : WalkState} : Calm s s' → s'.jumps = s.jumps ∧ s'.tryFrames = s.tryFrames ∧ Noted s s'
  calm_leaving (s : WalkState) (exposure : Exposure) (handled : List Handling) (returns : List Ty) :
    Calm s {s with exposure, handled, returns}
  noted_trans {s mid s' : WalkState} : Noted s mid → Noted mid s' → Noted s s'
  noted_same {s s' : WalkState} : s'.calls = s.calls → s'.visited = s.visited → Noted s s'
  noted_visited (s : WalkState) {values : Stored → Prop} {envs : List Env} :
    (∀ e ∈ envs, Tracks values e) → Noted s {s with visited := envs ++ s.visited}
  empty {values : Stored → Prop} : Tracks values .dead
  dead {values others : Stored → Prop} {env : Env} : Tracks values env → env.live = false → Tracks others env
  kill {values others : Stored → Prop} {env : Env} : Tracks values env → Tracks others env.kill
  merge {values : Stored → Prop} {env other joined : Env} : Tracks values env → Tracks values other →
    env.join c.lattice other = some joined → Tracks values joined
  revive {values : Stored → Prop} {seen : List Env} {joined : Env} : Tracks values joined →
    Env.joinAll c.lattice .dead seen = some joined → (∃ e ∈ seen, Tried e) → Tracks values joined.revive
  declares {d : Declarator} {env : Env} {values : Stored → Prop} : (∀ name ∈ subjects d.nodes, harmless name) →
    Tracks ((toCallPoint.declarator d).Sure literal fun _ => values) env →
    Yields Calm (declarator c env d) (Tracks values)
  forgets {id : Identifier} {env : Env} {values : Stored → Prop} :
    Tracks ((toCallPoint.storing id.name .other).Sure literal fun _ => values) env →
    Yields Calm (writeLocal c env id.name .unknown) (Tracks values)

namespace Follower

variable {c : WalkContext} (w : Follower c)

instance : Deferring c w.Calm := w.deferring
instance : Frame w.Calm := w.deferring.toFrame

/-- What goes elsewhere describes what some path has stored that goes there. -/
structure Sent (goals : PathEnd → Stored → Prop) (s s' : WalkState) : Prop where
  jumps : ∃ broken continued, s'.jumps = restart continued (leave broken s.jumps) ∧
    (∀ e ∈ broken, w.Tracks (goals .breaks) e) ∧ ∀ e ∈ continued, w.Tracks (goals .continues) e
  tryFrames : ∃ seen, s'.tryFrames = raise seen s.tryFrames ∧ ∀ e ∈ seen, w.Tracks (goals .raises) e
  noted : w.Noted s s'

/-- So it is in every run that meets `try` statements only where it may, and its result has the
property. -/
def Sends {α : Type} (goals : PathEnd → Stored → Prop) (action : Walk α) (post : α → Prop) : Prop :=
  ∀ s a s', action.run s = some (a,s') → (∀ e ∈ s'.tried, w.Tried e) → w.Sent goals s s' ∧ post a

variable {w}

lemma Noted.around {s s' t t' : WalkState} (noted : w.Noted t t') (calls : t.calls = s.calls)
    (visited : t.visited = s.visited) (calls' : s'.calls = t'.calls) (visited' : s'.visited = t'.visited) :
    w.Noted s s' :=
  w.noted_trans (w.noted_same calls visited) (w.noted_trans noted (w.noted_same calls' visited'))

namespace Sent

variable {s : WalkState}

lemma of_calm (calm : w.Calm s s') : w.Sent goals s s' :=
  ⟨⟨[],[],by simpa using (w.calm calm).1,nofun,nofun⟩, ⟨[],by simpa using (w.calm calm).2.1,nofun⟩,(w.calm calm).2.2⟩

lemma trans (first : w.Sent goals s mid) (second : w.Sent goals mid s') : w.Sent goals s s' := by
  obtain ⟨broken,continued,jumps,inBroken,inContinued⟩ := first.jumps
  obtain ⟨broken',continued',jumps',inBroken',inContinued'⟩ := second.jumps
  obtain ⟨seen,frames,inSeen⟩ := first.tryFrames
  obtain ⟨seen',frames',inSeen'⟩ := second.tryFrames
  refine ⟨⟨broken ++ broken',continued ++ continued',?_,?_,?_⟩,⟨seen ++ seen',?_,?_⟩,
    w.noted_trans first.noted second.noted⟩
  · rw [jumps',jumps,leave_restart,leave_leave,restart_restart]
  · exact List.forall_mem_append.mpr ⟨inBroken,inBroken'⟩
  · exact List.forall_mem_append.mpr ⟨inContinued,inContinued'⟩
  · rw [frames',frames,raise_raise]
  · exact List.forall_mem_append.mpr ⟨inSeen,inSeen'⟩

end Sent

namespace Sends

variable {α β : Type}
lemma of_yields (yields : Yields w.Calm action post) : w.Sends goals action post :=
  fun s a s' ran _ => (yields s a s' ran).imp_left .of_calm

lemma pure (held : post a) : w.Sends goals (Pure.pure a : Walk α) post := of_yields (.pure held)

lemma bind [grows : ∀ a, Moves Tries (f a)]
    (first : w.Sends goals action post) (next : ∀ a, post a → w.Sends goals (f a) final) :
    w.Sends goals (action >>= f) final := by
  intro s res s' ran live
  obtain ⟨a,mid,before,after⟩ := run_bind_iff.mp ran
  have grown : Tries mid s' := (grows a).frame _ _ _ after
  obtain ⟨sent,held⟩ := first _ _ _ before fun e mem => live e (grown.subset mem)
  obtain ⟨later,res⟩ := next a held _ _ _ after live
  exact ⟨sent.trans later,res⟩

lemma after (first : Yields w.Calm action post)
    (next : ∀ a, post a → w.Sends goals (f a) final) : w.Sends goals (action >>= f) final := by
  intro s res s' ran live
  obtain ⟨a,mid,before,after⟩ := run_bind_iff.mp ran
  obtain ⟨calm,held⟩ := first _ _ _ before
  obtain ⟨later,res⟩ := next a held _ _ _ after live
  exact ⟨(Sent.of_calm calm).trans later,res⟩

lemma moves_then [Moves w.Calm action] (next : ∀ a, w.Sends goals (f a) final) : w.Sends goals (action >>= f) final :=
  after (.of_moves action) fun a _ => next a

/-- Other goals that are no stronger where jumps and exceptions go. -/
lemma toward (sends : w.Sends goals action post) (breaks : ∀ v, goals .breaks v → others .breaks v)
    (continues : ∀ v, goals .continues v → others .continues v)
    (raises : ∀ v, goals .raises v → others .raises v) : w.Sends others action post := by
  intro s a s' ran live
  obtain ⟨⟨⟨broken,continued,jumps,inBroken,inContinued⟩,⟨seen,frames,inSeen⟩,noted⟩,held⟩ := sends s a s' ran live
  exact ⟨⟨⟨broken,continued,jumps,fun e mem => (inBroken e mem).mono breaks,
    fun e mem => (inContinued e mem).mono continues⟩,
    ⟨seen,frames,fun e mem => (inSeen e mem).mono raises⟩,noted⟩,held⟩

lemma quietly (sends : w.Sends goals action post) : w.Sends goals (quietly action) post := by
  intro s a s' ran live
  obtain ⟨⟨a,mid⟩,before,after⟩ := Option.bind_eq_some_iff.mp ran
  cases after
  obtain ⟨sent,held⟩ := sends _ _ _ before live
  exact ⟨⟨sent.jumps,sent.tryFrames,sent.noted.around rfl rfl rfl rfl⟩,held⟩

lemma discard (sends : w.Sends goals action post) : w.Sends goals (Functor.discard action) fun _ => True := by
  rw [Functor.discard,map_const,Function.comp,map_eq_pure_bind]
  exact sends.bind fun _ _ => pure trivial

end Sends

section Recording

variable {α β : Type} {env : Env}

lemma Sent.passed (s : WalkState) (tracks : w.Tracks values env) :
    w.Sent goals s {s with visited := env :: s.visited} :=
  ⟨⟨[],[],by simp,nofun,nofun⟩,⟨[],by simp,nofun⟩, w.noted_visited s (List.forall_mem_singleton.mpr tracks)⟩

lemma sends_visiting (tracks : w.Tracks values env) (walks : w.Sends goals (walk env) (w.Tracks weaker)) :
    w.Sends goals (visiting (fun env => [env]) walk env) (w.Tracks weaker) := by
  have grows (left : Env) : Moves Tries (modify fun s => {s with visited := [left] ++ s.visited}) :=
    .of_modify fun _ => .of_same rfl
  have leaves (left : Env) (held : w.Tracks weaker left) : w.Sends goals
      (modify fun s => {s with visited := [left] ++ s.visited}) fun _ => True := by
    intro s _ _ ran _
    cases ran
    exact ⟨.passed s held,trivial⟩
  intro s a s' ran live
  obtain ⟨_,_,entered,ran⟩ := run_bind_iff.mp ran
  cases entered
  have walked := walks.bind fun left held => (leaves left held).bind fun _ _ => .pure held
  exact (walked _ _ _ ran live).imp_left (Sent.passed s tracks).trans

lemma calm_exposure (f : Exposure → Exposure) : Moves w.Calm (modify fun s => {s with exposure := f s.exposure}) :=
  .of_modify fun s => w.calm_leaving s (f s.exposure) s.handled s.returns

lemma sends_entering {walk : Env → Walk α} (walks : w.Sends goals (walk env) post) :
    w.Sends goals (entering walk env) post :=
  have := calm_exposure (w := w) ({entered := [env]} ++ ·)
  .moves_then fun _ => walks

lemma yields_join (left : w.Tracks values env) (right : w.Tracks values other) :
    Yields w.Calm (join c env other) (w.Tracks values) :=
  (Yields.ask _).mono fun _ ended => w.merge left right ended

lemma sends_join (left : w.Tracks values env)
    (right : w.Tracks values other) : w.Sends goals (join c env other) (w.Tracks values) :=
  .of_yields (yields_join left right)

lemma tracks_joinAll (start : w.Tracks values env)
    (all : ∀ e ∈ envs, w.Tracks values e) (ended : env.joinAll c.lattice envs = some joined) :
    w.Tracks values joined := by
  induction envs generalizing env with
  | nil =>
    cases ended
    exact start
  | cons first rest ih =>
    obtain ⟨mid,before,after⟩ := Option.bind_eq_some_iff.mp ended
    obtain ⟨tracks,others⟩ := List.forall_mem_cons.mp all
    exact ih (w.merge start tracks before) others after

lemma yields_joinAll (start : w.Tracks values env)
    (all : ∀ e ∈ envs, w.Tracks values e) : Yields w.Calm (joinAll c env envs) (w.Tracks values) :=
  (Yields.ask _).mono fun _ ended => tracks_joinAll start all ended

lemma sends_recordBreak (tracks : w.Tracks (goals .breaks) env) :
    w.Sends goals (modify fun s => {s with jumps := recordBreak env s.jumps}) fun _ => True := by
  intro s _ _ ran _
  cases ran
  exact ⟨⟨⟨[env],[],by simp [recordBreak_eq],by simpa using tracks,nofun⟩,⟨[],by simp,nofun⟩,
    w.noted_same rfl rfl⟩,trivial⟩

lemma sends_recordContinue (tracks : w.Tracks (goals .continues) env) :
    w.Sends goals (modify fun s => {s with jumps := recordContinue env s.jumps}) fun _ => True := by
  intro s _ _ ran _
  cases ran
  exact ⟨⟨⟨[],[env],by simp [recordContinue_eq],nofun,by simpa using tracks⟩,
    ⟨[],by simp,nofun⟩,w.noted_same rfl rfl⟩,trivial⟩

lemma sends_passOn (tracks : ∀ e ∈ seen, w.Tracks (goals .raises) e) : w.Sends goals (passOn seen) fun _ => True := by
  rw [passOn_eq]
  intro s _ _ ran _
  cases ran
  exact ⟨⟨⟨[],[],by simp,nofun,nofun⟩,⟨seen,rfl,tracks⟩,w.noted_same rfl rfl⟩,trivial⟩

lemma sends_snapshot (tracks : w.Tracks (goals .raises) env) : w.Sends goals (snapshot env) fun _ => True := by
  have eq : snapshot env = passOn [env] := rfl
  rw [eq]
  exact sends_passOn (by simpa using tracks)

lemma Sends.framed {f : α → JumpFrame → Walk β} [grows : ∀ a frame, Moves Tries (f a frame)]
    (walks : w.Sends inner body post)
    (continues : kind = .switch → ∀ v, inner .continues v → goals .continues v)
    (raises : ∀ v, inner .raises v → goals .raises v)
    (next : ∀ a frame, post a → (∀ e ∈ frame.breaks, w.Tracks (inner .breaks) e) →
      (kind = .loop → ∀ e ∈ frame.continues, w.Tracks (inner .continues) e) →
      w.Sends goals (f a frame) final) : w.Sends goals (do
      pushJumps kind
      let a ← body
      let frame ← popJumps
      f a frame) final := by
  intro s res s' ran live
  obtain ⟨_,_,pushed,ran⟩ := run_bind_iff.mp ran
  cases pushed
  obtain ⟨a,mid,before,ran⟩ := run_bind_iff.mp ran
  obtain ⟨frame,popped,taken,after⟩ := run_bind_iff.mp ran
  have grown : Tries popped s' := (grows a frame).frame _ _ _ after
  have kept : Tries mid popped := Moves.popJumps.frame _ _ _ taken
  obtain ⟨sent,held⟩ := walks _ _ _ before fun e mem => live e (grown.subset (kept.subset mem))
  obtain ⟨broken,continued,jumps,inBroken,inContinued⟩ := sent.jumps
  obtain ⟨seen,frames,inSeen⟩ := sent.tryFrames
  have raised : ∀ e ∈ seen, w.Tracks (goals .raises) e := fun e mem => (inSeen e mem).mono raises
  have outer : w.Sent goals s popped ∧ (∀ e ∈ frame.breaks, w.Tracks (inner .breaks) e) ∧
      (kind = .loop → ∀ e ∈ frame.continues, w.Tracks (inner .continues) e) := by
    cases kind with
    | loop =>
      rw [run_popJumps jumps] at taken
      cases taken
      exact ⟨⟨⟨[],[],by simp,nofun,nofun⟩,⟨seen,frames,raised⟩,sent.noted.around rfl rfl rfl rfl⟩,by simpa using inBroken,
        fun _ => by simpa using inContinued⟩
    | switch =>
      rw [run_popJumps jumps] at taken
      cases taken
      exact ⟨⟨⟨[],continued,by simp,nofun,fun e mem => (inContinued e mem).mono (continues rfl)⟩,
        ⟨seen,frames,raised⟩,sent.noted.around rfl rfl rfl rfl⟩,by simpa using inBroken,nofun⟩
  obtain ⟨out,breaks,continues⟩ := outer
  obtain ⟨rest,res⟩ := next a frame held breaks continues _ _ _ after live
  exact ⟨out.trans rest,res⟩

lemma sends_inTryFrame (walks : w.Sends inner action post) (start : w.Tracks (inner .raises) env)
    (breaks : ∀ v, inner .breaks v → goals .breaks v)
    (continues : ∀ v, inner .continues v → goals .continues v) :
    w.Sends goals (inTryFrame env action) fun r =>
      post r.1 ∧ env ∈ r.2 ∧ ∀ e ∈ r.2, w.Tracks (inner .raises) e := by
  intro s r s' ran live
  obtain ⟨_,_,pushed,ran⟩ := run_bind_iff.mp ran
  cases pushed
  obtain ⟨a,mid,before,ran⟩ := run_bind_iff.mp ran
  obtain ⟨_,_,gotten,ran⟩ := run_bind_iff.mp ran
  cases gotten
  have eq : s'.tried = mid.tried := by
    split at ran
    · cases ran
      rfl
    · cases ran
      rfl
  obtain ⟨sent,held⟩ := walks _ _ _ before (eq ▸ live)
  obtain ⟨broken,continued,jumps,inBroken,inContinued⟩ := sent.jumps
  obtain ⟨seen,frames,inSeen⟩ := sent.tryFrames
  replace frames : mid.tryFrames = (env :: seen) :: s.tryFrames := frames
  simp only [frames] at ran
  cases ran
  refine ⟨⟨⟨broken,continued,jumps,fun e mem => (inBroken e mem).mono breaks,
    fun e mem => (inContinued e mem).mono continues⟩,⟨[],by simp,by simp⟩,sent.noted.around rfl rfl rfl rfl⟩,held,by simp,?_⟩
  exact List.forall_mem_cons.mpr ⟨start,inSeen⟩

lemma sends_exposing (walks : w.Sends goals action post) : w.Sends goals (exposing action) fun r => post r.1 := by
  have reset (exposure : Exposure) := calm_exposure (w := w) fun _ => exposure
  have grows (exposure : Exposure) : Moves Tries (modify fun s => {s with exposure}) := .of_modify fun _ => .of_same rfl
  refine .moves_then fun s => ?_
  refine .moves_then fun _ => ?_
  exact walks.bind fun a held => .moves_then fun s => .moves_then fun _ => .pure held

end Recording

variable (w) in
def Keeps (walk : Env → Walk Env) (p : Paths PathEnd) : Prop :=
  ∀ ⦃goals : PathEnd → Stored → Prop⦄ ⦃env : Env⦄, w.Tracks (p.Sure w.literal goals) env →
    w.Sends goals (walk env) (w.Tracks (goals .ends))

variable (w) in
/-- A round of a loop goes back to the head, out of the loop, or to a handler. -/
def KeepsRound (round : Env → Walk LoopRound) (turns : Paths Turn) : Prop :=
  ∀ ⦃goals : PathEnd → Stored → Prop⦄ ⦃values : Turn → Stored → Prop⦄ ⦃entry : Env⦄,
    w.Tracks (turns.Sure w.literal values) entry → (∀ v, values (.out .raises) v → goals .raises v) →
      w.Sends goals (round entry) fun res =>
        w.Tracks (values .again) res.back ∧ w.Tracks (values (.out .ends)) res.exit

section Loops

variable {round : Env → Walk LoopRound} [∀ env, Moves Tries (round env)]

/-- The values with which the loop goes on for ever are kept at its head. -/
lemma sends_settle (keeps : w.KeepsRound round turns)
    (starts : w.Tracks ((Paths.rounds turns).Sure w.literal goals) start) (rounds : Nat) :
    ∀ {head : Env}, w.Tracks ((Paths.rounds turns).Sure w.literal goals) head →
      w.Sends goals (settle c round start rounds head) (w.Tracks ((Paths.rounds turns).Sure w.literal goals)) := by
  induction rounds with
  | zero => exact fun tracks => .pure tracks
  | succ rounds ih =>
    intro head tracks
    have once := tracks
    rw [Paths.sure_rounds] at once
    refine (keeps once fun _ => id).quietly.bind fun res held => ?_
    refine .after (yields_join starts held.1) fun next joined => ?_
    split
    · exact .pure tracks
    · exact ih joined

lemma keeps_runLoop (keeps : w.KeepsRound round turns) : w.Keeps (runLoop c round) (.rounds turns) := by
  intro goals env tracks
  refine (sends_settle keeps tracks _ tracks).bind fun head settled => ?_
  rw [sure_rounds] at settled
  exact (keeps settled fun _ => id).bind fun _ held => .pure held.2

end Loops

section Constructs

variable {body : Paths PathEnd}

lemma sends_loopBody (keeps : w.Keeps walk body) {values : Turn → Stored → Prop}
    (enters : w.Tracks (body.Sure w.literal fun done => values done.turn) entry)
    (leaves : w.Tracks (values (.out .ends)) exit) (raises : ∀ v, values (.out .raises) v → goals .raises v) :
    w.Sends goals (loopBody c walk entry exit) fun res =>
      w.Tracks (values .again) res.back ∧ w.Tracks (values (.out .ends)) res.exit := by
  refine (keeps enters).framed nofun raises fun left frame tracks breaks continues => ?_
  refine .of_yields ((yields_joinAll tracks (continues rfl)).bind fun back isBack => ?_)
  exact (yields_joinAll leaves breaks).bind fun out isOut => .pure ⟨isBack,isOut⟩

lemma yields_caughtEnv (tracks : ∀ e ∈ seen, w.Tracks values e) (tried : ∃ e ∈ seen, w.Tried e) :
    Yields w.Calm (caughtEnv c seen) (w.Tracks values) :=
  (Yields.ask _).bind fun _ ended => .pure (w.revive (tracks_joinAll w.empty tracks ended) ended tried)

lemma Sends.trying [grows : Moves Tries rest] (walks : w.Tried env → w.Sends goals rest post) :
    w.Sends goals (do modify fun s => {s with tried := env :: s.tried}; rest) post := by
  intro s a s' ran live
  obtain ⟨_,_,noted,ran⟩ := run_bind_iff.mp ran
  cases noted
  have grown : env :: s.tried <:+ s'.tried := grows.frame _ _ _ ran
  obtain ⟨sent,held⟩ := walks (live env (grown.subset (by simp))) _ _ _ ran live
  exact ⟨⟨sent.jumps,sent.tryFrames,sent.noted.around rfl rfl rfl rfl⟩,held⟩

/-- A finalizer runs behind the end of a block, or behind an exception in it. -/
lemma sends_runFinalizer (grows : ∀ last ∈ finalizer, ∀ env, Moves Tries (last env))
    (keeps : Option.Rel w.Keeps finalizer finishing)
    (tracks : w.Tracks (beforeFinalizer w.literal finishing goals .ends) after)
    (caught : ∀ e ∈ seen, w.Tracks (finalizes w.literal finishing goals) e) (tried : ∃ e ∈ seen, w.Tried e) :
    w.Sends goals (runFinalizer c finalizer seen after) (w.Tracks (goals .ends)) := by
  cases keeps with
  | none => exact .pure tracks
  | @some last ways keeps =>
    have := grows last rfl
    simp only [runFinalizer]
    split
    · exact sends_entering (keeps tracks)
    · rename_i dead
      refine .after (yields_caughtEnv caught tried) fun env isCaught => ?_
      have stopped : w.Tracks (ways.Sure w.literal (before w.literal (pure .stops) goals)) env :=
        isCaught.mono fun v held => sure_next ways (pure .stops) ▸ held ways rfl
      have walked : w.Sends goals (entering last env) _ :=
        (sends_entering (keeps stopped)).toward (fun _ => id) (fun _ => id) (fun _ => id)
      exact walked.discard.bind fun _ _ => .pure (w.dead tracks (Bool.eq_false_iff.mpr dead))

variable (w) in
/-- A handler forgets what was stored in its parameter. -/
def KeepsCaught (handler : Option Identifier × (Env → Walk Env)) (p : Paths PathEnd) : Prop :=
  ∃ q, w.Keeps handler.2 q ∧ p = do
    w.catching handler.1
    q

lemma yields_handlerEntry
    (tracks : ∀ e ∈ seen, w.Tracks ((w.catching parameter).Sure w.literal fun _ => values) e) (tried : ∃ e ∈ seen, w.Tried e) :
    Yields w.Calm (handlerEntry c parameter seen) (w.Tracks values) := by
  refine (yields_caughtEnv tracks tried).bind fun caught held => ?_
  cases parameter with
  | none => exact .pure (by simpa [catching] using held)
  | some id =>
    exact w.forgets held

lemma sends_runHandler (grows : ∀ p ∈ handler, ∀ env, Moves Tries (p.2 env))
    (keeps : Option.Rel w.KeepsCaught handler catching) (tracks : w.Tracks (goals .ends) left)
    (caught : ∀ e ∈ seen, w.Tracks ((catching.getD (pure .raises)).Sure w.literal goals) e)
    (tried : ∃ e ∈ seen, w.Tried e) :
    w.Sends goals (runHandler c handler seen exposure left) (w.Tracks (goals .ends)) := by
  cases keeps with
  | none =>
    have exposes : Moves w.Calm (expose exposure) := calm_exposure (exposure ++ ·)
    refine (sends_passOn fun e mem => ?_).bind fun _ _ => .moves_then fun _ => .pure tracks
    simpa using caught e mem
  | @some h ways keeps =>
    obtain ⟨q,keeps,rfl⟩ := keeps
    have enters (env : Env) : Moves Tries (entering h.2 env) := Indifferent.entering (grows h rfl env)
    have noted (h : Handling) : Moves w.Calm (modify fun s => {s with handled := h :: s.handled}) :=
      .of_modify fun s => w.calm_leaving s s.exposure (h :: s.handled) s.returns
    have entered : ∀ e ∈ seen, w.Tracks ((w.catching h.1).Sure w.literal fun _ => q.Sure w.literal goals) e := by
      simpa using caught
    refine .after (yields_handlerEntry entered tried) fun entry held => .moves_then fun _ => ?_
    exact (sends_entering (keeps held)).bind fun _ ends => sends_join tracks ends

lemma keeps_runTry [∀ env, Moves Tries (walk env)] (inCatch : ∀ p ∈ handler, ∀ env, Moves Tries (p.2 env))
    (inLast : ∀ last ∈ finalizer, ∀ env, Moves Tries (last env)) (inBody : w.Keeps walk body)
    (inHandler : Option.Rel w.KeepsCaught handler catching)
    (inFinalizer : Option.Rel w.Keeps finalizer finishing) :
    w.Keeps (runTry c walk handler finalizer) (.finalized body catching finishing) := by
  intro goals env tracks
  have handles {seen : List Env} {exposure : Exposure} {left : Env} :
      Moves Tries (runHandler c handler seen exposure left) := Indifferent.runHandler inCatch
  have finishes {seen : List Env} {after : Env} :
      Moves Tries (runFinalizer c finalizer seen after) := Indifferent.runFinalizer inLast
  -- The finalizer takes over only what comes to the end.
  have eq : ∀ done ≠ .ends, beforeFinalizer w.literal finishing goals done = goals done := by
    intro done others
    cases finishing with
    | none => rfl
    | some last => cases done <;> first | rfl | exact absurd rfl others
  have framed : w.Sends goals (exposing (inTryFrame env (walk env))) fun r =>
      w.Tracks (beforeFinalizer w.literal finishing goals .ends) r.1.1 ∧ env ∈ r.1.2 ∧
        ∀ e ∈ r.1.2, w.Tracks (catches w.literal catching finishing goals) e := by
    refine sends_exposing (sends_inTryFrame (inBody (tracks.mono fun _ sure => sure.block.2))
      (tracks.mono fun _ sure => sure.block.1) (fun v held => ?_) fun v held => ?_)
    · rw [← eq .breaks nofun]
      exact held
    · rw [← eq .continues nofun]
      exact held
  refine .trying fun entered => framed.bind fun r held => ?_
  have tried : ∃ e ∈ r.1.2, w.Tried e := ⟨env,held.2.1,entered⟩
  have handled : w.Sends _ (runHandler c handler r.1.2 r.2 r.1.1) _ :=
    sends_runHandler inCatch inHandler held.1 (fun e mem => (held.2.2 e mem).mono fun _ => And.left) tried
  refine (handled.toward ?_ ?_ ?_).bind fun after ends => ?_
  · exact fun v held => eq .breaks nofun ▸ held
  · exact fun v held => eq .continues nofun ▸ held
  · exact fun v held => eq .raises nofun ▸ held
  · exact sends_runFinalizer inLast inFinalizer ends (fun e mem => (held.2.2 e mem).mono fun _ => And.right) tried

end Constructs

section Expressions

variable {env : Env}

lemma yields_value (free : w.Free (subjects e.nodes))
    (tracks : w.Tracks ((w.expression e).value.Sure w.literal fun _ => values) env) :
    Yields w.Calm (valueOfExpression c e env) fun r => w.Tracks values r.2 :=
  (w.yields ((follows_expression e free).value tracks)).mono fun _ => And.left

lemma yields_branchOn (free : w.Free (subjects e.nodes)) (others : w.Free e.subjects) {values : Bool → Stored → Prop}
    (tracks : w.Tracks ((w.expression e).condition.Sure w.literal values) env) :
    Yields w.Calm (branchOn c e env) (w.Splits values) :=
  w.yields ((follows_expression e free).condition others tracks)

lemma yields_effect (free : w.Free (subjects e.nodes))
    (tracks : w.Tracks ((w.expression e).value.Sure w.literal fun _ => values) env) :
    Yields w.Calm (effect c e env) (w.Tracks values) :=
  (yields_value free tracks).bind fun _ held => .pure held

lemma yields_optionalEffect {e : Option Expression} (free : w.Free (subjects (optionalExpressionNodes e)))
    (tracks : w.Tracks ((w.optionalExpression e).Sure w.literal fun _ => values) env) :
    Yields w.Calm (optionalEffect c e env) (w.Tracks values) := by
  cases e with
  | none => exact .pure (by simpa [optionalExpression] using tracks)
  | some e => exact yields_effect free tracks

lemma yields_optionalCondition {e : Option Expression} {values : Bool → Stored → Prop}
    {span : Span} (free : w.Free (subjects (optionalExpressionNodes e)))
    (others : w.Free ((conditions (.statement (.forLoop start e update body span))).flatMap
      Expression.subjects)) (tracks : w.Tracks ((w.optionalCondition e).Sure w.literal values) env) :
    Yields w.Calm (optionalCondition c e env) (w.Splits values) := by
  cases e with
  | none => exact .pure ⟨by simpa [CallPoint.optionalCondition] using tracks,w.empty⟩
  | some e => exact yields_branchOn free (by simpa [conditions] using others) tracks

lemma yields_declarators {list : List Declarator} (free : w.Free (subjects (declaratorNodes list)))
    (tracks : w.Tracks ((w.declarators list).Sure w.literal fun _ => values) env) :
    Yields w.Calm (list.foldlM (declarator c) env) (w.Tracks values) := by
  induction list generalizing env with
  | nil => exact .pure (by simpa [declarators] using tracks)
  | cons d rest ih =>
    simp only [declaratorNodes,w.free_nodes] at free
    simp only [declarators,sure_bind] at tracks
    rw [List.foldlM_cons]
    exact (w.declares free.1 tracks).bind fun _ held => ih free.2 held

lemma yields_returnStatement {span : Span} (free : w.Free (subjects (optionalExpressionNodes value)))
    (tracks : w.Tracks ((w.optionalExpression value).Sure w.literal fun _ => values) env) :
    Yields w.Calm (returnStatement c value span env) (w.Tracks others) := by
  have notes {type : Ty} {valued : Env} : Moves w.Calm (noteReturned type valued) := by
    have noted : Moves w.Calm (modify fun s => {s with returns := s.returns ++ [type]}) :=
      .of_modify fun s => w.calm_leaving s s.exposure s.handled (s.returns ++ [type])
    unfold noteReturned
    infer_instance
  have ends {type : Ty} {valued : Env} (held : w.Tracks values valued) : Yields w.Calm (do
      checkReturned c type span
      noteReturned type valued
      return valued.kill) (w.Tracks others) :=
    .moves_then fun _ => .moves_then fun _ => .pure (w.kill held)
  cases value with
  | none =>
    have start : Yields w.Calm (pure (.undefined,env) : Walk (Ty × Env)) fun r => w.Tracks values r.2 :=
      .pure (by simpa [optionalExpression] using tracks)
    exact start.bind fun _ held => ends held
  | some e => exact (yields_value free tracks).bind fun _ held => ends held

end Expressions

lemma Keeps.following (keeps : w.Keeps walk p) : w.Keeps (following walk) p := fun _ env tracks =>
  have := calm_exposure (w := w) ({passed := [env]} ++ ·)
  .moves_then fun _ => sends_visiting tracks (keeps tracks)

lemma Keeps.entering (keeps : w.Keeps walk p) :
    w.Keeps (entering walk) p := fun _ _ tracks => sends_entering (keeps tracks)

/-- What follows a statement starts from what the statement ends with. -/
lemma Keeps.next {rest : Paths PathEnd} (keeps : w.Keeps walk p)
    (tracks : w.Tracks ((next p rest).Sure w.literal goals) env) [∀ left, Moves Tries (f left)]
    (then_ : ∀ left, w.Tracks (rest.Sure w.literal goals) left → w.Sends goals (f left) post) :
    w.Sends goals (walk env >>= f) post := by
  rw [sure_next] at tracks
  have first : w.Sends goals (walk env) _ := (keeps tracks).toward (fun _ => id) (fun _ => id) (fun _ => id)
  exact first.bind then_

lemma Keeps.of_yields {p : Paths Unit} (yields : ∀ {values : Stored → Prop} {env : Env},
      w.Tracks (p.Sure w.literal fun _ => values) env → Yields w.Calm (walk env) (w.Tracks values)) :
    w.Keeps walk (do p; return .ends) := fun _ _ tracks =>
  .of_yields (yields (by simpa using tracks))

set_option synthInstance.maxSize 256 in
mutual
lemma keeps_statement : (s : Statement) → w.Free (subjects s.nodes) → w.Keeps (statement c s) (w.statement s)
  | .var _ _ _ _, free => .following (.of_yields fun tracks =>
    .moves_then fun _ => yields_declarators free tracks)
  | .function _ _, _ | .empty _, _ => .following fun _ _ tracks =>
    .pure (by simpa [CallPoint.statement] using tracks)
  | .classDecl _, _ => .following fun _ _ tracks =>
    .moves_then fun _ => .pure (by simpa [CallPoint.statement] using tracks)
  | .expression value _, free => .following (.of_yields (yields_effect free))
  | .returnStmt value span, free => .following fun goals env tracks => by
    simp only [CallPoint.statement,sure_bind] at tracks
    exact .of_yields (yields_returnStatement free tracks)
  | .ifStmt condition consequent alternative _, free => .following fun goals env tracks => by
    simp only [Statement.nodes,w.free_nodes,w.free_cons,conditions,List.flatMap_singleton] at free
    obtain ⟨⟨⟨others,inCondition⟩,inConsequent⟩,inAlternative⟩ := free
    simp only [CallPoint.statement,sure_bind] at tracks
    refine .after (yields_branchOn inCondition others tracks) fun branches held => ?_
    have first := (keeps_statement consequent inConsequent).entering (by simpa using held.1)
    have second := (keeps_optionalStatement alternative inAlternative).entering (by simpa using held.2)
    exact first.bind fun _ left => second.bind fun _ right => sends_join left right
  | .whileLoop condition body _, free => by
    simp only [Statement.nodes,w.free_nodes,w.free_cons,conditions,List.flatMap_singleton] at free
    refine .following (keeps_runLoop fun goals values entry tracks raises => ?_)
    simp only [sure_bind] at tracks
    refine .after (yields_branchOn free.1.2 free.1.1 tracks) fun branches held => ?_
    exact sends_loopBody (keeps_statement body free.2).entering (by simpa using held.1) (by simpa using held.2) raises
  | .doWhile body condition _, free => by
    simp only [Statement.nodes,w.free_nodes,w.free_cons,conditions,List.flatMap_singleton] at free
    refine .following (keeps_runLoop fun goals values entry tracks raises => ?_)
    rw [sure_goOn] at tracks
    refine ((keeps_statement body free.1.2).entering tracks).framed nofun raises
      fun left frame held breaks continues => ?_
    refine .of_yields ((yields_joinAll held (continues rfl)).bind fun tested isTested => ?_)
    simp only [PathEnd.turn,between,sure_bind,sure_pure] at isTested
    refine (yields_branchOn free.2 free.1.1 isTested).bind fun branches split => ?_
    exact (yields_joinAll split.2 breaks).bind fun _ out => .pure ⟨split.1,out⟩
  | .forLoop start condition update body _, free => .following fun goals env tracks => by
    simp only [Statement.nodes,w.free_nodes,w.free_cons] at free
    obtain ⟨⟨⟨⟨others,inStart⟩,inCondition⟩,inUpdate⟩,inBody⟩ := free
    dsimp only
    refine (keeps_optionalStatement start inStart).next tracks fun started held => ?_
    refine keeps_runLoop (fun goals values entry tracks raises => ?_) held
    simp only [sure_bind] at tracks
    refine .after (yields_optionalCondition inCondition others tracks) fun branches split => ?_
    have enters := split.1
    simp only [if_true,sure_goOn] at enters
    have leaves := split.2
    simp only [Bool.false_eq_true,if_false,sure_pure] at leaves
    have walked := sends_loopBody (keeps_statement body inBody).entering enters leaves raises
    refine walked.bind fun res ends => ?_
    have updated := ends.1
    simp only [between,sure_bind,sure_pure] at updated
    exact .after (yields_optionalEffect inUpdate updated) fun _ back => .pure ⟨back,ends.2⟩
  | .forIn key decl object body span, free => .following fun goals env tracks => by
    simp only [Statement.nodes,w.free_nodes,w.free_cons] at free
    simp only [CallPoint.statement,sure_bind] at tracks
    refine .moves_then fun _ => .after (yields_value free.1.2 tracks) fun r held => .moves_then fun _ => ?_
    refine keeps_runLoop (fun goals values entry tracks raises => ?_) held
    simp only [sure_bind,sure_fork] at tracks
    have assigns : w.Keeps (fun env => do
        entering (statement c body) (← assignName c key .string key.span env)) (do
          w.storing key.name .other
          w.statement body) := fun goals env tracks => by
      simp only [sure_bind] at tracks
      exact .after (w.yields (w.assignName tracks (w.typed_other _))) fun _ held => (keeps_statement body free.2).entering held
    exact sends_loopBody assigns (tracks.mono fun v sure => by simpa using sure.1)
      (tracks.mono fun v sure => by simpa using sure.2) raises
  | .block body, free => .following (keeps_block body free)
  | .breakStmt _, _ => .following fun _ _ tracks =>
    (sends_recordBreak (by simpa [CallPoint.statement] using tracks)).bind fun _ _ =>
      .pure (w.kill tracks)
  | .continueStmt _, _ => .following fun _ _ tracks =>
    (sends_recordContinue (by simpa [CallPoint.statement] using tracks)).bind fun _ _ =>
      .pure (w.kill tracks)
  | .throwStmt value _, free => .following fun goals env tracks => by
    simp only [CallPoint.statement,sure_bind,sure_pure] at tracks
    refine .after (yields_effect free tracks) fun left held => ?_
    exact (sends_snapshot held).bind fun _ _ => .pure (w.kill held)
  | .tryStmt body caught last _, free => by
    simp only [Statement.nodes,w.free_nodes,w.free_cons] at free
    exact .following <| keeps_runTry (Tracing.handler (R := fun _ => Tries) caught)
      (Tracing.finalizer (R := fun _ => Tries) last) (keeps_block body free.1.1.2)
      (keeps_handler caught free.1.2) (keeps_finalizer last free.2)
  | .switch discriminant list _, free => .following fun goals env tracks => by
    simp only [Statement.nodes,w.free_nodes,w.free_cons] at free
    simp only [CallPoint.statement,sure_bind,sure_unbroken] at tracks
    refine .after (yields_effect free.1.2 tracks) fun tested held => ?_
    have entered := held.mono fun v sure => show (w.entering list).Sure w.literal _ v by
      split at sure
      · exact (sure_either .. ▸ sure).2
      · exact sure
    refine (keeps_cases list free.2 entered w.empty).framed (fun _ _ => id) (fun _ => id)
      fun falling frame ends breaks _ => ?_
    refine .after (yields_joinAll ends breaks) fun exit isExit => ?_
    rw [any_caseBodies]
    cases every : list.all (·.test.isSome) with
    | false => exact .pure isExit
    | true =>
      simp only [every,if_true,sure_either,sure_pure] at held
      exact sends_join isExit (held.mono fun _ => And.left)

lemma keeps_optionalStatement : (s : Option Statement) → w.Free (subjects (optionalStatementNodes s)) →
    w.Keeps (optionalStatement c s) (w.optionalStatement s)
  | none, _ => fun _ _ tracks => .pure (by simpa [CallPoint.optionalStatement] using tracks)
  | some s, free => keeps_statement s free

lemma keeps_block : (body : Block) → w.Free (subjects body.nodes) → w.Keeps (block c body) (w.block body)
  | ⟨list,_⟩, free => keeps_statements list free

lemma keeps_handler : (h : Option CatchClause) → w.Free (subjects (optionalHandlerNodes h)) →
    Option.Rel w.KeepsCaught (handlerBody c h) (w.handler h)
  | none, _ => .none
  | some ⟨_,body⟩, free => .some ⟨w.block body,keeps_block body free,rfl⟩

lemma keeps_finalizer : (body : Option Block) → w.Free (subjects (optionalBlockNodes body)) →
    Option.Rel w.Keeps (finalizerBody c body) (w.finalizer body)
  | none, _ => .none
  | some body, free => .some (keeps_block body free)

lemma keeps_cases : (list : List SwitchCase) → w.Free (subjects (caseNodes list)) →
    ∀ {goals : PathEnd → Stored → Prop} {entry falling : Env},
    w.Tracks ((w.entering list).Sure w.literal goals) entry →
    w.Tracks ((w.falling list).Sure w.literal goals) falling →
    w.Sends goals (runCases c entry (caseBodies c list) falling) (w.Tracks (goals .ends))
  | [], _, _, _, _, _, falls => .pure (by simpa [CallPoint.falling] using falls)
  | ⟨test,body⟩ :: rest, free, goals, entry, falling, enters, falls => by
    simp only [caseNodes,SwitchCase.nodes,w.free_nodes] at free
    simp only [CallPoint.entering,sure_either,sure_bind] at enters
    refine .after (yields_optionalEffect free.1.1 (enters.mono fun _ => And.left)) fun tested held => ?_
    refine .after (yields_join held falls) fun joined isJoined => ?_
    have followed (left : Env) : Moves Tries (runCases c entry (caseBodies c rest) left) :=
      Moves.runCases fun p mem inner =>
        Indifferent.entering (Tracing.cases (R := fun _ => Tries) rest p mem inner)
    exact (keeps_statements body free.1.2).entering.next isJoined fun left ends =>
      keeps_cases rest free.2 (enters.mono fun _ => And.right) ends

lemma keeps_statements : (list : List Statement) → w.Free (subjects (statementNodes list)) →
    w.Keeps (statements c list) (w.statements list)
  | [], _ => fun _ _ tracks =>
    sends_visiting tracks (.pure (by simpa [CallPoint.statements] using tracks))
  | s :: rest, free => fun goals env tracks => by
    simp only [statementNodes,w.free_nodes] at free
    refine (keeps_statement s free.1).next tracks fun left held => ?_
    rw [sure_either,sure_pure] at held
    exact (sends_snapshot (held.mono fun _ => And.left)).bind fun _ _ =>
      keeps_statements rest free.2 (held.mono fun _ => And.right)
end

end Follower
end GradualJs
