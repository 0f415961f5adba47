import GradualJs.Proofs.Flow.Quiet
import GradualJs.Proofs.Flow.Ways

/-! What a walk sends to other places: the environments that leave a loop or a switch, those
that may reach a handler, and results. Of the environments only those that can be reached
count, because the others vanish in joins. -/
namespace GradualJs

variable {envs : List Env} {env a : Env}

namespace Env

def reached (envs : List Env) : Bool := envs.any (·.live)

@[simp] lemma reached_nil : reached [] = false := rfl
@[simp] lemma reached_singleton (e : Env) : reached [e] = e.live := by simp [reached]

@[simp] lemma reached_append (left right : List Env) : reached (left ++ right) = (reached left || reached right) := by
  simp [reached]

variable {e other joined : Env}

lemma live_join (ended : e.join l other = some joined) : joined.live = (e.live || other.live) := by
  unfold join at ended
  split at ended
  · cases ended
    simp [*]
  · cases ended
    simp [*]
  · obtain ⟨entries,-,eq⟩ := Option.bind_eq_some_iff.mp ended
    cases eq
    simp [*]

lemma live_joinAll (ended : e.joinAll l envs = some joined) : joined.live = (e.live || reached envs) := by
  induction envs generalizing e with
  | nil =>
    cases ended
    simp
  | cons first rest ih =>
    obtain ⟨mid,pre,after⟩ := Option.bind_eq_some_iff.mp ended
    rw [ih after,live_join pre,Bool.or_assoc]
    rfl

end Env

def Exits.outside (kind : JumpKind) (x : Exits) : Exits :=
  {x with breaks := false, continues := kind = .switch && x.continues}

namespace Walk

section Frames

/-- The environments leave the innermost loop or switch. -/
def leave (broken : List Env) : List JumpFrame → List JumpFrame
  | [] => []
  | frame :: outer => {frame with breaks := frame.breaks ++ broken} :: outer

/-- The environments go on with the innermost loop. -/
def restart (continued : List Env) : List JumpFrame → List JumpFrame
  | [] => []
  | frame :: outer =>
    if frame.kind = .loop then {frame with continues := frame.continues ++ continued} :: outer
    else frame :: restart continued outer

/-- The environments may reach the innermost handler. -/
def raise (seen : List Env) : List (List Env) → List (List Env)
  | [] => []
  | frame :: outer => (frame ++ seen) :: outer

variable (jumps : List JumpFrame) (frames : List (List Env)) (env : Env)

@[simp] lemma leave_nil : leave [] jumps = jumps := by
  cases jumps <;> simp [leave]

@[simp] lemma restart_nil : restart [] jumps = jumps := by
  induction jumps with
  | nil => rfl
  | cons frame outer ih => simp [restart,ih]

@[simp] lemma raise_nil : raise [] frames = frames := by
  cases frames <;> simp [raise]

lemma leave_leave (first second : List Env) : leave second (leave first jumps) = leave (first ++ second) jumps := by
  cases jumps <;> simp [leave]

lemma restart_restart (first second : List Env) :
    restart second (restart first jumps) = restart (first ++ second) jumps := by
  induction jumps with
  | nil => rfl
  | cons frame outer ih => by_cases isLoop : frame.kind = .loop <;> simp [restart,isLoop,ih]

lemma leave_restart (broken continued : List Env) :
    leave broken (restart continued jumps) = restart continued (leave broken jumps) := by
  cases jumps with
  | nil => rfl
  | cons frame outer => by_cases isLoop : frame.kind = .loop <;> simp [restart,leave,isLoop]

lemma raise_raise (first second : List Env) : raise second (raise first frames) = raise (first ++ second) frames := by
  cases frames <;> simp [raise]

lemma passOn_eq (seen : List Env) : passOn seen = modify fun s => {s with tryFrames := raise seen s.tryFrames} := by
  unfold passOn
  congr
  funext s
  split
  · rename_i none
    have eq : raise seen s.tryFrames = s.tryFrames := by rw [none]; rfl
    rw [eq]
  · rename_i frame outer some
    rw [some]
    rfl

lemma recordBreak_eq : recordBreak env jumps = leave [env] jumps := by
  cases jumps <;> rfl

lemma recordContinue_eq : recordContinue env jumps = restart [env] jumps := by
  induction jumps with
  | nil => rfl
  | cons frame outer ih => simp only [recordContinue,restart,ih]

end Frames

/-- Between the states just the given exits were taken. Results count where nothing is muted. -/
structure Emitted (x : Exits) (s s' : WalkState) : Prop where
  jumps : ∃ broken continued, s'.jumps = restart continued (leave broken s.jumps) ∧
    Env.reached broken = x.breaks ∧ Env.reached continued = x.continues
  tryFrames : ∃ seen, s'.tryFrames = raise seen s.tryFrames ∧ Env.reached seen = x.raises
  returns : ∃ results, s'.returns = s.returns ++ results ∧ (results = [] ↔ ¬(x.returns = true ∧ s.muted = 0))
  muted : s'.muted = s.muted
  underflowed : s'.underflowed = s.underflowed

namespace Emitted

variable {x : Exits} {s s' : WalkState}

lemma of_same (jumps : s'.jumps = s.jumps) (tryFrames : s'.tryFrames = s.tryFrames)
    (returns : s'.returns = s.returns) (muted : s'.muted = s.muted)
    (underflowed : s'.underflowed = s.underflowed) : Emitted {} s s' where
  jumps := ⟨[],[],by simpa using jumps,rfl,rfl⟩
  tryFrames := ⟨[],by simpa using tryFrames,rfl⟩
  returns := ⟨[],by simpa using returns,by simp⟩
  muted := muted
  underflowed := underflowed

lemma trans (first : Emitted x s mid) (second : Emitted y mid s') : Emitted (x ∪ y) s s' := by
  obtain ⟨broken,continued,jumps,isBroken,isContinued⟩ := first.jumps
  obtain ⟨broken',continued',jumps',isBroken',isContinued'⟩ := second.jumps
  obtain ⟨seen,frames,isSeen⟩ := first.tryFrames
  obtain ⟨seen',frames',isSeen'⟩ := second.tryFrames
  obtain ⟨results,returns,isResult⟩ := first.returns
  obtain ⟨results',returns',isResult'⟩ := second.returns
  refine ⟨⟨broken ++ broken',continued ++ continued',?_,?_,?_⟩,⟨seen ++ seen',?_,?_⟩,
    ⟨results ++ results',?_,?_⟩,second.muted.trans first.muted,
    second.underflowed.trans first.underflowed⟩
  · rw [jumps',jumps,leave_restart,leave_leave,restart_restart]
  · simp [isBroken,isBroken',Exits.union_def]
  · simp [isContinued,isContinued',Exits.union_def]
  · rw [frames',frames,raise_raise]
  · simp [isSeen,isSeen',Exits.union_def]
  · rw [returns',returns,List.append_assoc]
  · rw [List.append_eq_nil_iff,isResult,isResult',first.muted,Exits.union_def]
    grind

end Emitted

/-- Every run that ends takes just the given exits, and its result has the property. -/
def Emits {α : Type} (x : Exits) (action : Walk α) (post : α → Prop) : Prop :=
  ∀ s a s', action.run s = some (a,s') → Emitted x s s' ∧ post a

namespace Emits

variable {α β : Type} {x : Exits}

lemma of_yields (yields : Yields SameRecords action post) : Emits {} action post := by
  intro s a s' ran
  obtain ⟨eq,held⟩ := yields s a s' ran
  exact ⟨.of_same eq.jumps eq.tryFrames eq.returns eq.muted eq.underflowed,held⟩

lemma pure {a : α} (held : post a) : Emits {} (Pure.pure a : Walk α) post := of_yields (.pure held)

lemma bind {f : α → Walk β} (first : Emits x action post)
    (next : ∀ a, post a → Emits y (f a) final) : Emits (x ∪ y) (action >>= f) final :=
  Yields.chain (R := Emitted x) (S := Emitted y) Emitted.trans first next

lemma followed {f : α → Walk β} (first : Emits {} action post)
    (next : ∀ a, post a → Emits y (f a) final) : Emits y (action >>= f) final := by
  simpa using first.bind next

lemma closed {f : α → Walk β} (first : Emits x action post)
    (next : ∀ a, post a → Emits {} (f a) final) : Emits x (action >>= f) final := by
  simpa using first.bind next

lemma mono (emits : Emits x action post) (implies : ∀ a, post a → weaker a) : Emits x action weaker :=
  Yields.mono emits implies

lemma of_modify (emitted : ∀ s, Emitted x s (f s)) : Emits x (modify f) fun _ => True := by
  intro s _ _ ran
  cases ran
  exact ⟨emitted s,trivial⟩

lemma of_quiet (action : Walk α) [Quiet action] : Emits {} action fun _ => True := of_yields (.of_moves action)

lemma quietly_then [Quiet action] {f : α → Walk β} (next : ∀ a, Emits y (f a) final) : Emits y (action >>= f) final :=
  (of_quiet action).followed fun a _ => next a

lemma guarded [Decidable p] [Quiet action]
    (walks : Emits y main final) : Emits y (if p then action >>= fun _ => main else main) final := by
  split
  · exact quietly_then fun _ => walks
  · exact walks

lemma discard (emits : Emits x action post) : Emits x (Functor.discard action) fun _ => True := by
  rw [Functor.discard,map_const,Function.comp,map_eq_pure_bind]
  exact emits.closed fun _ _ => pure trivial

lemma ask (ans : Option α) : Emits {} (Walk.ask ans) fun a => ans = some a := of_yields (.ask ans)

lemma quietly (emits : Emits x action post) : Emits {x with returns := false} (Walk.quietly action) post := by
  intro s a s' ran
  obtain ⟨⟨a,mid⟩,pre,after⟩ := Option.bind_eq_some_iff.mp ran
  obtain ⟨emitted,held⟩ := emits _ _ _ pre
  cases after
  obtain ⟨results,returns,isResult⟩ := emitted.returns
  have none : results = [] := isResult.mpr (by simp)
  exact ⟨⟨emitted.jumps,emitted.tryFrames,⟨results,returns,by simp [none]⟩,
    by simp [emitted.muted],by simp [emitted.muted,emitted.underflowed]⟩,held⟩

lemma noting (eq : ∀ s, Emitted {} s (f s)) (walks : Emits x main post) : Emits x (do modify f; main) post :=
  (of_modify eq).followed fun _ _ => walks

lemma passing (walks : Emits x (walk env) post) : Emits x (Walk.passing walk env) post :=
  noting (fun _ => .of_same rfl rfl rfl rfl rfl) walks

lemma entering (walks : Emits x (walk env) post) : Emits x (Walk.entering walk env) post :=
  noting (fun _ => .of_same rfl rfl rfl rfl rfl) walks

lemma visiting (walks : Emits x (walk env) post) : Emits x (Walk.visiting left walk env) post := by
  have noted (f : List Env → List Env) : Emits {} (modify fun s => {s with visited := f s.visited}) fun _ => True :=
    of_modify fun _ => .of_same rfl rfl rfl rfl rfl
  exact (noted (env :: ·)).followed fun _ _ => walks.closed fun a held =>
    (noted (left a ++ ·)).followed fun _ _ => pure held

end Emits

section Recording

variable {α β : Type} {x : Exits} {env : Env}

lemma emits_join {b : Env} : Emits {} (join c a b) fun joined => joined.live = (a.live || b.live) :=
  (Emits.ask _).mono fun _ => Env.live_join

lemma emits_joinAll : Emits {} (joinAll c a envs) fun joined => joined.live = (a.live || Env.reached envs) :=
  (Emits.ask _).mono fun _ => Env.live_joinAll

lemma emits_recordBreak :
    Emits {breaks := env.live} (modify fun s => {s with jumps := recordBreak env s.jumps}) fun _ => True :=
  .of_modify fun s => ⟨⟨[env],[],by simp [recordBreak_eq],by simp,rfl⟩,⟨[],by simp,rfl⟩, ⟨[],by simp,by simp⟩,rfl,rfl⟩

lemma emits_recordContinue :
    Emits {continues := env.live} (modify fun s => {s with jumps := recordContinue env s.jumps}) fun _ => True :=
  .of_modify fun s => ⟨⟨[],[env],by simp [recordContinue_eq],rfl,by simp⟩,⟨[],by simp,rfl⟩,
    ⟨[],by simp,by simp⟩,rfl,rfl⟩

lemma emits_passOn : Emits {raises := Env.reached seen} (passOn seen) fun _ => True := by
  rw [passOn_eq]
  exact .of_modify fun s => ⟨⟨[],[],by simp,rfl,rfl⟩,⟨seen,rfl,rfl⟩,⟨[],by simp,by simp⟩,rfl,rfl⟩

lemma emits_snapshot : Emits {raises := env.live} (snapshot env) fun _ => True := by
  have eq : snapshot env = passOn [env] := rfl
  rw [eq,← Env.reached_singleton]
  exact emits_passOn

lemma emits_noteReturned : Emits {returns := env.live} (noteReturned type env) fun _ => True := by
  intro s a s' ran
  rw [run_noteReturned] at ran
  cases ran
  refine ⟨?_,trivial⟩
  split
  · rename_i counts
    exact ⟨⟨[],[],by simp,rfl,rfl⟩,⟨[],by simp,rfl⟩,⟨[type],rfl,by simp [counts]⟩,rfl,rfl⟩
  · rename_i ignored
    exact ⟨⟨[],[],by simp,rfl,rfl⟩,⟨[],by simp,rfl⟩,⟨[],by simp,by simpa using ignored⟩,rfl,rfl⟩

lemma run_popJumps {s : WalkState} (eq : s.jumps = frame :: outer) :
    popJumps.run s = some (frame,{s with jumps := outer}) := by
  simp [popJumps,eq]

lemma Emits.framed (walks : Emits x body post) {f : α → JumpFrame → Walk β}
    (next : ∀ a frame, post a → Env.reached frame.breaks = x.breaks →
      (kind = .loop → Env.reached frame.continues = x.continues) → Emits {} (f a frame) final) :
    Emits (x.outside kind) (do
      pushJumps kind
      let a ← body
      let frame ← popJumps
      f a frame) final := by
  intro s b s' ran
  obtain ⟨_,_,pushed,ran⟩ := run_bind_iff.mp ran
  cases pushed
  obtain ⟨a,mid,pre,ran⟩ := run_bind_iff.mp ran
  obtain ⟨frame,popped,taken,after⟩ := run_bind_iff.mp ran
  obtain ⟨emitted,held⟩ := walks _ _ _ pre
  obtain ⟨broken,continued,jumps,isBroken,isContinued⟩ := emitted.jumps
  have outer : Emitted (x.outside kind) s popped ∧ Env.reached frame.breaks = x.breaks ∧
      (kind = .loop → Env.reached frame.continues = x.continues) := by
    cases kind with
    | loop =>
      rw [run_popJumps jumps] at taken
      cases taken
      exact ⟨⟨⟨[],[],by simp,rfl,rfl⟩,emitted.tryFrames,emitted.returns,emitted.muted,
        emitted.underflowed⟩,by simpa using isBroken,fun _ => by simpa using isContinued⟩
    | switch =>
      rw [run_popJumps jumps] at taken
      cases taken
      exact ⟨⟨⟨[],continued,by simp,rfl,isContinued⟩,emitted.tryFrames,emitted.returns,
        emitted.muted,emitted.underflowed⟩,by simpa using isBroken,nofun⟩
  obtain ⟨out,breaks,continues⟩ := outer
  obtain ⟨rest,res⟩ := next a frame held breaks continues _ _ _ after
  exact ⟨by simpa using out.trans rest,res⟩

lemma emits_exposing (walks : Emits x action post) : Emits x (exposing action) fun r => post r.1 := by
  refine .quietly_then fun s => .noting (fun _ => .of_same rfl rfl rfl rfl rfl) ?_
  refine walks.closed fun _ held => .quietly_then fun s => ?_
  exact .noting (fun _ => .of_same rfl rfl rfl rfl rfl) (.pure held)

lemma emits_inTryFrame (walks : Emits x action post) : Emits {x with raises := false} (inTryFrame env action) fun r =>
      post r.1 ∧ Env.reached r.2 = (env.live || x.raises) := by
  intro s r s' ran
  obtain ⟨_,_,pushed,ran⟩ := run_bind_iff.mp ran
  cases pushed
  obtain ⟨a,mid,pre,ran⟩ := run_bind_iff.mp ran
  obtain ⟨emitted,held⟩ := walks _ _ _ pre
  obtain ⟨seen,frames,isSeen⟩ := emitted.tryFrames
  replace frames : mid.tryFrames = (env :: seen) :: s.tryFrames := frames
  obtain ⟨_,_,gotten,ran⟩ := run_bind_iff.mp ran
  cases gotten
  simp only [frames] at ran
  cases ran
  exact ⟨⟨emitted.jumps,⟨[],by simp,rfl⟩,emitted.returns,emitted.muted,
    emitted.underflowed⟩,held,by simp [← isSeen,Env.reached]⟩

end Recording

end Walk
end GradualJs
