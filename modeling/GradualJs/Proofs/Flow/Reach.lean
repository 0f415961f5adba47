import GradualJs.Proofs.Flow.Emits
import GradualJs.Proofs.Flow.Roles

/-! Statements lead where their ways go. A run takes just the exits that are among the ways of
the statement, and what is behind the statement can be reached just if its end is among them.
Expressions send nothing elsewhere, and what is behind one can be reached just if it can. -/
namespace GradualJs.Walk

open Ways

variable {x : Ways} {body ways : Bool → Ways}

variable {c : WalkContext}

section Expressions

variable {env : Env}

lemma emits_writeLocal : Emits {} (writeLocal c env name type) fun left => left.live = env.live :=
  (Emits.of_yields (.writeLocal fun _ _ => ⟨rfl,rfl,rfl,rfl,rfl,rfl⟩)).mono fun _ eq => eq ▸ rfl

lemma emits_assignLocal :
    Emits {} (assignLocal c env name l value span declaring) fun left => left.live = env.live := by
  unfold assignLocal
  dsimp only
  refine .guarded ?_
  split
  · exact .quietly_then fun _ => .quietly_then fun _ => emits_writeLocal
  · exact .quietly_then fun _ => emits_writeLocal

lemma emits_assignName {id : Identifier} :
    Emits {} (assignName c id value span env) fun left => left.live = env.live := by
  obtain ⟨_,_,-,-,eq⟩ | ⟨check,moves,eq⟩ := Moves.assignName_cases c id value span env
  · exact eq ▸ emits_assignLocal
  · have : Quiet check := moves _
    exact eq ▸ .quietly_then fun _ => .pure rfl

lemma emits_writeProperty :
    Emits {} (writeProperty c object path name value span env) fun left => left.live = env.live := by
  refine (Emits.of_yields .writeProperty).mono ?_
  rintro _ ⟨stored,rfl⟩
  cases path with
  | none => rfl
  | some path =>
    change (extendRecord object path name stored env).live = env.live
    unfold extendRecord
    grind [Env.live_refine]

def LiveAs (live : Bool) (b : Branches) : Prop := b.whenTrue.live = live ∧ b.whenFalse.live = live

/-- Expressions keep whether the code can be reached, and send nothing elsewhere. -/
def reachable (c : WalkContext) (live : Bool) : Regard c where
  holds env := env.live = live
  Walks := Emits {}
  Knows _ _ := True
  harmless _ := True
  walks_pure := .pure
  walks_bind := .followed
  walks_mono walks implies := walks.mono implies
  walks_moving moves :=
    have := moves SameRecords
    .of_quiet _
  walks_ask := .ask
  walks_meet call := .of_quiet _
  walks_quietly := .quietly
  visiting _ walks _ := .visiting walks
  refine _ eq := eq
  join left right := emits_join.mono fun _ eq => by rw [eq,left,right,Bool.or_self]
  readName _ := (Emits.of_quiet _).mono fun _ _ => trivial
  assignName eq := emits_assignName.mono fun _ kept => kept.trans eq
  writeProperty eq _ := emits_writeProperty.mono fun _ kept => kept.trans eq
  this _ := trivial
  dotted := Regard.dotted_trivial

end Expressions

def Follows (walk : Env → Walk Env) (ways : Bool → Ways) : Prop :=
  ∀ env, Emits (ways env.live).toExits (walk env) fun left =>
    left.live = (ways env.live).completes

/-- So does every run from where the code can be reached. -/
def FollowsReached (walk : Env → Walk Env) (ways : Ways) : Prop :=
  ∀ env, env.live = true → Emits ways.toExits (walk env) fun left => left.live = ways.completes

/-- A round of a loop goes back to the head or leaves the loop. -/
def FollowsRound (round : Env → Walk LoopRound) (done : Bool → Ways → Bool) (body : Bool → Ways) : Prop :=
  ∀ entry, Emits ((body entry.live).outside .loop) (round entry) fun res =>
    res.back.live = (body entry.live).repeats ∧
    res.exit.live = (done entry.live (body entry.live) || (body entry.live).breaks)

section Loops

/-- A quiet round adds nothing to what the last round does. -/
lemma absorbs_quiet (within : x.Within y) :
    ({x.outside .loop with returns := false} : Exits) ∪ y.outside .loop = y.outside .loop := by
  have raises : (x.raises || y.raises) = y.raises := by
    have := within.raises
    grind
  simp [Exits.outside,Exits.union_def,raises]

lemma head_stable (rising : Rising body) (live : Bool) :
    (live || (body (head body live)).repeats) = head body live := by
  cases live with
  | true => simp [head]
  | false =>
    simp only [head,Bool.false_or]
    cases again : (body false).repeats with
    | false => exact again
    | true => exact (rising (a := false) (b := true) nofun).repeats again

variable {round : Env → Walk LoopRound}

/-- One quiet round from a head that is within the last one. -/
lemma emits_settle_succ (follows : FollowsRound round done body) {start head : Env} {next : Env → Walk Env}
    (within : (body head.live).Within x) (again : (start.live || (body head.live).repeats) = last)
    (stays : head.live = last → Emits (x.outside .loop) (next head) post) (goesOn : ∀ env, env.live = last →
      Emits (x.outside .loop) (settle c round start rounds env >>= next) post) :
    Emits (x.outside .loop) (settle c round start (rounds + 1) head >>= next) post := by
  simp only [settle,bind_assoc]
  rw [← absorbs_quiet within]
  refine (follows head).quietly.bind fun res held => ?_
  refine emits_join.followed fun joined eq => ?_
  rw [held.1,again] at eq
  split
  · rename_i unchanged
    simp only [Env.same,Bool.and_eq_true,beq_iff_eq] at unchanged
    simpa using stays (unchanged.1.symm.trans eq)
  · exact goesOn joined eq

lemma follows_runLoop (rising : Ways.Rising body) (follows : FollowsRound round done body) :
    Follows (runLoop c round) (Ways.loop done body) := by
  intro env
  have final := head_stable rising env.live
  -- The last round, from a head that can be reached just if some round comes to it.
  have last {head : Env} (eq : head.live = Ways.head body env.live) :
      Emits ((body (Ways.head body env.live)).outside .loop) (round head >>= fun res => Pure.pure res.exit) fun left =>
          left.live = (Ways.loop done body env.live).completes :=
    eq ▸ (follows head).closed fun res held => .pure (by rw [held.2,eq]; rfl)
  have settled (rounds : Nat) : ∀ head : Env, head.live = Ways.head body env.live →
      Emits ((body (Ways.head body env.live)).outside .loop)
        (settle c round env rounds head >>= fun head => round head >>= fun res =>
          Pure.pure res.exit)
        fun left => left.live = (Ways.loop done body env.live).completes := by
    induction rounds with
    | zero => exact fun head eq => by simpa [settle] using last eq
    | succ rounds ih =>
      exact fun head eq => emits_settle_succ follows (eq ▸ rising id) (eq ▸ final) last ih
  have reaches : env.live = true → Ways.head body env.live = true := fun live => by
    simp [Ways.head,live]
  exact emits_settle_succ follows (rising reaches) rfl last (settled 1)

end Loops

lemma Follows.visiting (follows : Follows walk ways) : Follows (Walk.visiting (fun env => [env]) walk) ways :=
  fun env => .visiting (follows env)

lemma Follows.following (follows : Follows walk ways) : Follows (Walk.following walk) ways :=
  fun env => .passing (follows.visiting env)

lemma Follows.entering (follows : Follows walk ways) : Follows (Walk.entering walk) ways :=
  fun env => .entering (follows env)

lemma emits_loopBody (follows : Follows walk body) (entry exit : Env) :
    Emits ((body entry.live).outside .loop) (loopBody c walk entry exit) fun res =>
      res.back.live = (body entry.live).repeats ∧
      res.exit.live = (exit.live || (body entry.live).breaks) := by
  refine (follows entry).framed fun left frame eq breaks continues => ?_
  refine emits_joinAll.followed fun back isBack => emits_joinAll.followed fun out isOut => .pure ?_
  exact ⟨by rw [isBack,eq,continues rfl]; rfl,by rw [isOut,breaks]⟩

lemma emits_caughtEnv : Emits {} (caughtEnv c seen) fun caught => caught.live = true :=
  emits_joinAll.followed fun _ _ => .pure rfl

lemma emits_runFinalizer {ways : Option Ways} (follows : Option.Rel FollowsReached finalizer ways) {after : Env}
    (eq : after.live = x.completes) (seen : List Env) :
    Emits ((ways.map (·.toExits)).getD {}) (runFinalizer c finalizer seen after) fun left =>
      left.live = (x.finalized ways).completes := by
  cases follows with
  | none => exact .pure eq
  | @some body y reached =>
    simp only [runFinalizer]
    split
    · rename_i live
      exact (reached after live).entering.mono fun left ends => by simp [finalized,ends,← eq,live]
    · rename_i dead
      refine emits_caughtEnv.followed fun caught live => ?_
      refine (reached caught live).entering.discard.closed fun _ _ => .pure ?_
      simp [finalized,← eq,dead]

lemma finalized_exits (x : Ways) (ways : Option Ways) :
    (x.finalized ways).toExits = x.toExits ∪ (ways.map (·.toExits)).getD {} := by
  cases ways <;> simp [finalized]

lemma emits_handlerEntry : Emits {} (handlerEntry c parameter seen) fun entry => entry.live = true := by
  refine emits_caughtEnv.followed fun caught live => ?_
  cases parameter with
  | none => exact .pure live
  | some id => exact emits_writeLocal.mono fun _ eq => eq.trans live

lemma emits_runHandler {ways : Option Ways}
    (follows : Option.Rel (fun h y => FollowsReached h.2 y) handler ways) :
    Emits ((ways.map (·.toExits)).getD {raises := Env.reached seen})
      (runHandler c handler seen exposure left) fun after =>
        after.live = (left.live || (ways.map (·.completes)).getD false) := by
  cases follows with
  | none =>
    refine emits_passOn.closed fun _ _ => ?_
    exact .noting (fun _ => .of_same rfl rfl rfl rfl rfl) (.pure (by simp))
  | @some h y reached =>
    refine emits_handlerEntry.followed fun entry live => ?_
    refine .noting (fun _ => .of_same rfl rfl rfl rfl rfl) ?_
    exact (reached entry live).entering.closed fun caught ends =>
      emits_join.mono fun after eq => by rw [eq,ends]; rfl

lemma follows_runTry (inBody : Follows walk body)
    (inHandler : Option.Rel (fun h y => FollowsReached h.2 y) handler handling)
    (inFinalizer : Option.Rel FollowsReached finalizer finishing) :
    Follows (runTry c walk handler finalizer) fun live =>
      ((body live).handled live handling).finalized finishing := by
  intro env
  have framed : Emits { (body env.live).toExits with raises := false}
      (exposing (inTryFrame env (walk env))) fun r => r.1.1.live = (body env.live).completes ∧
        Env.reached r.1.2 = (env.live || (body env.live).raises) :=
    emits_exposing (emits_inTryFrame (inBody env))
  have exits : ((body env.live).handled env.live handling).toExits = { (body env.live).toExits with raises := false} ∪
        (handling.map (·.toExits)).getD {raises := env.live || (body env.live).raises} := by
    cases handling with
    | none => simp [handled,Exits.union_def]
    | some y => rfl
  refine .noting (fun _ => .of_same rfl rfl rfl rfl rfl) ?_
  rw [finalized_exits,exits,Exits.union_assoc]
  refine framed.bind fun r held => ?_
  rw [← held.2]
  refine (emits_runHandler inHandler).bind fun after eq => ?_
  refine emits_runFinalizer inFinalizer ?_ r.1.2
  rw [eq,held.1]
  cases handling with
  | none => simp [handled]
  | some y => rfl

lemma emits_value (e : Expression) (env : Env) : Emits {} (valueOfExpression c e env) fun r => r.2.live = env.live :=
  Regard.walks_value (w := reachable c env.live) (fun _ _ => trivial) rfl

lemma emits_effect (e : Expression) (env : Env) : Emits {} (effect c e env) fun left => left.live = env.live :=
  (emits_value e env).followed fun _ eq => .pure eq

lemma emits_optionalEffect (e : Option Expression) (env : Env) :
    Emits {} (optionalEffect c e env) fun left => left.live = env.live := by
  cases e with
  | none => exact .pure rfl
  | some e => exact emits_effect e env

lemma emits_branchOn (e : Expression) (env : Env) : Emits {} (branchOn c e env) (LiveAs env.live) :=
  Regard.walks_condition (w := reachable c env.live) (fun _ _ => trivial) (fun _ _ => trivial) rfl

lemma emits_optionalCondition (e : Option Expression) (env : Env) : Emits {} (optionalCondition c e env) fun b =>
      b.whenTrue.live = env.live ∧ b.whenFalse.live = (env.live && e.isSome) := by
  cases e with
  | none => exact .pure ⟨rfl,by simp [Env.dead]⟩
  | some e => exact (emits_branchOn e env).mono fun b held => ⟨held.1,by simp [held.2]⟩

lemma emits_declarators (declarators : List Declarator) (env : Env) :
    Emits {} (declarators.foldlM (declarator c) env) fun left => left.live = env.live := by
  induction declarators generalizing env with
  | nil => exact .pure rfl
  | cons d rest ih =>
    have first : Emits {} (declarator c env d) fun left => left.live = env.live := by
      unfold declarator
      split
      · exact .pure rfl
      · refine (emits_value _ env).followed fun r eq => ?_
        dsimp only
        split
        · split
          · exact emits_assignLocal.mono fun _ kept => kept.trans eq
          · exact .pure eq
        · exact .pure eq
    rw [List.foldlM_cons]
    exact first.followed fun _ eq => (ih _).mono fun _ kept => kept.trans eq

lemma emits_returnStatement (value : Option Expression) (span : Span) (env : Env) :
    Emits {returns := env.live} (returnStatement c value span env) fun left => left.live = false := by
  have ends {type : Ty} {valued : Env} (eq : valued.live = env.live) : Emits {returns := env.live} (do
        checkReturned c type span
        noteReturned type valued
        return valued.kill) fun left => left.live = false :=
    .quietly_then fun _ => eq ▸ emits_noteReturned.closed fun _ _ => .pure rfl
  cases value with
  | none =>
    have start : Emits {} (pure (.undefined,env) : Walk (Ty × Env)) fun r => r.2.live = env.live := .pure rfl
    exact start.followed fun _ eq => ends eq
  | some e => exact (emits_value e env).followed fun _ eq => ends eq

lemma any_caseBodies (list : List SwitchCase) : (caseBodies c list).any (·.1.isNone) = !list.all (·.test.isSome) := by
  induction list with
  | nil => rfl
  | cons first rest ih =>
    obtain ⟨test,body⟩ := first
    cases test <;> simp [caseBodies,ih]

mutual
lemma follows_statement : (s : Statement) → Follows (statement c s) s.ways
  | .var _ declarators _ _ => .following fun env => .quietly_then fun _ => emits_declarators declarators env
  | .function _ _ | .empty _ => .following fun _ => .pure rfl
  | .classDecl _ => .following fun _ => .quietly_then fun _ => .pure rfl
  | .expression value _ => .following (emits_effect value)
  | .returnStmt value span => .following (emits_returnStatement value span)
  | .ifStmt condition consequent alternative _ => .following fun env => by
    refine (emits_branchOn condition env).followed fun b held => ?_
    have first := (follows_statement consequent).entering b.whenTrue
    have second := (follows_optionalStatement alternative).entering b.whenFalse
    rw [held.1] at first
    rw [held.2] at second
    refine first.bind fun left isLeft => second.closed fun right isRight => ?_
    exact emits_join.mono fun joined eq => by rw [eq,isLeft,isRight]; rfl
  | .whileLoop condition body _ => by
    refine .following (follows_runLoop body.rising_ways fun entry => ?_)
    refine (emits_branchOn condition entry).followed fun b held => ?_
    have walked := emits_loopBody (c := c) (follows_statement body).entering b.whenTrue b.whenFalse
    rw [held.1,held.2] at walked
    exact walked
  | .doWhile body condition _ => by
    refine .following (follows_runLoop body.rising_ways fun entry => ?_)
    refine ((follows_statement body).entering entry).framed fun left frame eq breaks continues => ?_
    refine emits_joinAll.followed fun tested isTested => ?_
    refine (emits_branchOn condition tested).followed fun b held => ?_
    refine emits_joinAll.followed fun out isOut => .pure ?_
    rw [eq,continues rfl] at isTested
    exact ⟨by rw [held.1,isTested]; rfl,by rw [isOut,held.2,isTested,breaks]; rfl⟩
  | .forLoop start condition update body _ => .following fun env => by
    refine (follows_optionalStatement start env).bind fun started eq => ?_
    have looped : Follows (runLoop c fun entry => do
        let b ← optionalCondition c condition entry
        let res ← loopBody c (entering (statement c body)) b.whenTrue b.whenFalse
        return {res with back := ← optionalEffect c update res.back})
        (.loop (fun head _ => head && condition.isSome) body.ways) := by
      refine follows_runLoop body.rising_ways fun entry => ?_
      refine (emits_optionalCondition condition entry).followed fun b held => ?_
      have walked := emits_loopBody (c := c) (follows_statement body).entering b.whenTrue b.whenFalse
      rw [held.1,held.2] at walked
      exact walked.closed fun res ends => (emits_optionalEffect update _).followed fun back kept =>
        .pure ⟨kept.trans ends.1,ends.2⟩
    have walked := looped started
    rw [eq] at walked
    exact walked
  | .forIn key decl object body span => .following fun env => by
    refine .quietly_then fun _ => (emits_value object env).followed fun r eq => ?_
    refine .quietly_then fun _ => ?_
    have looped : Follows (runLoop c fun entry => loopBody c (fun env => do
        entering (statement c body) (← assignName c key .string key.span env)) entry entry)
        (.loop (fun head _ => head) body.ways) := by
      refine follows_runLoop body.rising_ways fun entry => emits_loopBody (fun env => ?_) entry entry
      exact emits_assignName.followed fun assigned kept => kept ▸ (follows_statement body).entering assigned
    have walked := looped r.2
    rw [eq] at walked
    exact walked
  | .block body => .following (follows_block body)
  | .breakStmt _ => .following fun _ => emits_recordBreak.closed fun _ _ => .pure rfl
  | .continueStmt _ => .following fun _ => emits_recordContinue.closed fun _ _ => .pure rfl
  | .throwStmt value _ => .following fun env => (emits_effect value env).followed fun left eq =>
      eq ▸ emits_snapshot.closed fun _ _ => .pure rfl
  | .tryStmt body handler finalizer _ => .following
      (follows_runTry (follows_block body) (follows_handler handler) (follows_finalizer finalizer))
  | .switch subject cases _ => .following fun env => by
    refine (emits_effect subject env).followed fun tested eq => ?_
    have walked := follows_cases cases tested .dead
    rw [eq] at walked
    refine walked.framed fun falling frame ends breaks _ => ?_
    refine emits_joinAll.followed fun exit isExit => ?_
    rw [ends,breaks] at isExit
    rw [any_caseBodies]
    cases every : cases.all (·.test.isSome) with
    | false => exact .pure (by simp [isExit,Statement.ways,switch,every,Env.dead])
    | true =>
      exact emits_join.mono fun joined isJoined => by
        simp [isJoined,isExit,eq,Statement.ways,switch,every,Env.dead]

lemma follows_optionalStatement : (s : Option Statement) → Follows (optionalStatement c s) (optionalWays s)
  | none => fun _ => .pure rfl
  | some s => follows_statement s

lemma follows_block : (b : Block) → Follows (block c b) b.ways
  | ⟨list,_⟩ => follows_statements list

lemma follows_handler : (h : Option CatchClause) →
    Option.Rel (fun h y => FollowsReached h.2 y) (handlerBody c h) (handlerWays h)
  | none => .none
  | some ⟨_,body⟩ => .some fun env live => live ▸ follows_block body env

lemma follows_finalizer : (b : Option Block) → Option.Rel FollowsReached (finalizerBody c b) (finalizerWays b)
  | none => .none
  | some body => .some fun env live => live ▸ follows_block body env

lemma follows_cases : (list : List SwitchCase) → ∀ entry falling : Env,
    Emits (casesWays entry.live list falling.live).toExits (runCases c entry (caseBodies c list) falling) fun left =>
        left.live = (casesWays entry.live list falling.live).completes
  | [] => fun _ _ => .pure rfl
  | ⟨test,body⟩ :: rest => fun entry falling => by
    refine (emits_optionalEffect test entry).followed fun tested eq => ?_
    refine emits_join.followed fun joined isJoined => ?_
    have first := (follows_statements body).entering joined
    rw [isJoined,eq] at first
    refine first.bind fun left ends => ?_
    have later := follows_cases rest entry left
    rw [ends] at later
    exact later

lemma follows_statements : (list : List Statement) → Follows (statements c list) (statementsWays list)
  | [] => Follows.visiting fun _ => .pure rfl
  | s :: rest => fun env => by
    have exits : (statementsWays (s :: rest) env.live).toExits = (s.ways env.live).toExits ∪
        ({raises := (s.ways env.live).completes} ∪ (statementsWays rest (s.ways env.live).completes).toExits) := by
      simp [statementsWays,next,Exits.union_def,Bool.or_assoc]
    rw [exits]
    refine (follows_statement s env).bind fun left eq => ?_
    rw [← eq]
    refine emits_snapshot.bind fun _ _ => ?_
    have later := follows_statements rest left
    rw [eq] at later ⊢
    exact later
end

end GradualJs.Walk
