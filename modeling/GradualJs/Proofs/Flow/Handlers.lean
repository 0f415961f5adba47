import GradualJs.Proofs.Flow.Emits
import GradualJs.Proofs.Flow.Merge
import GradualJs.Proofs.Flow.Statements
import GradualJs.Proofs.Flow.Steps

/-! What a handler knows of the block that it belongs to. Whatever a statement of the block is
given, the handler has seen it, unless the statement is where a branch, the body of a loop, a case,
a handler or a finalizer is entered. -/
namespace GradualJs

open List

variable {α β : Type} {e : Env} {handled : List Handling} {c : WalkContext} {walk : Env → Walk Env}

@[simp] lemma Ty.primitives_primitive (set : PrimitiveSet) : (primitive set).primitives = set := by
  rw [primitive_eq]
  split
  · rename_i empty
    exact empty.symm
  · rfl

namespace Env

variable {e other joined : Env}

/-- Only primitive values are known of the name, if the point can be reached. -/
def PrimitiveAt (name : String) (e : Env) : Prop := e.live = true → ∀ t ∈ e.get? name, ∃ set, t = .primitive set

/-- Whatever the first lists of the name is listed by the second. -/
def ListedIn (name : String) (e other : Env) : Prop :=
  e.live = true → other.live = true ∧
    ∀ t ∈ e.get? name, ∃ u ∈ other.get? name, u.primitives.contains t.primitives = true

lemma ListedIn.refl (name : String) (e : Env) : e.ListedIn name e :=
  fun live => ⟨live,fun t found => ⟨t,found,t.primitives.contains_self⟩⟩

lemma ListedIn.trans (first : e.ListedIn name other) (second : other.ListedIn name last) : e.ListedIn name last := by
  intro live
  obtain ⟨live,lists⟩ := first live
  obtain ⟨live,listsMore⟩ := second live
  refine ⟨live,fun t found => ?_⟩
  obtain ⟨u,found,within⟩ := lists t found
  obtain ⟨v,found,within'⟩ := listsMore u found
  exact ⟨v,found,PrimitiveSet.contains_trans within' within⟩

lemma listedIn_of_not_live (unreachable : e.live = false) : e.ListedIn name other := by
  intro live
  rw [unreachable] at live
  cases live

section Merging

variable (undotted : Name.isDotted name = false)
include undotted

lemma listedIn_join_of_live (live : e.live = true) (otherLive : other.live = true)
    (left : e.PrimitiveAt name) (right : other.PrimitiveAt name)
    (ended : e.join {registry := r} other = some joined) :
    joined.PrimitiveAt name ∧ e.ListedIn name joined ∧ other.ListedIn name joined := by
  have reached : joined.live = true := by rw [live_join ended,live]; rfl
  have known := get?_join live otherLive ended name
  simp only [undotted,Bool.false_eq_true,if_false] at known
  have left := left live
  have right := right otherLive
  unfold PrimitiveAt ListedIn
  cases found : e.get? name with
  | none =>
    have eq : joined.get? name = other.get? name := by
      rw [known,found]
      cases other.get? name <;> rfl
    rw [eq]
    exact ⟨fun _ => right,fun _ => ⟨reached,nofun⟩,fun _ => ⟨reached,fun t here =>
      ⟨t,here,t.primitives.contains_self⟩⟩⟩
  | some a =>
    obtain ⟨a,rfl⟩ := left a found
    cases foundOther : other.get? name with
    | none =>
      have eq : joined.get? name = some (.primitive a) := by rw [known,found,foundOther]
      rw [eq]
      exact ⟨by simp,fun _ => ⟨reached,by simp⟩,fun _ => ⟨reached,nofun⟩⟩
    | some b =>
      obtain ⟨b,rfl⟩ := right b foundOther
      have both : joined.get? name = some (.primitive (a.union b)) := by
        rw [known,found,foundOther]
        exact Lattice.join_primitive r 4095 a b
      rw [both]
      exact ⟨by simp,fun _ => ⟨reached,by simp⟩,fun _ => ⟨reached,by simp⟩⟩

lemma listedIn_join (left : e.PrimitiveAt name) (right : other.PrimitiveAt name)
    (ended : e.join {registry := r} other = some joined) :
    joined.PrimitiveAt name ∧ e.ListedIn name joined ∧ other.ListedIn name joined := by
  cases otherLive : other.live with
  | false =>
    rw [join_of_not_live _ _ otherLive] at ended
    cases ended
    exact ⟨left,.refl name e,listedIn_of_not_live otherLive⟩
  | true =>
    cases live : e.live with
    | false =>
      rw [join_of_live _ live otherLive] at ended
      cases ended
      exact ⟨right,listedIn_of_not_live live,.refl name other⟩
    | true => exact listedIn_join_of_live undotted live otherLive left right ended

lemma listedIn_joinAll (start : e.PrimitiveAt name) (others : ∀ other ∈ envs, other.PrimitiveAt name)
    (ended : e.joinAll {registry := r} envs = some joined) :
    joined.PrimitiveAt name ∧ e.ListedIn name joined ∧ ∀ other ∈ envs, other.ListedIn name joined := by
  induction envs generalizing e with
  | nil =>
    cases ended
    exact ⟨start,.refl name _,nofun⟩
  | cons first rest ih =>
    obtain ⟨mid,pre,after⟩ := Option.bind_eq_some_iff.mp ended
    obtain ⟨here,later⟩ := forall_mem_cons.mp others
    obtain ⟨primitive,fromStart,fromFirst⟩ := listedIn_join undotted start here pre
    obtain ⟨listed,fromMiddle,fromRest⟩ := ih primitive later after
    exact ⟨listed,fromStart.trans fromMiddle,forall_mem_cons.mpr ⟨fromFirst.trans fromMiddle,fromRest⟩⟩

end Merging

end Env

lemma Lattice.below_unknown_primitive (r : Registry) (depth : Nat) (set : PrimitiveSet) :
    Below {registry := r, depth := depth + 1} .unknown (.primitive set) := by
  change StateT.run' (Relations.subtypeStep r (.within r depth) false (.primitive set) .unknown) [] = _
  by_cases empty : set = {} <;> simp [Ty.primitive_eq,empty,Relations.subtypeStep]

namespace Handling

variable {l : Lattice} {h : Handling}

/-- What the environment says of a local fits what the handler starts with. -/
def Covers (l : Lattice) (h : Handling) (name : String) (e : Env) : Prop :=
  e.live = true → ∀ t ∈ e.get? name, ∃ bound ∈ h.entry.get? name, l.Below bound t

instance (l : Lattice) (h : Handling) (name : String) (e : Env) : Decidable (h.Covers l name e) :=
  inferInstanceAs (Decidable (e.live = true → ∀ t ∈ e.get? name, ∃ bound ∈ h.entry.get? name,
    l.isSubtype t bound = some true))

/-- What the statements of the block were given was seen or entered, and the handler starts with
all that was seen. Its parameter may hide a local. -/
structure Complete (l : Lattice) (h : Handling) : Prop where
  passed : ∀ e ∈ h.exposure.passed, e ∈ h.seen ∨ e ∈ h.exposure.entered
  entry : ∃ joined, Env.joinAll l .dead h.seen = some joined ∧
    (h.entry = joined.revive ∨ ∃ name, h.entry = joined.revive.set name .unknown)

lemma Complete.covers (complete : h.Complete {registry := r})
    (undotted : Name.isDotted name = false) (primitive : ∀ e ∈ h.seen, e.PrimitiveAt name)
    (seen : e ∈ h.seen) : h.Covers {registry := r} name e := by
  obtain ⟨joined,ended,entry⟩ := complete.entry
  obtain ⟨isPrimitive,-,lists⟩ := Env.listedIn_joinAll undotted (by nofun) primitive ended
  intro live t found
  obtain ⟨reached,listed⟩ := lists e seen live
  obtain ⟨a,rfl⟩ := primitive e seen live t found
  obtain ⟨u,known,within⟩ := listed _ found
  obtain ⟨b,rfl⟩ := isPrimitive reached u known
  simp only [Ty.primitives_primitive] at within
  have fits := Lattice.below_primitive r 4095 within
  rcases entry with eq | ⟨parameter,eq⟩
  · exact ⟨_,by rw [eq]; exact known,fits⟩
  · by_cases hidden : parameter = name
    · subst hidden
      refine ⟨.unknown,by rw [eq]; exact Env.get?_set_self _ _ _,?_⟩
      exact Lattice.below_unknown_primitive r 4095 a
    · exact ⟨_,by rw [eq,Env.get?_set_of_ne undotted hidden]; exact known,fits⟩

end Handling

namespace Exposure

lemma append_def (x y : Exposure) : x ++ y = ⟨x.passed ++ y.passed,x.entered ++ y.entered⟩ := rfl

lemma append_assoc (x y z : Exposure) : x ++ y ++ z = x ++ (y ++ z) := by
  simp only [append_def,List.append_assoc]

lemma append_empty (x : Exposure) : x ++ ({} : Exposure) = x := by
  simp only [append_def,append_nil]

end Exposure

namespace Walk

/-- What is recorded between the states for handlers. -/
structure Recorded (seen : List Env) (exposure : Exposure) (handled : List Handling) (s s' : WalkState) : Prop where
  tryFrames : s'.tryFrames = raise seen s.tryFrames
  exposure : s'.exposure = exposure ++ s.exposure
  handled : s'.handled = handled ++ s.handled

lemma Recorded.trans (first : Recorded seen x handled s mid) (second : Recorded seen' x' handled' mid s') :
    Recorded (seen ++ seen') (x' ++ x) (handled' ++ handled) s s' where
  tryFrames := by rw [second.tryFrames,first.tryFrames,raise_raise]
  exposure := by rw [second.exposure,first.exposure,Exposure.append_assoc]
  handled := by rw [second.handled,first.handled,append_assoc]

/-- What was passed between the states was given at the start, seen or entered, and the handlers
that were entered are complete. -/
def Accounted (l : Lattice) (starts : List Env) (s s' : WalkState) : Prop :=
  ∃ seen exposure handled, Recorded seen exposure handled s s' ∧
    (∀ e ∈ exposure.passed, e ∈ starts ∨ e ∈ seen ∨ e ∈ exposure.entered) ∧
    ∀ h ∈ handled, h.Complete l

namespace Accounted

variable {s s' : WalkState}

lemma of_same (tryFrames : s'.tryFrames = s.tryFrames) (exposure : s'.exposure = s.exposure)
    (handled : s'.handled = s.handled) : Accounted l starts s s' :=
  ⟨[],{},[],⟨by simpa using tryFrames,exposure,handled⟩,nofun,nofun⟩

/-- What comes first may have seen or entered what the rest starts with. -/
lemma after {x : Exposure} (first : Recorded seen x handled s mid)
    (passed : ∀ e ∈ x.passed, e ∈ starts ∨ e ∈ seen ∨ e ∈ x.entered)
    (complete : ∀ h ∈ handled, h.Complete l) (rest : Accounted l others mid s')
    (known : ∀ e ∈ others, e ∈ starts ∨ e ∈ seen ∨ e ∈ x.entered) : Accounted l starts s s' := by
  obtain ⟨seen',x',handled',second,passed',complete'⟩ := rest
  refine ⟨_,_,_,first.trans second,fun e mem => ?_,fun h mem => ?_⟩
  · simp only [Exposure.append_def,mem_append] at mem ⊢
    rcases mem with late | early
    · rcases passed' e late with given | rest
      · have := known e given
        tauto
      · tauto
    · have := passed e early
      tauto
  · rcases mem_append.mp mem with late | early
    · exact complete' h late
    · exact complete h early

lemma trans (first : Accounted l starts s mid) (second : Accounted l starts mid s') : Accounted l starts s s' := by
  obtain ⟨_,_,_,recorded,passed,complete⟩ := first
  exact after recorded passed complete second fun e given => .inl given

instance leaving : Leaving (Accounted l starts) where
  refl _ := of_same rfl rfl rfl
  trans := trans
  reported _ _ _ := of_same rfl rfl rfl
  muted accounted := by
    obtain ⟨seen,x,handled,recorded,rest⟩ := accounted
    exact ⟨seen,x,handled,⟨recorded.tryFrames,recorded.exposure,recorded.handled⟩,rest⟩
  noted _ _ _ _ := of_same rfl rfl rfl
  jumps _ _ _ := of_same rfl rfl rfl
  returns _ _ _ := of_same rfl rfl rfl

instance deferring : Deferring c (Accounted l starts) where
  resolved _ _ _ := of_same rfl rfl rfl
  deferred _ _ _ _ := of_same rfl rfl rfl

end Accounted

lemma Moves.bind_of [Frame R] {x : Walk α} (post : α → Prop) (first : ∀ s a s', x.run s = some (a,s') → R s s' ∧ post a)
    (next : ∀ a, post a → Moves R (f a)) : Moves R (x >>= f) where
  frame s b s' ran := by
    obtain ⟨a,mid,pre,after⟩ := run_bind_iff.mp ran
    obtain ⟨moved,held⟩ := first s a mid pre
    exact Frame.trans moved ((next a held).frame _ _ _ after)

section Blocks

variable {α : Type}

lemma accounted_following (walks : Moves (Accounted l [env]) (walk env)) :
    Moves (Accounted l [env]) (following walk env) := by
  refine @Moves.bind _ _ _ _ _ _ (Moves.of_modify fun s => ?_) fun _ => Moves.visiting
  exact ⟨[],{passed := [env]},[],⟨by simp,rfl,rfl⟩,by simp,nofun⟩

lemma accounted_entering {walk : Env → Walk α} (walks : Moves (Accounted l [env]) (walk env)) :
    Moves (Accounted l starts) (entering walk env) where
  frame s a s' ran := by
    obtain ⟨_,_,noted,ran⟩ := run_bind_iff.mp ran
    cases noted
    have entered : Recorded [] {entered := [env]} [] s
        {s with exposure := {entered := [env]} ++ s.exposure} := ⟨by simp,rfl,rfl⟩
    exact .after entered (by simp) (by simp) (walks.frame _ _ _ ran) (by simp)

lemma recorded_passOn (seen : List Env) (s : WalkState) :
    Recorded seen {} [] s {s with tryFrames := raise seen s.tryFrames} := ⟨rfl,rfl,rfl⟩

lemma accounted_snapshot (left : Env) : Moves (Accounted l starts) (snapshot left) := by
  have eq : snapshot left = passOn [left] := rfl
  rw [eq,passOn_eq]
  exact .of_modify fun s => ⟨_,_,_,recorded_passOn [left] s,nofun,nofun⟩

lemma accounted_next
    (inFirst : Moves (Accounted l starts) first) (walks : ∀ left, Moves (Accounted l [left]) (walk left)) :
    Moves (Accounted l starts) (do let left ← first; snapshot left; walk left) where
  frame s a s' ran := by
    obtain ⟨left,mid,pre,ran⟩ := run_bind_iff.mp ran
    obtain ⟨_,_,seen,ran⟩ := run_bind_iff.mp ran
    have eq : snapshot left = passOn [left] := rfl
    rw [eq,passOn_eq] at seen
    cases seen
    refine (inFirst.frame _ _ _ pre).trans ?_
    exact .after (recorded_passOn [left] mid) nofun nofun ((walks left).frame _ _ _ ran) (by simp)

lemma accounted_block (acts : Moves (Accounted l [env]) action) (s : WalkState)
    (r : (α × List Env) × Exposure) (s' : WalkState)
    (ran : (exposing (inTryFrame env action)).run s = some (r,s')) :
    Accounted l starts s s' ∧ ∀ e ∈ r.2.passed, e ∈ r.1.2 ∨ e ∈ r.2.entered := by
  obtain ⟨_,_,gotten,ran⟩ := run_bind_iff.mp ran
  cases gotten
  obtain ⟨_,_,reset,ran⟩ := run_bind_iff.mp ran
  cases reset
  obtain ⟨framed,final,inner,ran⟩ := run_bind_iff.mp ran
  obtain ⟨_,_,pushed,inner⟩ := run_bind_iff.mp inner
  cases pushed
  obtain ⟨a,mid,pre,inner⟩ := run_bind_iff.mp inner
  obtain ⟨seen,x,handled,recorded,passed,complete⟩ := acts.frame _ _ _ pre
  have frames : mid.tryFrames = (env :: seen) :: s.tryFrames := recorded.tryFrames
  have exposure : mid.exposure = x := recorded.exposure.trans (Exposure.append_empty x)
  obtain ⟨_,_,gotten,inner⟩ := run_bind_iff.mp inner
  cases gotten
  simp only [frames] at inner
  cases inner
  cases ran
  refine ⟨⟨[],{},handled,⟨by simp,rfl,recorded.handled⟩,nofun,complete⟩,fun e mem => ?_⟩
  have mem : e ∈ x.passed := exposure ▸ mem
  have entered : e ∈ mid.exposure.entered ↔ e ∈ x.entered := by rw [exposure]
  rcases passed e mem with given | seen | isEntered
  · exact .inl (mem_cons.mpr (.inl (mem_singleton.mp given)))
  · exact .inl (mem_cons_of_mem _ seen)
  · exact .inr (entered.mpr isEntered)

variable {c : WalkContext}

lemma accounted_runFinalizer
    (inFinalizer : ∀ last ∈ finalizer, ∀ env, Moves (Accounted l [env]) (last env)) {after : Env} :
    Moves (Accounted l starts) (runFinalizer c finalizer seen after) := by
  unfold runFinalizer
  cases finalizer with
  | none => infer_instance
  | some last =>
    have (env : Env) : Moves (Accounted l starts) (entering last env) := accounted_entering (inFinalizer last rfl env)
    infer_instance

lemma run_caughtEnv (seen : List Env) (s : WalkState) (caught : Env) (s' : WalkState)
    (ran : (caughtEnv c seen).run s = some (caught,s')) : Accounted l starts s s' ∧
      ∃ joined, Env.joinAll c.lattice .dead seen = some joined ∧ caught = joined.revive := by
  refine ⟨Moves.frame _ _ _ ran,?_⟩
  obtain ⟨joined,_,pre,after⟩ := run_bind_iff.mp ran
  obtain ⟨found,ended,eq⟩ := Option.bind_eq_some_iff.mp pre
  cases eq
  cases after
  exact ⟨joined,ended,rfl⟩

lemma run_handlerEntry (seen : List Env) (s : WalkState)
    (entry : Env) (s' : WalkState) (ran : (handlerEntry c parameter seen).run s = some (entry,s')) :
    Accounted l starts s s' ∧ ∃ joined, Env.joinAll c.lattice .dead seen = some joined ∧
      (entry = joined.revive ∨ ∃ name, entry = joined.revive.set name .unknown) := by
  obtain ⟨caught,mid,pre,ran⟩ := run_bind_iff.mp ran
  obtain ⟨moved,joined,ended,eq⟩ : Accounted l starts s mid ∧ _ := run_caughtEnv seen s caught mid pre
  subst eq
  cases parameter with
  | none =>
    cases ran
    exact ⟨moved,joined,ended,.inl rfl⟩
  | some id =>
    obtain ⟨later,written⟩ : Accounted l starts mid s' ∧ _ :=
      Yields.writeLocal (fun s _ => Noting.noted s s.visited _ s.calls) mid entry s' ran
    exact ⟨moved.trans later,joined,ended,.inr ⟨id.name,written⟩⟩

/-- What a block without a handler has seen and entered is added to what is around it. -/
lemma accounted_runHandler (inHandler : ∀ p ∈ handler, ∀ env, Moves (Accounted c.lattice [env]) (p.2 env))
    {exposure : Exposure} (passed : ∀ e ∈ exposure.passed, e ∈ seen ∨ e ∈ exposure.entered) :
    Moves (Accounted c.lattice starts) (runHandler c handler seen exposure left) := by
  cases handler with
  | none =>
    refine ⟨fun s a s' ran => ?_⟩
    rw [runHandler,passOn_eq] at ran
    cases ran
    exact ⟨seen,exposure,[],⟨rfl,rfl,rfl⟩,fun e mem => .inr (passed e mem),nofun⟩
  | some p =>
    obtain ⟨parameter,catching⟩ := p
    have enters (env : Env) : Moves (Accounted c.lattice starts) (entering catching env) :=
      accounted_entering (inHandler _ rfl env)
    refine .bind_of _ (run_handlerEntry seen) fun entry ⟨joined,ended,eq⟩ => ?_
    refine @Moves.bind _ _ _ _ _ _ (Moves.of_modify fun s => ?_) fun _ => inferInstance
    have complete : Handling.Complete c.lattice ⟨seen,exposure,entry⟩ := ⟨passed,joined,ended,eq⟩
    exact ⟨[],{},[_],⟨by simp,rfl,rfl⟩,nofun,by simpa using complete⟩

lemma accounted_runTry (inBody : ∀ env, Moves (Accounted c.lattice [env]) (body env))
    (inHandler : ∀ p ∈ handler, ∀ env, Moves (Accounted c.lattice [env]) (p.2 env))
    (inFinalizer : ∀ last ∈ finalizer, ∀ env, Moves (Accounted c.lattice [env]) (last env)) :
    Moves (Accounted c.lattice starts) (runTry c body handler finalizer env) := by
  have finalizes {seen : List Env} {after : Env} :
      Moves (Accounted c.lattice starts) (runFinalizer c finalizer seen after) :=
    accounted_runFinalizer inFinalizer
  refine @Moves.bind _ _ _ _ _ _ (Moves.of_modify fun _ => .of_same rfl rfl rfl) fun _ => ?_
  refine .bind_of _ (accounted_block (inBody env)) fun r passed => ?_
  have handles : Moves (Accounted c.lattice starts) (runHandler c handler r.1.2 r.2 r.1.1) :=
    accounted_runHandler inHandler passed
  exact @Moves.bind _ _ _ _ _ _ handles fun _ => finalizes

end Blocks

instance accounted_tracing : Tracing c fun env => Accounted c.lattice [env] where
  leaving _ := inferInstance
  deferring _ := inferInstance
  following := accounted_following
  entering := accounted_entering
  snapshot _ := accounted_snapshot
  next := accounted_next
  trying := accounted_runTry

end Walk

namespace Flow

variable {state after : FlowState}

def Handled (r : Registry) (state : FlowState) : Prop := ∀ p ∈ state.handled, p.2.Complete {registry := r}

lemma Handled.finish (pre : Handled r state)
    (accounted : Walk.Accounted {registry := r} starts (startOf state) walked) :
    Handled r (finish state scope walked) := by
  obtain ⟨_,_,handled,recorded,-,complete⟩ := accounted
  have eq : walked.handled = handled := recorded.handled.trans (append_nil _)
  intro p mem
  rcases mem_append.mp mem with new | old
  · obtain ⟨h,added,rfl⟩ := mem_map.mp new
    exact complete h (eq ▸ added)
  · exact pre p old

lemma step_handled (pre : Handled r state) (ran : step r options tree state scope = some after) : Handled r after := by
  obtain ⟨recv,declared,body,entry,left,last,walked,_,_,walk,ended,-,rfl⟩ := step_eq_some ran
  let c := context r options tree state scope recv declared
  have moves := Walk.Tracing.statements (c := c) (R := fun env => Walk.Accounted c.lattice [env]) body entry
  exact pre.finish (Walk.Frame.trans (moves.frame _ _ _ walk) (ended _))

lemma analyze_handled (ran : analyze r options p = some state) : Handled r state :=
  analyze_induction nofun step_handled ran

end Flow

/-- What a statement of a `try` block is given of a local is covered by what the handler starts
with, unless it is where a branch, the body of a loop, a case, a handler or a finalizer is entered.
So all of it is covered if and only if it is covered there. -/
theorem handler_covers_iff {r : Registry} {options : Options} {p : Program} {state : FlowState}
    (ran : Flow.analyze r options p = some state) {scope : ScopeId} {h : Handling}
    (entered : (scope,h) ∈ state.handled) {name : String} (undotted : Name.isDotted name = false)
    (primitive : ∀ e ∈ h.seen, e.PrimitiveAt name) :
    (∀ e ∈ h.exposure.passed, e ∉ h.exposure.entered → h.Covers {registry := r} name e) ∧
    ((∀ e ∈ h.exposure.passed, h.Covers {registry := r} name e) ↔
      ∀ e ∈ h.exposure.passed, e ∈ h.exposure.entered → h.Covers {registry := r} name e) := by
  have complete := Flow.analyze_handled ran _ entered
  have followed : ∀ e ∈ h.exposure.passed, e ∉ h.exposure.entered → h.Covers {registry := r} name e := by
    intro e mem outside
    rcases complete.passed e mem with seen | inside
    · exact complete.covers undotted primitive seen
    · exact absurd inside outside
  refine ⟨followed,fun all e mem _ => all e mem,fun doors e mem => ?_⟩
  by_cases inside : e ∈ h.exposure.entered
  · exact doors e mem inside
  · exact followed e mem inside

namespace Guarded

def x : Expression := ⟨{},.identifier ⟨"x",{}⟩⟩
def set (value : Literal) : Expression := ⟨{},.assignment none x ⟨{},.literal value⟩⟩
def store (value : Literal) : Statement := .expression (set value) none

/-- The handler of a block subtracts from what was a number before the block. -/
def prog (block : List Statement) : Program where
  statements := [.function ⟨"f",{}⟩ {id := 0, parameters := [], body := ⟨[
    .var .var [⟨⟨"x",{}⟩,none,some ⟨{},.literal (.number 1)⟩⟩] none {},
    .tryStmt ⟨block,{}⟩ (some ⟨some ⟨"e",{}⟩,⟨[
      .expression ⟨{},.binary .subtract x ⟨{},.literal (.number 1)⟩⟩ none],{}⟩⟩) none {}],{}⟩}]

/-- Text is stored by a statement of the block. -/
def stored : List Statement := [store (.string "a"),.ifStmt x (store (.number 2)) none {}]

/-- Text is stored by a condition in the block, and replaced in both branches. -/
def tested : List Statement := [.ifStmt (set (.string "a")) (store (.number 2)) (some (store (.number 3))) {}]
def flow (block : List Statement) : Option FlowState := Flow.analyze (Outline.registry []) {} (prog block)

def reports (block : List Statement) : Option (List DiagnosticKind) :=
  (Options.check {} (prog block) none).map fun res => res.diagnostics.map (·.kind)

def handles (block : List Statement) (check : Handling → Bool) : Bool :=
  (flow block).any fun state => state.handled.any fun p => p.1 = 1 && check p.2

def covered (h : Handling) : Bool :=
  h.exposure.passed.length = 3 &&
  h.seen.all (fun e => ∀ t ∈ e.get? "x", t = .primitive t.primitives) &&
  h.exposure.entered.all fun e => h.Covers {registry := Outline.registry []} "x" e

def missed (h : Handling) : Bool :=
  h.entry.get? "x" = some .number &&
  h.exposure.passed.any fun e => e.live && e.get? "x" = some .string &&
    !h.Covers {registry := Outline.registry []} "x" e

lemma blocks_handled : handles stored covered = true ∧ handles tested missed = true ∧
    reports tested = some [] ∧ reports stored = some [.invalidOperandType] := by
  decide +kernel

lemma exists_handling (checked : handles block check = true) :
    ∃ state h, flow block = some state ∧ (1,h) ∈ state.handled ∧ check h = true := by
  unfold handles at checked
  cases ran : flow block with
  | none => simp [ran] at checked
  | some state =>
    rw [ran] at checked
    obtain ⟨⟨scope,h⟩,entered,checked⟩ := any_eq_true.mp checked
    obtain ⟨isScope,checked⟩ := Bool.and_eq_true_iff.mp checked
    exact ⟨state,h,rfl,of_decide_eq_true isScope ▸ entered,checked⟩

lemma primitiveAt_of_eq (eq : ∀ t ∈ e.get? name, t = .primitive t.primitives) : e.PrimitiveAt name :=
  fun _ t found => ⟨_,eq t found⟩

end Guarded

open Guarded in
theorem handler_covers_stored : ∃ state h, flow stored = some state ∧ (1,h) ∈ state.handled ∧
    h.exposure.passed.length = 3 ∧
    ∀ e ∈ h.exposure.passed, h.Covers {registry := Outline.registry []} "x" e := by
  obtain ⟨state,h,ran,entered,checked⟩ := exists_handling blocks_handled.1
  simp only [covered,Bool.and_eq_true,decide_eq_true_eq,List.all_eq_true] at checked
  obtain ⟨⟨count,seen⟩,doors⟩ := checked
  refine ⟨state,h,ran,entered,count,?_⟩
  exact (handler_covers_iff ran entered rfl fun e mem => primitiveAt_of_eq (seen e mem)).2.mpr
    fun e _ inside => doors e inside

open Guarded in
/-- What a condition stores is not handed over, and the handler takes text for a number. -/
theorem handler_misses_tested : (∃ state h, flow tested = some state ∧ (1,h) ∈ state.handled ∧
      h.entry.get? "x" = some .number ∧ ∃ e ∈ h.exposure.passed, e.live = true ∧
        e.get? "x" = some .string ∧ ¬h.Covers {registry := Outline.registry []} "x" e) ∧
    reports tested = some [] ∧ reports stored = some [.invalidOperandType] := by
  refine ⟨?_,blocks_handled.2.2⟩
  obtain ⟨state,h,ran,entered,checked⟩ := exists_handling blocks_handled.2.1
  simp only [missed,Bool.and_eq_true,decide_eq_true_eq,List.any_eq_true,Bool.not_eq_true',
    decide_eq_false_iff_not] at checked
  obtain ⟨entry,e,mem,⟨live,known⟩,missed⟩ := checked
  exact ⟨state,h,ran,entered,entry,e,mem,live,known,missed⟩

end GradualJs
