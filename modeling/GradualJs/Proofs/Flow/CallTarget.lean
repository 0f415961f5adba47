import GradualJs.Proofs.Flow.Following
import GradualJs.Proofs.Flow.Simulation
import GradualJs.Proofs.Flow.Steps

/-! What a call of a local is checked against. Where every path has stored one function literal
last, the type that is called is that of this literal; but a summary is taken from the literal that
the local is declared with. -/
namespace GradualJs

open CallPoint

/-! Statements follow the paths that store a function literal. -/
namespace Binding

open Walk Paths

variable {c : WalkContext} {b : Binding c} {e : Expression}

lemma yields_value (tracks : b.Tracks ((b.expression e).value.Sure b.literal fun _ => values) env) :
    Yields b.Calm (valueOfExpression c e env) fun r => b.Tracks values r.2 ∧
      (e.stored = .literal b.literal → r.1 = b.type) :=
  have follows := follows_expression (w := b.simulator) e fun _ _ => trivial
  (follows.value tracks).mono fun _ held => ⟨held.1,held.2.1⟩

lemma yields_declarator (tracks : b.Tracks ((b.declarator d).Sure b.literal fun _ => values) env) :
    Yields b.Calm (declarator c env d) (b.Tracks values) := by
  obtain ⟨id,jsdoc,init⟩ := d
  cases init with
  | none => exact .pure (by simpa [CallPoint.declarator] using tracks)
  | some e =>
    simp only [CallPoint.declarator,sure_bind] at tracks
    refine (yields_value tracks).bind fun r held => ?_
    dsimp only
    by_cases eq : id.name = b.name
    · rw [CallPoint.storing,if_pos eq,sure_store] at held
      rw [eq,b.own]
      simp only [WalkContext.isOwn,decide_true,if_true]
      exact yields_assignLocal held.1 held.2
    · rw [CallPoint.storing,if_neg eq,sure_pure] at held
      split
      · split
        · exact yields_assignLocal_other eq held.1
        · exact .pure held.1
      · exact .pure held.1

lemma tracks_revive {joined : Env} (tracks : b.Tracks values joined)
    (ended : Env.joinAll c.lattice .dead seen = some joined) (reached : ∃ e ∈ seen, e.live = true) :
    b.Tracks values joined.revive := by
  have live : joined.live = true := by
    rw [Env.live_joinAll ended]
    exact List.any_eq_true.mpr reached
  have eq : joined.revive = joined := by
    cases joined
    simp_all [Env.revive]
  exact eq ▸ tracks

lemma yields_forgotten {id : Identifier}
    (tracks : b.Tracks ((b.storing id.name .other).Sure b.literal fun _ => values) env) :
    Yields b.Calm (writeLocal c env id.name .unknown) (b.Tracks values) := by
  refine yields_writeLocal.mono fun entry eq => ?_
  rw [eq]
  by_cases isName : id.name = b.name
  · rw [storing,if_pos isName,sure_store] at tracks
    rw [isName]
    exact tracks.store (by simp)
  · rw [storing,if_neg isName,sure_pure] at tracks
    exact tracks.set isName

/-- What environments know of the literal, and what the calls on the way read. -/
def follower (b : Binding c) : Follower c where
  toSimulator := b.simulator
  Tried e := e.live = true
  Calm := b.Calm
  Noted s s' := ∃ met, s'.calls = s.calls ++ met ∧ ∀ m ∈ met, b.Expects m
  deferring := inferInstance
  yields := id
  calm held := ⟨held.jumps,held.tryFrames,held.calls⟩
  calm_leaving _ _ _ _ := .of_same rfl rfl rfl rfl
  noted_trans := by
    rintro s mid s' ⟨met,calls,wanted⟩ ⟨met',calls',wanted'⟩
    exact ⟨met ++ met',by simp [calls',calls],List.forall_mem_append.mpr ⟨wanted,wanted'⟩⟩
  noted_same calls _ := ⟨[],by simpa using calls,by simp⟩
  noted_visited _ _ _ _ := ⟨[],by simp,by simp⟩
  empty := .of_dead rfl
  dead _ := .of_dead
  kill _ := .of_dead rfl
  merge := .join
  revive := tracks_revive
  declares _ := yields_declarator
  forgets := yields_forgotten

lemma keeps_statements (list : List Statement) : b.follower.Keeps (statements c list) (b.statements list) :=
  Follower.keeps_statements list fun _ _ => trivial

end Binding

variable {f : FunctionType}

def ScopeWalk.Runs (w : ScopeWalk) : Prop :=
  ∃ start left last, start.calls = [] ∧ (Walk.statements w.context w.body w.entry).run start = some (left,last) ∧
    w.state.calls = last.calls ∧ w.state.tried = last.tried

namespace Flow

def Walked (state : FlowState) : Prop := ∀ w ∈ state.walks, w.Runs

variable {state : FlowState}

/-- Reports do not change which calls and which `try` statements were met. -/
instance sameMet : Walk.Frame fun s s' => s'.calls = s.calls ∧ s'.tried = s.tried where
  refl _ := ⟨rfl,rfl⟩
  trans first second := ⟨second.1.trans first.1,second.2.trans first.2⟩
  reported _ _ _ := ⟨rfl,rfl⟩
  muted eq := eq

lemma step_walked (pre : Walked state) (ran : step r options tree state scope = some after) : Walked after := by
  obtain ⟨_,_,_,_,left,last,walked,_,_,walk,ended,-,rfl⟩ := step_eq_some ran
  have eq := ended fun s s' => s'.calls = s.calls ∧ s'.tried = s.tried
  exact List.forall_mem_cons.mpr ⟨⟨_,left,last,rfl,walk,eq⟩,pre⟩

lemma analyze_walked (ran : analyze r options p = some state) : Walked state := analyze_induction nofun step_walked ran

end Flow

namespace WalkContext

variable (c : WalkContext)

/-- The call is checked against the type of the literal, or against the summary that it will have. -/
def ChecksAgainst (fn : Nat) : CallTarget → Prop
  | .now f => .function f = c.functionValue fn
  | .later id _ => id = fn

/-- The literal leaves a call alone that is made with the type: it has the type itself, or no
summary is needed. -/
def LeavesAlone (type : Ty) (id : Nat) : Prop :=
  match c.summaries.get? id with
  | some summary => .function summary.function = type
  | none => ∀ d ∈ c.registry.function? id, d.fromExterns = true ∨ d.signature.isComplete = true

variable {c}

lemma checksAgainst_target_iff (typed : c.functionValue fn = .function f) :
    c.ChecksAgainst fn (c.target f declared) ↔ ∀ id ∈ declared, id = fn ∨ c.LeavesAlone (.function f) id := by
  cases declared with
  | none => simp [target,ChecksAgainst,typed]
  | some id =>
    simp only [Option.mem_some_iff,forall_eq',target,LeavesAlone]
    cases followed : c.summaries.get? id with
    | some summary =>
      simp only [ChecksAgainst,typed]
      refine ⟨.inr,?_⟩
      rintro (rfl | eq)
      · simpa [functionValue,followed] using typed
      · exact eq
    | none =>
      cases found : c.registry.function? id with
      | none => simp [ChecksAgainst,typed]
      | some d =>
        by_cases enough : d.fromExterns = true ∨ d.signature.isComplete = true
        · have now : (!d.fromExterns && !d.signature.isComplete) = false := by
            rcases enough with isExtern | complete <;> simp [*]
          simp [now,ChecksAgainst,typed,enough]
        · have later : (!d.fromExterns && !d.signature.isComplete) = true := by
            simpa using enough
          simp [later,ChecksAgainst,enough]

end WalkContext

lemma Walk.invoke_function {site : CallSite} (plain : site.isNew = false) :
    invoke c site ⟨.function f,none,declared⟩ args =
      callTarget c {site with legacyMinArity := c.legacyMinArity site declared} (c.target f declared) args none := by
  have called : invoke c site ⟨.function f,none,declared⟩ args =
      callFunction c site f ⟨.function f,none,declared⟩ args := rfl
  simp [called,callFunction,plain]

namespace Binding

variable {c : WalkContext} (b : Binding c)

def start (entry : Env) : Stored :=
  if entry.get? b.name = some b.type then .literal b.literal else .other

lemma tracks_start (held : values (b.start entry)) : b.Tracks values entry := by
  refine fun _ => ⟨_,held,fun isLiteral => ?_⟩
  unfold start at isLiteral
  split at isLiteral
  · rename_i known
    exact ⟨_,known,.inl rfl⟩
  · cases isLiteral

end Binding

/-- Where all paths to a call of a local have stored one function literal last, the type that is
called is the type of the literal, unless tests have left nothing of it. The call is checked against
this literal if and only if the local is declared with it or with no literal, or the other literal
that it is declared with leaves the call alone. -/
theorem Flow.call_checked_against_iff {r : Registry} {options : Options} {p : Program} {state : FlowState}
    (ran : analyze r options p = some state) {w : ScopeWalk} (walked : w ∈ state.walks)
    (reached : ∀ e ∈ w.state.tried, e.live = true) (b : Binding w.context)
    (stored : ∀ v, b.statements w.body (b.start w.entry) none v → v = .literal b.literal)
    {m : MetCall} (met : m ∈ w.state.calls) (named : m.name = some b.name) (placed : m.span = b.span)
    (plain : m.isNew = false) (live : m.env.live = true) (possible : m.callee.type ≠ .bottom) :
    ∃ f, w.context.functionValue b.literal = .function f ∧ m.callee = ⟨.function f,none,b.decl.function⟩ ∧
      (∀ site args, site.isNew = false → Walk.invoke w.context site m.callee args = Walk.callTarget w.context
          {site with legacyMinArity := w.context.legacyMinArity site b.decl.function}
          (w.context.target f b.decl.function) args none) ∧
      (w.context.ChecksAgainst b.literal (w.context.target f b.decl.function) ↔
        ∀ id ∈ b.decl.function, id = b.literal ∨ w.context.LeavesAlone (.function f) id) := by
  obtain ⟨first,left,last,empty,ran,calls,tried⟩ := analyze_walked ran w walked
  -- What a path ends with does not matter, only what it stops with at the call.
  have sure : (b.statements w.body).Sure b.literal (fun _ _ => True) (b.start w.entry) := ⟨stored,fun _ _ _ => trivial⟩
  obtain ⟨⟨-,-,others,all,wanted⟩,-⟩ :=
    Binding.keeps_statements w.body (b.tracks_start sure) _ _ _ ran (tried ▸ reached)
  rw [empty,List.nil_append] at all
  obtain ⟨callee,holds⟩ := wanted m (all ▸ calls ▸ met) named
  obtain ⟨f,typed⟩ := w.context.exists_functionValue_eq b.literal
  have called : m.callee = ⟨.function f,none,b.decl.function⟩ := by
    rw [callee] at possible ⊢
    rcases Binding.leftOf_read (holds placed plain live) with eq | nothing
    · rw [eq,Binding.type,typed]
    · exact absurd nothing possible
  refine ⟨f,typed,called,fun site args isPlain => ?_,WalkContext.checksAgainst_target_iff typed⟩
  rw [called]
  exact Walk.invoke_function isPlain

namespace Reassigned

def reducing : ExpressionKind :=
  .function {id := 0, parameters := [⟨"x",{}⟩], body := ⟨[.returnStmt (some ⟨{},.binary .subtract
    ⟨{},.identifier ⟨"x",{}⟩⟩ ⟨{},.literal (.number 1)⟩⟩) {}],{}⟩}

def returning : ExpressionKind :=
  .function {id := 1, parameters := [⟨"s",{}⟩], body := ⟨[.returnStmt (some ⟨{},.identifier ⟨"s",{}⟩⟩) {}],{}⟩}

/-- A local with some value is given a function and called with text. -/
def prog (initial : ExpressionKind) : Program where
  statements := [.function ⟨"t",{}⟩ {id := 2, parameters := [], body := ⟨[
    .var .var [⟨⟨"f",{}⟩,none,some ⟨{},initial⟩⟩] none {},
    .expression ⟨{},.assignment none ⟨{},.identifier ⟨"f",{}⟩⟩ ⟨{},returning⟩⟩ none,
    .expression ⟨{line := 1},.call ⟨{},.identifier ⟨"f",{}⟩⟩ [⟨{},.literal (.string "a")⟩]⟩ none],{}⟩}]

def registry (initial : ExpressionKind) : Registry :=
  ((Declarations.collect (prog initial) none false).map (·.registry)).getD {}

def flow (initial : ExpressionKind) : Option FlowState := Flow.analyze (registry initial) {} (prog initial)

def reports (initial : ExpressionKind) : Option (List DiagnosticKind) :=
  (Options.check {} (prog initial) none).map fun res => res.diagnostics.map (·.kind)

def call : CallPoint := ⟨"f",{line := 1}⟩

def storesLast (id : Nat) : List Statement → Bool
  | [.var _ [⟨⟨declared,_⟩,_,some ⟨_,initial⟩⟩] _ _,
      .expression ⟨_,.assignment none ⟨_,.identifier ⟨stored,_⟩⟩ ⟨_,.function fn⟩⟩ _,
      .expression ⟨span,.call ⟨_,.identifier ⟨called,_⟩⟩ [⟨_,.literal _⟩]⟩ _] =>
    (initial matches .literal _ | .function _) && declared = "f" && stored = "f" && called = "f" &&
      span = {line := 1} && fn.id = id
  | _ => false

lemma eq_of_storesLast {id : Nat} (stores : storesLast id body = true)
    (path : call.statements body start none v) : v = .literal id := by
  have sure : (call.statements body).Sure id (fun _ _ => True) start := by
    unfold storesLast at stores
    split at stores
    · simp only [Bool.and_eq_true,decide_eq_true_eq] at stores
      obtain ⟨⟨⟨⟨⟨constant,rfl⟩,rfl⟩,rfl⟩,rfl⟩,rfl⟩ := stores
      split at constant
      case h_3 => cases constant
      all_goals simp [call,statements,statement,declarators, declarator,storing,expression,expressionKind,
        expressions,Paths.sure_next,Paths.before,Expression.stored,ExpressionKind.stored,
        Expression.qualifiedName,Expression.qualifiedNameKind]
    · cases stores
  exact sure.1 v path

/-- Whether the body is walked in a context with a property, and the call in it is met. -/
def walks (initial : ExpressionKind) (declared : Option Nat) (check : WalkContext → Bool) : Bool :=
  (flow initial).any fun state => state.walks.any fun w => storesLast 1 w.body &&
    w.state.tried.isEmpty && (w.context.tree.resolve w.context.scope "f").any (fun p =>
      p.1 = w.context.scope && p.2.declared = none && p.2.function = declared) &&
    (w.context.functionValue 1).same (w.context.functionValue 1) && check w.context &&
    w.state.calls.any fun m => m.name = some "f" && m.span = {line := 1} && !m.isNew &&
      m.env.live && !m.callee.type.isBottom

/-- The summary of the first function is not there yet, and its comment does not say enough. -/
def waiting (c : WalkContext) : Bool :=
  (c.summaries.get? 0).isNone && (c.registry.function? 0).any fun d =>
    !d.fromExterns && !d.signature.isComplete

lemma bodies_walked : walks (.literal (.number 1)) none (fun _ => true) = true ∧
    walks reducing (some 0) waiting = true ∧ reports reducing = some [.invalidArgumentType] ∧
    reports (.literal (.number 1)) = some [] := by
  decide +kernel

lemma exists_walk (checked : walks initial declared check = true) :
    ∃ state w, flow initial = some state ∧ w ∈ state.walks ∧ w.state.tried = [] ∧
      check w.context = true ∧ ∃ b : Binding w.context, b.literal = 1 ∧ b.decl.function = declared ∧
        (∀ v, b.statements w.body (b.start w.entry) none v → v = .literal b.literal) ∧
        ∃ m ∈ w.state.calls, m.name = some b.name ∧ m.span = b.span ∧ m.isNew = false ∧
          m.env.live = true ∧ m.callee.type ≠ .bottom := by
  unfold walks at checked
  cases ran : flow initial with
  | none => simp [ran] at checked
  | some state =>
    rw [ran] at checked
    obtain ⟨w,walked,checked⟩ := List.any_eq_true.mp checked
    simp only [Bool.and_eq_true] at checked
    obtain ⟨⟨⟨⟨⟨stores,empty⟩,own⟩,regular⟩,checked⟩,met⟩ := checked
    cases found : w.context.tree.resolve w.context.scope "f" with
    | none => simp [found] at own
    | some p =>
      obtain ⟨scope,decl⟩ := p
      simp only [found,Option.any_some,Bool.and_eq_true,decide_eq_true_eq] at own
      obtain ⟨⟨rfl,undeclared⟩,function⟩ := own
      let b : Binding w.context := ⟨call,decl,1,found,by decide,by decide,by simp [undeclared],regular⟩
      obtain ⟨m,mem,isCall⟩ := List.any_eq_true.mp met
      simp only [Bool.and_eq_true,decide_eq_true_eq,Bool.not_eq_true'] at isCall
      obtain ⟨⟨⟨⟨named,placed⟩,plain⟩,live⟩,possible⟩ := isCall
      refine ⟨state,w,rfl,walked,List.isEmpty_iff.mp empty,checked,b,rfl,function,
        fun _ path => eq_of_storesLast stores path,m,mem,named,placed,plain,live,?_⟩
      rintro isBottom
      rw [isBottom] at possible
      cases possible

end Reassigned

open Reassigned in
/-- What is stored behind a number is what a call is checked against. -/
theorem Flow.call_behind_number_checked : ∃ state w, flow (.literal (.number 1)) = some state ∧
    w ∈ state.walks ∧ ∃ b : Binding w.context, b.literal = 1 ∧
      (∀ v, b.statements w.body (b.start w.entry) none v → v = .literal 1) ∧
      ∃ m ∈ w.state.calls, m.name = some b.name ∧ m.span = b.span ∧ ∃ f, m.callee.type = .function f ∧
        w.context.functionValue 1 = .function f ∧
        w.context.ChecksAgainst 1 (w.context.target f m.callee.function) := by
  obtain ⟨state,w,ran,walked,empty,-,b,fn,function,stored,m,met,named,placed,plain,
    live,possible⟩ := exists_walk bodies_walked.1
  obtain ⟨f,typed,called,-,against⟩ := call_checked_against_iff ran walked (by simp [empty]) b stored
    met named placed plain live possible
  rw [fn] at stored typed against
  refine ⟨state,w,ran,walked,b,fn,stored,m,met,named,placed,f,?_,typed,?_⟩
  · rw [called]
  · rw [called]
    exact against.mpr (by simp [function])

open Reassigned in
/-- A call of a function that was stored behind another one waits for the summary of the first one,
and is checked against that in the end. -/
theorem Flow.call_behind_literal_misled : (∃ state w, flow reducing = some state ∧
      w ∈ state.walks ∧ ∃ b : Binding w.context, b.literal = 1 ∧
        (∀ v, b.statements w.body (b.start w.entry) none v → v = .literal 1) ∧
        ∃ m ∈ w.state.calls, m.name = some b.name ∧ m.span = b.span ∧ ∀ f,
          (∃ declared, w.context.target f b.decl.function = .later 0 declared) ∧
            ¬w.context.ChecksAgainst 1 (w.context.target f b.decl.function)) ∧
    reports reducing = some [.invalidArgumentType] ∧ reports (.literal (.number 1)) = some [] := by
  refine ⟨?_,bodies_walked.2.2⟩
  obtain ⟨state,w,ran,walked,-,waits,b,fn,function,stored,m,met,named,placed,-⟩ := exists_walk bodies_walked.2.1
  simp only [waiting,Bool.and_eq_true,Option.isNone_iff_eq_none] at waits
  obtain ⟨unfollowed,waits⟩ := waits
  cases found : w.context.registry.function? 0 with
  | none => simp [found] at waits
  | some d =>
    have later (f : FunctionType) : w.context.target f (some 0) = .later 0 d.signature := by
      simp only [found,Option.any_some] at waits
      simp [WalkContext.target,unfollowed,found,waits]
    refine ⟨state,w,ran,walked,b,fn,fn ▸ stored,m,met,named,placed,fun f => ?_⟩
    rw [function,later]
    refine ⟨⟨_,rfl⟩,fun checked => ?_⟩
    cases checked

end GradualJs
