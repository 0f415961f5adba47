import GradualJs.Syntax.Traversal
import Mathlib.Tactic.Common

/-! The paths through a body to a call, as far as one variable is concerned: which function
literal was stored last on the way. Paths go where the walk of the body goes: an exception comes up
behind a statement or not at all, and a jump does not stop at a finalizer. -/
namespace GradualJs

variable {α : Type}

inductive Stored where
  | literal (id : Nat)
  | other
  deriving DecidableEq

/-- A call of a variable, by the name of the variable and the place of the call. -/
structure CallPoint where
  name : String
  span : Span

/-- Paths from what was stored before some code to what is stored behind it. A path may stop at
the call, and then it gives nothing. -/
def Paths (α : Type) : Type := Stored → Option α → Stored → Prop

namespace Paths

variable {α β : Type}

instance : Monad Paths where
  pure a := fun before res after => res = some a ∧ after = before
  bind p f := fun before res after => (res = none ∧ p before none after) ∨
    ∃ a mid, p before (some a) mid ∧ f a mid res after

def store (value : Stored) : Paths Unit := fun _ res after => res = some () ∧ after = value
def held : Paths Stored := fun before res after => res = some before ∧ after = before
def fork : Paths Bool := fun before res after => res ≠ none ∧ after = before

/-- The call: paths stop here, or go on behind it. -/
def arrive : Paths Unit := fun before _ after => after = before

def either (p q : Paths α) : Paths α := fun before res after =>
  p before res after ∨ q before res after

def nowhere : Paths α := fun _ _ _ => False

/-- From here the literal is stored whenever a path stops, and what the other paths end with has
the property. -/
def Sure (g : Nat) (p : Paths α) (post : α → Stored → Prop) (before : Stored) : Prop :=
  (∀ after, p before none after → after = .literal g) ∧ ∀ a after, p before (some a) after → post a after

section Sure

@[simp] lemma sure_pure (a : α) : (pure a : Paths α).Sure g post = post a := by
  funext before
  simp [Sure,pure]

@[simp] lemma sure_bind (p : Paths α) (f : α → Paths β) :
    (p >>= f).Sure g final = p.Sure g fun a => (f a).Sure g final := by
  funext before
  refine propext ⟨fun ⟨stops,ends⟩ => ?_,fun ⟨stops,ends⟩ => ?_⟩
  · refine ⟨fun after path => stops after (.inl ⟨rfl,path⟩),fun a mid first => ?_⟩
    exact ⟨fun after path => stops after (.inr ⟨a,mid,first,path⟩),
      fun b after path => ends b after (.inr ⟨a,mid,first,path⟩)⟩
  · constructor
    · rintro after (⟨-,path⟩ | ⟨a,mid,first,path⟩)
      · exact stops after path
      · exact (ends a mid first).1 after path
    · rintro b after (⟨eq,-⟩ | ⟨a,mid,first,path⟩)
      · cases eq
      · exact (ends a mid first).2 b after path

@[simp] lemma sure_store (value : Stored) {post : Unit → Stored → Prop} :
    (store value).Sure g post = fun _ => post () value := by
  funext before
  exact propext ⟨fun sure => sure.2 () value ⟨rfl,rfl⟩,fun held => ⟨nofun,fun _ _ path => path.2 ▸ held⟩⟩

@[simp] lemma sure_held {post : Stored → Stored → Prop} : held.Sure g post = fun before => post before before := by
  funext before
  simp [Sure,held]

@[simp] lemma sure_fork {post : Bool → Stored → Prop} :
    fork.Sure g post = fun before => post true before ∧ post false before := by
  funext before
  simp [Sure,fork,and_comm]

@[simp] lemma sure_arrive {post : Unit → Stored → Prop} :
    arrive.Sure g post = fun before => before = .literal g ∧ post () before := by
  funext before
  exact propext ⟨fun sure => ⟨sure.1 before rfl,sure.2 () before rfl⟩,
    fun held => ⟨fun _ path => path ▸ held.1,fun _ _ path => path ▸ held.2⟩⟩

@[simp] lemma sure_either (p q : Paths α) :
    (either p q).Sure g post = fun before => p.Sure g post before ∧ q.Sure g post before := by
  funext before
  simp only [Sure,either,or_imp,forall_and]
  exact propext (by tauto)

end Sure

end Paths

/-- How a statement is left. Behind a result, and where a finalizer ends what an exception
began, a path goes no further. -/
inductive PathEnd where
  | ends
  | breaks
  | continues
  | raises
  | stops
  deriving DecidableEq

inductive Turn where
  | again
  | out (exit : PathEnd)

def PathEnd.turn : PathEnd → Turn
  | .ends | .continues => .again
  | .breaks => .out .ends
  | .raises => .out .raises
  | .stops => .out .stops

namespace Paths

def next (first rest : Paths PathEnd) : Paths PathEnd := do
  match ← first with
  | .ends => rest
  | done => return done

def unbroken (p : Paths PathEnd) : Paths PathEnd := do
  match ← p with
  | .breaks => return .ends
  | done => return done

/-- A round goes on behind the body, unless the body leaves the loop. -/
def goOn (body : Paths PathEnd) (rest : Paths Turn) : Paths Turn := do
  match (← body).turn with
  | .again => rest
  | done => return done

inductive Rounds (round : Paths Turn) : Stored → Option PathEnd → Stored → Prop where
  | stop {before after} : round before none after → Rounds round before none after
  | out {before after exit} : round before (some (.out exit)) after → Rounds round before (some exit) after
  | again {before mid res after} : round before (some .again) mid →
      Rounds round mid res after → Rounds round before res after

def rounds (round : Paths Turn) : Paths PathEnd := Rounds round

lemma sure_rounds {round : Paths Turn} : (rounds round).Sure g post = round.Sure g fun
      | .again => (rounds round).Sure g post
      | .out exit => post exit := by
  funext before
  refine propext ⟨fun ⟨stops,ends⟩ => ⟨fun after path => stops after (.stop path),?_⟩, fun ⟨stops,ends⟩ => ⟨?_,?_⟩⟩
  · intro turn mid first
    cases turn with
    | again => exact ⟨fun after path => stops after (.again first path),
        fun exit after path => ends exit after (.again first path)⟩
    | out exit => exact ends exit mid (.out first)
  · rintro after (path | _ | ⟨first,path⟩)
    · exact stops after path
    · exact (ends .again _ first).1 after path
  · rintro exit after (_ | path | ⟨first,path⟩)
    · exact ends (.out exit) after path
    · exact (ends .again _ first).2 exit after path

/-- A block with a handler. An exception may come up before the first statement. -/
def handled (body : Paths PathEnd) (handler : Option (Paths PathEnd)) : Paths PathEnd := do
  match ← either (pure .raises) body with
  | .raises => handler.getD (pure .raises)
  | done => return done

/-- A finalizer follows the end of a block and its handler, and an exception in the block. -/
def finalized (body : Paths PathEnd) (handler finalizer : Option (Paths PathEnd)) : Paths PathEnd :=
  match finalizer with
  | none => handled body handler
  | some last => either (next (handled body handler) last) do
    match ← either (pure .raises) body with
    | .raises => next last (pure .stops)
    | _ => return .stops

section Sequences

variable {body : Paths PathEnd}

def before (g : Nat) (rest : Paths PathEnd) (post : PathEnd → Stored → Prop) : PathEnd → Stored → Prop
  | .ends => rest.Sure g post
  | done => post done

lemma sure_next (first rest : Paths PathEnd) : (next first rest).Sure g post = first.Sure g (before g rest post) := by
  rw [next,sure_bind]
  congr
  funext done
  cases done <;> simp [before]

def between (g : Nat) (rest : Paths Turn) (post : Turn → Stored → Prop) : Turn → Stored → Prop
  | .again => rest.Sure g post
  | done => post done

lemma sure_goOn (rest : Paths Turn) {post : Turn → Stored → Prop} :
    (goOn body rest).Sure g post = body.Sure g fun done => between g rest post done.turn := by
  rw [goOn,sure_bind]
  congr
  funext done
  cases done <;> simp [PathEnd.turn,between]

lemma sure_unbroken : (unbroken body).Sure g post = body.Sure g fun
    | .breaks => post .ends
    | done => post done := by
  rw [unbroken,sure_bind]
  congr
  funext done
  cases done <;> simp

lemma Sure.and {p : Paths α} (sure : p.Sure g first v) (too : p.Sure g second v) :
    p.Sure g (fun a w => first a w ∧ second a w) v :=
  ⟨sure.1,fun a w path => ⟨sure.2 a w path,too.2 a w path⟩⟩

lemma Sure.mono {p : Paths α}
    (sure : p.Sure g stronger v) (implies : ∀ a w, stronger a w → weaker a w) : p.Sure g weaker v :=
  ⟨sure.1,fun a w path => implies a w (sure.2 a w path)⟩

/-- Where a block and its handler have to lead if a finalizer follows. -/
def beforeFinalizer (g : Nat) (finalizer : Option (Paths PathEnd)) (post : PathEnd → Stored → Prop) :
    PathEnd → Stored → Prop :=
  match finalizer with
  | none => post
  | some last => before g last post

/-- From where the finalizer of a block that was left by an exception leads on. -/
def finalizes (g : Nat) (finalizer : Option (Paths PathEnd)) (post : PathEnd → Stored → Prop) (v : Stored) : Prop :=
  ∀ last ∈ finalizer, (next last (pure .stops)).Sure g post v

def catches (g : Nat) (handler finalizer : Option (Paths PathEnd)) (post : PathEnd → Stored → Prop)
    (v : Stored) : Prop :=
  (handler.getD (pure .raises)).Sure g (beforeFinalizer g finalizer post) v ∧ finalizes g finalizer post v

def inBlock (g : Nat) (handler finalizer : Option (Paths PathEnd)) (post : PathEnd → Stored → Prop) :
    PathEnd → Stored → Prop
  | .raises => catches g handler finalizer post
  | done => beforeFinalizer g finalizer post done

lemma sure_handled {handler : Option (Paths PathEnd)} (sure : (handled body handler).Sure g post v) :
    (handler.getD (pure .raises)).Sure g post v ∧ body.Sure g (fun
      | .raises => (handler.getD (pure .raises)).Sure g post
      | done => post done) v := by
  rw [handled,sure_bind,sure_either,sure_pure] at sure
  refine sure.imp_right fun inBody => inBody.mono fun done w held => ?_
  cases done <;> simpa using held

/-- A block that an exception may leave leads to its handler and its finalizer. -/
lemma Sure.block (sure : (finalized body handler finalizer).Sure g post v) :
    catches g handler finalizer post v ∧ body.Sure g (inBlock g handler finalizer post) v := by
  cases finalizer with
  | none =>
    obtain ⟨raised,inBody⟩ := sure_handled sure
    refine ⟨⟨raised,nofun⟩,inBody.mono fun done w held => ?_⟩
    cases done
    case raises => exact ⟨held,nofun⟩
    all_goals exact held
  | some last =>
    rw [finalized,sure_either,sure_next] at sure
    obtain ⟨raised,inBody⟩ := sure_handled sure.1
    obtain ⟨stopped,unfinished⟩ : (next last (pure .stops)).Sure g post v ∧ body.Sure g (fun
        | .raises => (next last (pure .stops)).Sure g post
        | _ => post .stops) v := by
      have rest := sure.2
      rw [sure_bind,sure_either,sure_pure] at rest
      refine rest.imp_right fun inBody => inBody.mono fun done w held => ?_
      cases done <;> simpa using held
    have only {w : Stored} (held : (next last (pure .stops)).Sure g post w) : finalizes g (some last) post w := by
      rintro _ ⟨⟩
      exact held
    refine ⟨⟨raised,only stopped⟩,(inBody.and unfinished).mono fun done w held => ?_⟩
    cases done
    case raises => exact ⟨held.1,only held.2⟩
    all_goals exact held.1

end Sequences

end Paths

/-- The paths through an expression in the roles that it can play. -/
structure Trails where
  value : Paths Unit
  condition : Paths Bool
  store : Stored → Paths Unit

namespace Trails

/-- A condition of which only the value is looked at. Storing to it does nothing. -/
def ofValue (value : Paths Unit) : Trails where
  value
  condition := do
    value
    .fork
  store _ := pure ()

@[simp] lemma ofValue_value (value : Paths Unit) : (ofValue value).value = value := rfl
@[simp] lemma ofValue_store (value : Paths Unit) (stored : Stored) : (ofValue value).store stored = pure () := rfl

/-- A condition of which both ways lead to the value. -/
def ofCondition (condition : Paths Bool) : Trails where
  value := do
    let _ ← condition
    return
  condition
  store _ := pure ()

end Trails

mutual
def Expression.stored : Expression → Stored
  | ⟨_,kind⟩ => kind.stored

def ExpressionKind.stored : ExpressionKind → Stored
  | .function literal => .literal literal.id
  | .assignment none _ value => value.stored
  | _ => .other
end

namespace CallPoint

variable (x : CallPoint)

def storing (name : String) (value : Stored) : Paths Unit :=
  if name = x.name then .store value else pure ()

def catching : Option Identifier → Paths Unit
  | none => pure ()
  | some id => x.storing id.name .other

/-- The tests of one expression with another. A value that passes an `instanceof` test counts as
another one. What fails it is what was tested, whatever was stored since then. -/
def comparing (op : BinaryOperator) (left : Expression) (leftValue rightValue : Paths Unit) : Trails :=
  let plain : Trails := .ofValue do
    leftValue
    rightValue
  {plain with
    condition :=
      if op = .instanceOf ∧ left.qualifiedName = some x.name then do
        leftValue
        let tested ← .held
        rightValue
        if ← .fork then
          .store .other
          return true
        else
          .either (.store tested) (pure ())
          return false
      else plain.condition}

mutual
def expression : Expression → Trails
  | ⟨span,kind⟩ => expressionKind span kind

def expressionKind (span : Span) : ExpressionKind → Trails
  | .literal _ | .this | .function _ => .ofValue (pure ())
  | .identifier id => {Trails.ofValue (pure ()) with store := x.storing id.name}
  | .member object _ _ =>
    let value := (expression object).value
    {Trails.ofValue value with store := fun _ => value}
  | .index object key =>
    let value : Paths Unit := do
      (expression object).value
      (expression key).value
    {Trails.ofValue value with store := fun _ => value}
  | .call callee args => .ofValue do
    if span = x.span ∧ callee.qualifiedName = some x.name then .arrive
    (expression callee).value
    expressions args
  | .new callee args => .ofValue do
    (expression callee).value
    expressions args
  | .object list => .ofValue (properties list)
  | .array elements => .ofValue (expressions elements)
  | .unary op operand =>
    let inner := expression operand
    if op = .not then {Trails.ofValue inner.value with
      condition := do
        return !(← inner.condition)}
    else .ofValue inner.value
  | .update _ _ tgt => .ofValue do
    (expression tgt).value
    (expression tgt).store .other
  | .binary op left right =>
    x.comparing op left (expression left).value (expression right).value
  | .logical op left right => .ofCondition do
    match op, ← (expression left).condition with
    | .and, true | .or, false => (expression right).condition
    | _, decided => return decided
  | .conditional test consequent alternative => .ofValue do
    if ← (expression test).condition then (expression consequent).value
    else (expression alternative).value
  | .assignment op tgt value => .ofValue do
    if op.isSome then (expression tgt).value
    (expression value).value
    (expression tgt).store (if op.isSome then .other else value.stored)
  | .cast _ operand => .ofValue (expression operand).value

def expressions : List Expression → Paths Unit
  | [] => pure ()
  | e :: rest => do
    (expression e).value
    expressions rest

def properties : List ObjectProperty → Paths Unit
  | [] => pure ()
  | ⟨_,value,_,_⟩ :: rest => do
    (expression value).value
    properties rest
end

def optionalExpression : Option Expression → Paths Unit
  | none => pure ()
  | some e => (x.expression e).value

def optionalCondition : Option Expression → Paths Bool
  | none => pure true
  | some e => (x.expression e).condition

def declarator (d : Declarator) : Paths Unit :=
  match d.initializer with
  | none => pure ()
  | some e => do
    (x.expression e).value
    x.storing d.name.name e.stored

def declarators : List Declarator → Paths Unit
  | [] => pure ()
  | d :: rest => do
    x.declarator d
    declarators rest

mutual
def statement : Statement → Paths PathEnd
  | .var _ list _ _ => do
    x.declarators list
    return .ends
  | .function _ _ | .classDecl _ | .empty _ => return .ends
  | .expression value _ => do
    (x.expression value).value
    return .ends
  | .returnStmt value _ => do
    x.optionalExpression value
    return .stops
  | .ifStmt condition consequent alternative _ => do
    if ← (x.expression condition).condition then statement consequent
    else optionalStatement alternative
  | .whileLoop condition body _ => .rounds do
    if ← (x.expression condition).condition then return (← statement body).turn
    else return .out .ends
  | .doWhile body condition _ => .rounds <| .goOn (statement body) do
    return if ← (x.expression condition).condition then .again else .out .ends
  | .forLoop start condition update body _ => .next (optionalStatement start) <| .rounds do
    if ← x.optionalCondition condition then .goOn (statement body) do
      x.optionalExpression update
      return .again
    else return .out .ends
  | .forIn key _ object body _ => do
    (x.expression object).value
    .rounds do
      if ← .fork then
        x.storing key.name .other
        return (← statement body).turn
      else return .out .ends
  | .block body => block body
  | .breakStmt _ => return .breaks
  | .continueStmt _ => return .continues
  | .throwStmt value _ => do
    (x.expression value).value
    return .raises
  | .tryStmt body caught last _ => .finalized (block body) (handler caught) (finalizer last)
  | .switch subject list _ => do
    (x.expression subject).value
    .unbroken (if list.all (·.test.isSome) then .either (return .ends) (entering list)
      else entering list)

def optionalStatement : Option Statement → Paths PathEnd
  | none => return .ends
  | some s => statement s

def block : Block → Paths PathEnd
  | ⟨list,_⟩ => statements list

def handler : Option CatchClause → Option (Paths PathEnd)
  | none => none
  | some ⟨parameter,body⟩ => some do
    x.catching parameter
    block body

def finalizer : Option Block → Option (Paths PathEnd)
  | none => none
  | some body => some (block body)

def entering : List SwitchCase → Paths PathEnd
  | [] => .nowhere
  | ⟨test,body⟩ :: rest => .either (do
      x.optionalExpression test
      .next (statements body) (falling rest))
    (entering rest)

def falling : List SwitchCase → Paths PathEnd
  | [] => return .ends
  | ⟨_,body⟩ :: rest => .next (statements body) (falling rest)

/-- Statements in order. An exception may come up behind each of them. -/
def statements : List Statement → Paths PathEnd
  | [] => return .ends
  | s :: rest => .next (statement s) (.either (return .raises) (statements rest))
end

end CallPoint
end GradualJs
