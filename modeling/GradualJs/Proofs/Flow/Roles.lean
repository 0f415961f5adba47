import GradualJs.Proofs.Flow.Paths
import GradualJs.Proofs.Flow.Quiet

/-! Expressions follow the paths through them. An expression gives a local a value, stores to a
property, refines the paths that a condition is about, and joins two environments. So the
expressions are gone through once for anything that these keep. -/
namespace GradualJs

open Roles Paths CallPoint Option

mutual
def Expression.subjects : Expression → List String
  | ⟨_,kind⟩ => kind.subjects

def ExpressionKind.subjects : ExpressionKind → List String
  | .identifier id => [id.name]
  | .this => ["this"]
  | .unary .not operand | .unary .typeof operand => operand.subjects
  | .binary .equal left right | .binary .notEqual left right
  | .binary .strictEqual left right | .binary .strictNotEqual left right =>
    left.subjects ++ right.subjects
  | .binary .instanceOf left _ => left.subjects
  | .logical _ left right => left.subjects ++ right.subjects
  | _ => []
end

namespace Node

/-- The conditions of a statement, and the operands of an expression that are conditions. -/
def conditions : Node → List Expression
  | .statement (.ifStmt condition _ _ _) | .statement (.whileLoop condition _ _)
  | .statement (.doWhile _ condition _) | .statement (.forLoop _ (some condition) _ _ _) => [condition]
  | .expression ⟨_,.logical _ left right⟩ => [left,right]
  | .expression ⟨_,.conditional test _ _⟩ => [test]
  | _ => []

/-- The names that the conditions among the nodes are about. -/
def subjects (nodes : List Node) : List String := (nodes.flatMap conditions).flatMap Expression.subjects

end Node

lemma Name.property_ne {name : String} (undotted : Name.isDotted name = false)
    (path prop : String) : Name.property path prop ≠ name := by
  rintro rfl
  simp [Name.isDotted,Name.property] at undotted

namespace Walk

/-- What a test may leave of a type. -/
inductive Narrows (c : WalkContext) (t : Ty) : Ty → Prop where
  | keep : Narrows c t t
  | truthy : Narrows c t t.truthy
  | falsy : Narrows c t (c.lattice.falsy t)
  | typeof {tag : TypeTag} {positive : Bool} {left : Ty} :
    c.lattice.narrowTypeof tag positive t = some left → Narrows c t left
  | specialize {set : PrimitiveSet} {left : Ty} : c.lattice.specialize t (.primitive set) = some left → Narrows c t left
  | exclude {removed left : Ty} : c.lattice.exclude t removed = some left → Narrows c t left

/-- Walks that keep something, whatever reports and checks they make. -/
structure Walking (c : WalkContext) where
  Walks : {α : Type} → Walk α → (α → Prop) → Prop
  walks_pure : ∀ {α : Type} {a : α} {post : α → Prop}, post a → Walks (pure a) post
  walks_bind : ∀ {α β : Type} {x : Walk α} {f : α → Walk β} {post : α → Prop} {final : β → Prop},
    Walks x post → (∀ a, post a → Walks (f a) final) → Walks (x >>= f) final
  walks_mono : ∀ {α : Type} {x : Walk α} {post weaker : α → Prop}, Walks x post →
    (∀ a, post a → weaker a) → Walks x weaker
  walks_moving : ∀ {α : Type} {x : Walk α}, (∀ R [Deferring c R], Moves R x) → Walks x fun _ => True
  walks_ask : ∀ {α : Type} (ans : Option α), Walks (ask ans) fun a => ans = some a
  walks_quietly : ∀ {α : Type} {x : Walk α} {post : α → Prop}, Walks x post → Walks (quietly x) post

def Walking.between {c : WalkContext} (R : WalkState → WalkState → Prop) [Deferring c R] : Walking c where
  Walks := Yields R
  walks_pure := .pure
  walks_bind := .bind
  walks_mono walks := walks.mono
  walks_moving moves := have := moves R; .of_moves _
  walks_ask := .ask
  walks_quietly := .quietly

/-- What environments say of the values that paths have stored in a variable, and walks that keep
it. -/
structure Simulator (c : WalkContext) extends CallPoint, Walking c where
  literal : Nat
  /-- The environment describes one of the values. -/
  Tracks : (Stored → Prop) → Env → Prop
  /-- The type belongs to the value. -/
  Typed : Stored → Ty → Prop
  /-- What is known of a type that is read under a path. -/
  Knows : String → Ty → Env → Prop
  /-- What is known of what is called by a name. -/
  Calls : Option String → Callee → Env → Prop
  /-- What is known of the type of a value that is tested. -/
  Leaves : Stored → Ty → Prop
  harmless : String → Prop
  undotted : Name.isDotted name = false
  notThis : name ≠ "this"
  walks_meet : ∀ {m : MetCall}, Calls m.name m.callee m.env →
    (m.name = some name → m.span = span → m.isNew = false → Tracks (· = .literal literal) m.env) →
    Walks (meet m) fun _ => True
  visiting : ∀ {α : Type} {left : α → List Env} {walk : Env → Walk α} {env : Env} {post : α → Prop}
    {values : Stored → Prop}, Tracks values env → Walks (walk env) post →
    (∀ a, post a → ∀ e ∈ left a, ∃ values, Tracks values e) → Walks (Walk.visiting left walk env) post
  mono : ∀ {values weaker env}, (∀ v, values v → weaker v) → Tracks values env → Tracks weaker env
  typed_other : ∀ type, Typed .other type
  typed_function : ∀ id, Typed (.literal id) (c.functionValue id)
  this : ∀ type env, Knows "this" type env
  dotted : ∀ path prop, harmless (Name.property path prop) ∧ ∀ type env, Knows (Name.property path prop) type env
  calls_other : ∀ {label callee env}, label ≠ some name → Calls label callee env
  calls_name : ∀ {id type env}, Knows id type env → Calls (some id) ⟨type,none,c.functionNamed id⟩ env
  join : ∀ {values a b}, Tracks values a → Tracks values b → Walks (Walk.join c a b) (Tracks values)
  readName : ∀ {values env id}, Tracks values env → Walks (Walk.readName c id env) fun type => Knows id.name type env
  assignName : ∀ {values env id v type span},
    Tracks ((toCallPoint.storing id.name v).Sure literal fun _ => values) env → Typed v type →
    Walks (Walk.assignName c id type span env) (Tracks values)
  writeProperty : ∀ {values env object path prop type span}, Tracks values env → (∀ p ∈ path, Knows p object env) →
    Walks (Walk.writeProperty c object path prop type span env) (Tracks values)
  narrow : ∀ {values env path type left}, harmless path → Knows path type env → Narrows c type left →
    Tracks values env → Tracks values (env.refine path left)
  elsewhere : ∀ {values env path type}, path ≠ name → harmless path → Tracks values env →
    Tracks values (env.refine path type)
  passed : ∀ {values env}, Tracks (fun _ => values .other) env → Tracks values env
  pinned : ∀ {values env type}, Tracks values env → Knows name type env →
    ∃ tested, Tracks (fun v => v = tested ∧ values v) env ∧ Leaves tested type
  tested : ∀ {ifTrue ifFalse : Stored → Prop} {env tested type removed left right}, harmless name →
    Tracks (fun v => ifTrue .other ∧ ifFalse tested ∧ ifFalse v) env → Leaves tested type →
    c.lattice.exclude type removed = some right →
    Tracks ifTrue (env.refine name left) ∧ Tracks ifFalse (env.refine name right)

variable {c : WalkContext} {path : Option String} {env : Env} {span : Span} {op : BinaryOperator}
  {values : Stored → Prop}

namespace Walking

variable {w : Walking c} {α β : Type}

lemma Walks.pure (held : post a) : w.Walks (Pure.pure a) post := w.walks_pure held

lemma Walks.bind (first : w.Walks x post)
    (next : ∀ a, post a → w.Walks (f a) final) : w.Walks (x >>= f) final := w.walks_bind first next

lemma Walks.mono (walks : w.Walks x post) (implies : ∀ a, post a → weaker a) : w.Walks x weaker :=
  w.walks_mono walks implies

instance (R : {R // Deferring c R}) : Deferring c R.1 := R.2

/-- Reading, checking and calling comes before what matters. -/
lemma Walks.moving_then [moves : ∀ R : {R // Deferring c R}, Moves R.1 x]
    (next : ∀ a, w.Walks (f a) final) : w.Walks (x >>= f) final :=
  (w.walks_moving fun R deferring => moves ⟨R,deferring⟩).bind fun a _ => next a

lemma Walks.guarded [Decidable p] [∀ R : {R // Deferring c R}, Moves R.1 x] (walks : w.Walks y final) :
    w.Walks (if p then x >>= fun _ => y else y) final := by
  split
  · exact .moving_then fun _ => walks
  · exact walks

/-- Reading is done before it is reported that nothing is known. -/
lemma Walks.reporting {value : Env → Walk (Ty × Env)} {post : Ty × Env → Prop}
    (walks : w.Walks (value env) post) : w.Walks (reporting c label span value env) post :=
  walks.bind fun _ kept => .moving_then fun _ => .pure kept

end Walking

namespace Simulator

variable {w : Simulator c}

lemma Tracks.mono (tracks : w.Tracks values env)
    (implies : ∀ v, values v → weaker v) : w.Tracks weaker env := w.mono implies tracks

def Free (w : Simulator c) (names : List String) : Prop := ∀ name ∈ names, w.harmless name

@[simp] lemma free_append (left right : List String) :
    w.Free (left ++ right) ↔ w.Free left ∧ w.Free right := List.forall_mem_append

lemma free_nodes (left right : List Node) : w.Free (Node.subjects (left ++ right)) ↔
    w.Free (Node.subjects left) ∧ w.Free (Node.subjects right) := by
  simp [Node.subjects]

lemma free_cons (node : Node) (rest : List Node) : w.Free (Node.subjects (node :: rest)) ↔
    w.Free (node.conditions.flatMap Expression.subjects) ∧ w.Free (Node.subjects rest) := by
  simp [Node.subjects]

/-- Both branches describe what some path has stored on the way there. -/
def Splits (w : Simulator c) (values : Bool → Stored → Prop) (b : Branches) : Prop :=
  w.Tracks (values true) b.whenTrue ∧ w.Tracks (values false) b.whenFalse

namespace Splits

variable {b : Branches}

lemma either {values : Bool → Stored → Prop}
    (held : w.Splits (fun _ v => values true v ∧ values false v) b) : w.Splits values b :=
  ⟨held.1.mono fun _ => And.left,held.2.mono fun _ => And.right⟩

lemma unsplit (tracks : w.Tracks values env) (type : Ty) :
    w.Splits (fun _ => values) (.unsplit type env) := ⟨tracks,tracks⟩

lemma oriented (held : w.Splits (fun _ => values) b) (positive : Bool) :
    w.Splits (fun _ => values) (b.oriented positive) := by
  unfold Branches.oriented
  split
  · exact held
  · exact ⟨held.2,held.1⟩

lemma narrow (tracks : w.Tracks values env) (harmless : ∀ p ∈ path, w.harmless p)
    (known : ∀ p ∈ path, w.Knows p type env) (first : Narrows c type ifTrue)
    (second : Narrows c type ifFalse) (res : Ty) :
    w.Splits (fun _ => values) ((Branches.unsplit res env).refine path ifTrue ifFalse) := by
  cases path with
  | none => exact ⟨tracks,tracks⟩
  | some path =>
    exact ⟨w.narrow (harmless path rfl) (known path rfl) first tracks,
      w.narrow (harmless path rfl) (known path rfl) second tracks⟩

lemma elsewhere {values : Bool → Stored → Prop} (held : w.Splits values (.unsplit .boolean env))
    (other : path ≠ some w.name) (harmless : ∀ p ∈ path, w.harmless p) :
    w.Splits values ((Branches.unsplit .boolean env).refine path ifTrue ifFalse) := by
  cases path with
  | none => exact held
  | some path =>
    have other : path ≠ w.name := fun eq => other (congrArg some eq)
    exact ⟨w.elsewhere other (harmless path rfl) held.1,w.elsewhere other (harmless path rfl) held.2⟩

end Splits

lemma property_ne (path : Option String) (prop : String) : path.map (Name.property · prop) ≠ some w.name := by
  intro eq
  obtain ⟨path,-,eq⟩ := map_eq_some_iff.mp eq
  exact Name.property_ne w.undotted path prop eq

/-- What is known under the path of a property is of no concern. -/
lemma of_property (path : Option String) (prop : String) :
    ∀ p ∈ path.map (Name.property · prop), w.harmless p ∧ ∀ type env, w.Knows p type env := by
  intro p isPath
  obtain ⟨path,-,rfl⟩ := map_eq_some_iff.mp isPath
  exact w.dotted path prop

end Simulator

/-- In every role the expression follows its paths. `name` is what the expression is called by, and
`v` what its value leaves in a variable. A condition does so if it is free to refine what it is
about. -/
structure Simulates (w : Simulator c) (free : Prop) (e : Roles) (name : Option String) (p : Trails)
    (v : Stored) : Prop where
  still : e.path.isSome = true → p.value = pure ()
  named : e.path = some w.name → name = some w.name
  path : free → ∀ path ∈ e.path, w.harmless path
  value {values : Stored → Prop} {env : Env} (tracks : w.Tracks (p.value.Sure w.literal fun _ => values) env) :
    w.Walks (e.value env) fun r => w.Tracks values r.2 ∧ w.Typed v r.1 ∧ ∀ path ∈ e.path, w.Knows path r.1 r.2
  condition (granted : free) {values : Bool → Stored → Prop} {env : Env}
    (tracks : w.Tracks (p.condition.Sure w.literal values) env) :
    w.Walks (e.condition env) (w.Splits values)
  store {values : Stored → Prop} {env : Env} {stored : Stored} {type : Ty} {span : Span}
    (tracks : w.Tracks ((p.store stored).Sure w.literal fun _ => values) env)
    (typed : w.Typed stored type) : w.Walks (e.store type span env) (w.Tracks values)
  callee {values : Stored → Prop} {env : Env} (tracks : w.Tracks (p.value.Sure w.literal fun _ => values) env) :
    w.Walks (e.callee env) fun r => w.Tracks values r.2 ∧ w.Calls name r.1 env
  typeofTest (granted : free) {test : TypeTag → Bool → Env → Walk Branches}
    (found : e.typeofTest = some test) (tag : TypeTag) (positive : Bool) {values : Stored → Prop}
    {env : Env} (tracks : w.Tracks (p.value.Sure w.literal fun _ => values) env) :
    w.Walks (test tag positive env) (w.Splits fun _ => values)

variable {w : Simulator c}

namespace Simulates

section Values

variable {value : Env → Walk (Ty × Env)} {path name : Option String} {p : Paths Unit}

/-- The value is found on the paths, and what is known of it is known under its path. -/
def Evaluates (w : Simulator c) (path : Option String) (value : Env → Walk (Ty × Env)) (p : Paths Unit)
    (v : Stored) : Prop :=
  ∀ ⦃values : Stored → Prop⦄ ⦃env : Env⦄, w.Tracks (p.Sure w.literal fun _ => values) env →
    w.Walks (value env) fun r => w.Tracks values r.2 ∧ w.Typed v r.1 ∧ ∀ p ∈ path, w.Knows p r.1 r.2

lemma plainCondition (evaluates : Evaluates w path value p v) (harmless : ∀ p ∈ path, w.harmless p)
    {values : Bool → Stored → Prop}
    (tracks : w.Tracks ((Trails.ofValue p).condition.Sure w.literal values) env) :
    w.Walks (plainCondition c path value env) (w.Splits values) := by
  have both : w.Tracks (p.Sure w.literal fun _ v => values true v ∧ values false v) env := by
    simpa only [Trails.ofValue,sure_bind,sure_fork] using tracks
  exact (evaluates both).bind fun _ held =>
    .pure (Simulator.Splits.narrow held.1 harmless held.2.2 .truthy .falsy _).either

lemma ofValue (evaluates : Evaluates w path value p v) (still : path.isSome = true → p = pure ())
    (named : path = some w.name → name = some w.name) (unnamed : name ≠ some w.name)
    (harmless : free → ∀ p ∈ path, w.harmless p) :
    Simulates w free (.ofValue c path value) name (.ofValue p) v where
  still := still
  named := named
  path := harmless
  value tracks := evaluates tracks
  condition granted := plainCondition evaluates (harmless granted)
  store tracks _ := .pure (by simpa only [Trails.ofValue,sure_pure] using tracks)
  callee tracks := (evaluates tracks).bind fun _ held => .pure ⟨held.1,w.calls_other unnamed⟩
  typeofTest _ _ found := nomatch found

/-- A value that is no variable's is called by no name. -/
lemma ofPathless (evaluates : ∀ ⦃values : Stored → Prop⦄ ⦃env : Env⦄,
    w.Tracks (p.Sure w.literal fun _ => values) env → w.Walks (value env) fun r => w.Tracks values r.2) :
    Simulates w free (.ofValue c none value) none (.ofValue p) .other :=
  ofValue (fun _ _ tracks => (evaluates tracks).mono fun _ held => ⟨held,w.typed_other _,by simp⟩)
    (by simp) (by simp) (by simp) (by simp)

end Values

lemma visiting {e : Roles} {name : Option String}
    (simulates : Simulates w free e name p v) : Simulates w free e.visiting name p v where
  still := simulates.still
  named := simulates.named
  path := simulates.path
  value tracks := w.visiting tracks (simulates.value tracks) fun r held => by
    simpa using ⟨_,held.1⟩
  condition granted _ _ tracks := w.visiting tracks (simulates.condition granted tracks) fun b held => by
    simpa using! ⟨⟨_,held.1⟩,⟨_,held.2⟩⟩
  store tracks typed := w.visiting tracks (simulates.store tracks typed) fun _ held => by
    simpa using ⟨_,held⟩
  callee tracks := w.visiting tracks (simulates.callee tracks) fun _ held => by simpa using ⟨_,held.1⟩
  typeofTest granted _ found tag positive _ _ tracks := by
    obtain ⟨test,isTest,rfl⟩ := map_eq_some_iff.mp found
    exact w.visiting tracks (simulates.typeofTest granted isTest tag positive tracks) fun b held => by
      simpa using! ⟨⟨_,held.1⟩,⟨_,held.2⟩⟩

lemma constant : Simulates w free (.constant c type) none (.ofValue (pure ())) .other :=
  ofPathless fun _ _ tracks => .pure (by simpa using tracks)

lemma ofThis (harmless : free → w.harmless "this") :
    Simulates w free (.ofThis c) (some "this") (.ofValue (pure ())) .other := by
  have other : some "this" ≠ some w.name := fun eq => w.notThis (some.inj eq).symm
  refine ofValue (fun _ _ tracks => .pure ⟨by simpa using tracks,w.typed_other _,?_⟩)
    (fun _ => rfl) id other fun granted => ?_
  · simpa using w.this _ _
  · simpa using harmless granted

lemma ofFunction (literal : FunctionLiteral) :
    Simulates w free (.ofFunction c literal) none (.ofValue (pure ())) (.literal literal.id) :=
  ofValue (fun _ _ tracks => .guarded (.pure ⟨by simpa using tracks,w.typed_function literal.id,by simp⟩))
    (by simp) (by simp) (by simp) (by simp)

lemma path_ofName {id : Identifier} {name : String}
    (eq : (Roles.ofName c span id).path = some name) : id.name = name := by
  simp only [Roles.ofName,Roles.ofValue] at eq
  grind

lemma reads_name (tracks : w.Tracks values env) (id : Identifier) :
    w.Walks ((Roles.ofName c span id).value env) fun r => r.2 = env ∧ w.Knows id.name r.1 r.2 := by
  dsimp only [Roles.ofName,Roles.ofValue]
  exact .reporting ((w.readName tracks).bind fun _ known => .pure ⟨rfl,known⟩)

lemma ofName (id : Identifier) (harmless : free → w.harmless id.name) :
    Simulates w free (.ofName c span id) (some id.name)
      {Trails.ofValue (pure ()) with store := w.storing id.name} .other := by
  have evaluates : Evaluates w (Roles.ofName c span id).path (Roles.ofName c span id).value (pure ())
      .other := fun _ _ tracks => (reads_name tracks id).mono fun r held =>
    ⟨held.1 ▸ by simpa using tracks,w.typed_other _,fun _ eq => path_ofName eq ▸ held.2⟩
  have free (granted : free) : ∀ p ∈ (Roles.ofName c span id).path, w.harmless p :=
    fun _ eq => path_ofName eq ▸ harmless granted
  exact {
    still := fun _ => rfl
    named := fun eq => congrArg some (path_ofName eq)
    path := free
    value := fun tracks => evaluates tracks
    condition := fun granted => plainCondition evaluates (free granted)
    store := w.assignName
    callee := fun tracks => (reads_name tracks id).bind fun r held =>
      .pure ⟨held.1 ▸ by simpa using tracks,held.1 ▸ w.calls_name held.2⟩
    typeofTest := fun _ _ found => by cases found}

section Parts

variable {object callee left right : Roles} {p q t : Trails} {name : Option String}

lemma ofMember (inObject : Simulates w free' object name p v) :
    Simulates w free (.ofMember c span label object prop propertySpan)
      (name.map (Name.property · prop)) {Trails.ofValue p.value with store := fun _ => p.value}
      .other := by
  have known := w.of_property object.path prop
  have evaluates : Evaluates w (object.path.map (Name.property · prop))
      (Roles.ofMember c span label object prop propertySpan).value p.value .other := by
    intro values env tracks
    dsimp only [Roles.ofMember,Roles.ofValue]
    exact .reporting ((inObject.value tracks).bind fun _ held => .moving_then fun _ =>
      .pure ⟨held.1,w.typed_other _,fun p isPath => (known p isPath).2 _ _⟩)
  have plain : Simulates w free (.ofValue c _ _) (name.map (Name.property · prop)) (.ofValue p.value) .other :=
    ofValue evaluates (by simpa using inObject.still) (fun eq => absurd eq (w.property_ne _ _))
      (w.property_ne _ _) fun _ p isPath => (known p isPath).1
  exact {plain with
    store := fun tracks _ => (inObject.value tracks).bind fun _ held => w.writeProperty held.1 held.2.2
    callee := fun tracks => (inObject.value tracks).bind fun _ held => .moving_then fun _ =>
      .pure ⟨held.1,w.calls_other (w.property_ne _ _)⟩}

lemma ofIndex (inObject : Simulates w free' object name p v)
    (inKey : Simulates w free'' key other q v') : let value : Paths Unit := do
      p.value
      q.value
    Simulates w free (.ofIndex c span object key) none {Trails.ofValue value with store := fun _ => value} .other := by
  intro value
  have evaluates (span : Span) {values : Stored → Prop} {env : Env}
      (tracks : w.Tracks (value.Sure w.literal fun _ => values) env) :
      w.Walks ((Roles.ofIndex c span object key).value env) fun r => w.Tracks values r.2 := by
    simp only [value,sure_bind] at tracks
    exact (inObject.value tracks).bind fun _ first => (inKey.value first.1).bind fun _ second =>
      .moving_then fun _ => .pure second.1
  have plain : Simulates w free (.ofValue c none _) none (.ofValue value) .other :=
    ofPathless fun _ _ tracks => evaluates span tracks
  exact {plain with
    store := fun tracks _ => (evaluates _ tracks).bind fun _ held => .moving_then fun _ => .pure held}

lemma ofUpdate (inTarget : Simulates w free' operand name p v) :
    Simulates w free (.ofUpdate c span operand targetSpan) none (.ofValue do
      p.value
      p.store .other) .other := by
  refine ofPathless fun _ _ tracks => ?_
  simp only [sure_bind] at tracks
  exact (inTarget.value tracks).bind fun _ first => .moving_then fun _ =>
    (inTarget.store first.1 (w.typed_other _)).bind fun _ second => .pure second

lemma ofCast (inOperand : Simulates w free' operand name p v) :
    Simulates w free (.ofCast c span e operand) none (.ofValue p.value) .other :=
  ofPathless fun _ _ tracks => (inOperand.value tracks).bind fun _ held => .moving_then fun _ =>
    .moving_then fun _ => .guarded (.pure held.1)

lemma binaryValue (inLeft : Simulates w free' left name p v) (inRight : Simulates w free'' right other q v')
    (tracks : w.Tracks (Sure w.literal (do p.value; q.value) fun _ => values) env) :
    w.Walks (binaryValue c op left right leftSpan rightSpan env) fun r => w.Tracks values r.2 := by
  simp only [sure_bind] at tracks
  exact (inLeft.value tracks).bind fun _ first => (inRight.value first.1).bind fun _ second =>
    .moving_then fun _ => .pure second.1

lemma ofAssignment (targetSpan valueSpan : Span) (op : Option BinaryOperator)
    (inTarget : Simulates w free' left name p v) (inValue : Simulates w free'' right other q v') :
    Simulates w free (.ofAssignment c span op left right targetSpan valueSpan) none (.ofValue do
      if op.isSome then p.value
      q.value
      p.store (if op.isSome then .other else v')) (if op.isSome then .other else v') := by
  refine ofValue (fun values env tracks => ?_) (by simp) (by simp) (by simp) (by simp)
  cases op with
  | some op =>
    simp only [isSome_some,if_true,sure_bind] at tracks ⊢
    refine (binaryValue inTarget inValue (by simpa only [sure_bind] using tracks)).bind fun r first => ?_
    exact (inTarget.store first (w.typed_other _)).bind fun _ second =>
      .pure ⟨second,w.typed_other _,by simp⟩
  | none =>
    simp only [isSome_none,Bool.false_eq_true,if_false,sure_bind] at tracks ⊢
    exact (inValue.value tracks).bind fun r first => (inTarget.store first.1 first.2.1).bind fun _ second =>
      .pure ⟨second,first.2.1,by simp⟩

/-- Both operands are looked at, the second in one branch of the first. -/
lemma logicalCondition {op : LogicalOperator} (inLeft : Simulates w free' left name p v)
    (inRight : Simulates w free'' right other q v') (freeLeft : free') (freeRight : free'')
    {values : Bool → Stored → Prop} (tracks : w.Tracks (Sure w.literal (do
      match op,← p.condition with
      | .and,true | .or,false => q.condition
      | _,decided => return decided) values) env) :
    w.Walks (logicalCondition c op left right env) (w.Splits values) := by
  cases op with
  | and =>
    simp only [sure_bind] at tracks
    refine (inLeft.condition freeLeft tracks).bind fun first held => ?_
    refine (inRight.condition freeRight held.1).bind fun second later => .moving_then fun _ => ?_
    exact (w.join (by simpa using held.2) later.2).bind fun _ joined => .pure ⟨later.1,joined⟩
  | or =>
    simp only [sure_bind] at tracks
    refine (inLeft.condition freeLeft tracks).bind fun first held => ?_
    refine (inRight.condition freeRight held.2).bind fun second later => .moving_then fun _ => ?_
    exact (w.join (by simpa using held.1) later.1).bind fun _ joined => .pure ⟨joined,later.2⟩

lemma ofLogical {op : LogicalOperator} (inLeft : Simulates w free' left name p v)
    (inRight : Simulates w free'' right other q v') (freeLeft : free') (freeRight : free'') :
    Simulates w free (.ofLogical c op left right) none (.ofCondition do
      match op,← p.condition with
      | .and,true | .or,false => q.condition
      | _,decided => return decided) .other := by
  have plain : Simulates w free (.ofValue c none fun env => do
      let branches ← Roles.logicalCondition c op left right env
      return (branches.type,← join c branches.whenTrue branches.whenFalse)) none
      (.ofValue do
        let _ ← (do
          match op,← p.condition with
          | .and,true | .or,false => q.condition
          | _,decided => return decided : Paths Bool)
        return) .other := by
    refine ofPathless fun values env tracks => ?_
    rw [sure_bind] at tracks
    simp only [sure_pure] at tracks
    exact (logicalCondition inLeft inRight freeLeft freeRight tracks).bind fun _ held =>
      (w.join held.1 held.2).bind fun _ joined => .pure joined
  exact {plain with condition := fun _ => logicalCondition inLeft inRight freeLeft freeRight}

lemma ofConditional (inTest : Simulates w freeTest test label t u)
    (inThen : Simulates w free' consequent name p v) (inElse : Simulates w free'' alternative other q v')
    (granted : freeTest) :
    Simulates w free (.ofConditional c test consequent alternative) none (.ofValue do
      if ← t.condition then p.value else q.value) .other := by
  refine ofPathless fun values env tracks => ?_
  simp only [sure_bind] at tracks
  refine (inTest.condition granted tracks).bind fun branches held => ?_
  refine (inThen.value (by simpa using held.1)).bind fun _ first => ?_
  refine (inElse.value (by simpa using held.2)).bind fun _ second => ?_
  exact (w.join first.1 second.1).bind fun _ joined => .moving_then fun _ => .pure joined

lemma walks_narrowing {values : Bool → Stored → Prop}
    (bare : path = none → w.Splits values (.unsplit .boolean env))
    (narrows : ∀ t f, ifTrue = some t → ifFalse = some f →
      w.Splits values ((Branches.unsplit .boolean env).refine path t f)) :
    w.Walks (narrowing path ifTrue ifFalse env) (w.Splits values) := by
  cases path with
  | none => exact .pure (bare rfl)
  | some path =>
    exact (w.walks_ask _).bind fun t isTrue => (w.walks_ask _).bind fun f isFalse => .pure (narrows t f isTrue isFalse)

lemma typeofCondition (inOperand : Simulates w free' operand name p v) (granted : free')
    (tag : TypeTag) (positive : Bool) (tracks : w.Tracks (p.value.Sure w.literal fun _ => values) env) :
    w.Walks (typeofCondition c operand tag positive env) (w.Splits fun _ => values) := by
  refine (inOperand.value tracks).bind fun r held => ?_
  refine (walks_narrowing (fun _ => .unsplit held.1 _) fun t f isTrue isFalse => ?_).bind fun _ split =>
    .pure (split.oriented positive)
  exact .narrow held.1 (inOperand.path granted) held.2.2 (.typeof isTrue) (.typeof isFalse) _

lemma ofUnary {op : UnaryOperator} (inOperand : Simulates w free' operand name p v)
    (isTested : op = .not ∨ op = .typeof → free → free') :
    Simulates w free (.ofUnary c op operand operandSpan) none (if op = .not then {Trails.ofValue p.value with
        condition := do return !(← p.condition)} else .ofValue p.value) .other := by
  have evaluates {values : Stored → Prop} {env : Env} (tracks : w.Tracks (p.value.Sure w.literal fun _ => values) env) :
      w.Walks ((Roles.ofUnary c op operand operandSpan).value env) fun r =>
        w.Tracks values r.2 := by
    cases op <;> exact (inOperand.value tracks).bind fun _ held => .guarded (.pure held.1)
  have plain : Simulates w free (.ofValue c none _) none (.ofValue p.value) .other :=
    ofPathless fun _ _ tracks => evaluates tracks
  cases op with
  | not =>
    exact {plain with
      condition := fun granted {values env} tracks => by
        have inner : w.Tracks (p.condition.Sure w.literal fun way => values !way) env := by
          simpa using tracks
        exact (inOperand.condition (isTested (.inl rfl) granted) inner).bind fun _ held =>
          .pure ⟨held.2,held.1⟩}
  | typeof =>
    exact {plain with
      typeofTest := fun granted _ found tag positive _ _ tracks => by
        cases found
        exact typeofCondition inOperand (isTested (.inr rfl) granted) tag positive tracks}
  | _ => exact plain

/-- What a value is compared with is primitive, and looking at it changes nothing. -/
lemma compared {e : Expression} {tested : Ty} (found : comparedValue strict e.kind = some (tested,excludable)) :
    tested = .primitive tested.primitives ∧ (w.expression e).value = pure () ∧
      ∀ {values env}, w.Tracks values env → w.Walks ((e.roles c).value env) fun r =>
        r.2 = env ∧ ∀ p ∈ (e.roles c).path, w.Knows p r.1 r.2 := by
  obtain ⟨span,kind⟩ := e
  cases kind with
  | literal value =>
    refine ⟨?_,rfl,fun tracks => w.visiting tracks (.pure ⟨rfl,by simp [Expression.roles,
      ExpressionKind.roles,Roles.visiting,Roles.constant,Roles.ofValue]⟩) fun r held => ?_⟩
    · cases value <;> cases strict <;> cases found <;> rfl
    · simpa [held.1] using ⟨_,tracks⟩
  | identifier id =>
    have named {p : String} (isPath : (Roles.ofName c span id).path = some p) := path_ofName isPath
    refine ⟨?_,rfl,fun tracks => w.visiting tracks ((reads_name tracks id).mono fun r held =>
      ⟨held.1,fun p isPath => named isPath ▸ held.2⟩) fun r held => ?_⟩
    · by_cases isUndefined : id.name = "undefined"
      · simp only [comparedValue,isUndefined,if_true] at found
        cases strict <;> cases found <;> rfl
      · simp [comparedValue,isUndefined] at found
    · simpa [held.1] using ⟨_,tracks⟩
  | _ => cases found

lemma walks_narrowed {path : String} {tested : Ty} {excludable : Bool} (tracks : w.Tracks values env)
    (harmless : w.harmless path) (isPrimitive : tested = .primitive tested.primitives)
    (known : w.Knows path type env) : w.Walks (do
      let matching ← ask (c.lattice.specialize type tested)
      let rest ← if excludable then ask (c.lattice.exclude type tested) else pure type
      return ((Branches.unsplit .boolean env).refine (some path) matching rest).oriented positive)
      (w.Splits fun _ => values) := by
  refine (w.walks_ask _).bind fun matching isMatching => ?_
  rw [isPrimitive] at isMatching
  have splits {rest : Ty} (isRest : Narrows c type rest) : w.Splits (fun _ => values)
      (((Branches.unsplit .boolean env).refine (some path) matching rest).oriented positive) :=
    Simulator.Splits.oriented
      (.narrow tracks (by simpa using harmless) (by simpa using known) (.specialize isMatching) isRest _) positive
  split
  · exact (w.walks_ask _).bind fun rest isRest => .pure (splits (.exclude isRest))
  · have kept : w.Walks (pure type) (· = type) := .pure rfl
    exact kept.bind fun _ eq => .pure (splits (eq ▸ .keep))

lemma equalityCondition {left right : Expression}
    (inLeft : Simulates w free' (left.roles c) name p v) (inRight : Simulates w free'' (right.roles c) other (w.expression right) v')
    (freeLeft : free') (freeRight : free'')
    (tracks : w.Tracks (Sure w.literal (do p.value; (w.expression right).value) fun _ => values) env) :
    w.Walks (equalityCondition c strict positive (left.roles c) (right.roles c) left.kind
      right.kind env) (w.Splits fun _ => values) := by
  simp only [sure_bind] at tracks
  refine (inLeft.value tracks).bind fun first held => ?_
  cases found : comparedValue strict right.kind with
  | none =>
    refine (inRight.value held.1).bind fun r later => ?_
    dsimp only
    split
    · rename_i isSome
      cases isSome
    · split
      · rename_i isPath isTested
        exact walks_narrowed later.1 (inRight.path freeRight _ isPath) (compared (w := w) isTested).1
          (later.2.2 _ isPath)
      · exact .pure (.unsplit later.1 _)
  | some pair =>
    obtain ⟨tested,excludable⟩ := pair
    obtain ⟨isPrimitive,still,looks⟩ := compared (w := w) found
    have tracks : w.Tracks values first.2 := by simpa [still] using held.1
    refine (looks tracks).bind fun r later => ?_
    obtain ⟨eq,known⟩ := later
    rw [← eq] at tracks
    dsimp only
    split
    · rename_i isPath isSome
      cases isSome
      exact walks_narrowed tracks (inLeft.path freeLeft _ isPath) isPrimitive (eq ▸ held.2.2 _ isPath)
    · split
      · rename_i isPath isTested
        exact walks_narrowed tracks (inRight.path freeRight _ isPath) (compared (w := w) isTested).1 (known _ isPath)
      · exact .pure (.unsplit tracks _)

/-- An answer of `typeof` is tested against a literal. -/
lemma answerTest_eq_some {candidate : Roles} {e : Expression}
    (found : Roles.answerTest candidate e.kind = some test) : ∃ span name tags tag,
      e = ⟨span,.literal (.string name)⟩ ∧ candidate.typeofTest = some tags ∧ test = tags tag := by
  obtain ⟨span,kind⟩ := e
  unfold Roles.answerTest at found
  split at found
  · rename_i tags name isTest isKind
    obtain ⟨tag,-,rfl⟩ := map_eq_some_iff.mp found
    cases isKind
    exact ⟨span,name,tags,tag,rfl,isTest,rfl⟩
  · cases found

/-- The test of an answer of `typeof` does not look at the answer. -/
lemma equality {left right : Expression} (inLeft : Simulates w free' (left.roles c) name (w.expression left) v)
    (inRight : Simulates w free'' (right.roles c) other (w.expression right) v')
    (freeLeft : free') (freeRight : free'')
    (tracks : w.Tracks (Sure w.literal (do
      (w.expression left).value
      (w.expression right).value) fun _ => values) env) :
    w.Walks (Roles.equality c strict positive (left.roles c) (right.roles c) left.kind right.kind
      env) (w.Splits fun _ => values) := by
  have still {span : Span} {name : String} : (w.expression ⟨span,.literal (.string name)⟩).value = pure () := rfl
  unfold Roles.equality
  cases first : (left.roles c).answerTest right.kind with
  | some test =>
    obtain ⟨_,_,tags,tag,rfl,isTest,rfl⟩ := answerTest_eq_some first
    exact inLeft.typeofTest freeLeft isTest tag positive (by simpa [still] using tracks)
  | none =>
    cases second : (right.roles c).answerTest left.kind with
    | some test =>
      obtain ⟨_,_,tags,tag,rfl,isTest,rfl⟩ := answerTest_eq_some second
      simp only [sure_bind] at tracks
      exact (inLeft.value tracks).bind fun _ held => inRight.typeofTest freeRight isTest tag positive held.1
    | none => exact equalityCondition inLeft inRight freeLeft freeRight tracks

lemma instanceOf_elsewhere {values : Bool → Stored → Prop}
    (inRight : Simulates w free'' right other q v') (elsewhere : path ≠ some w.name)
    (harmless : ∀ p ∈ path, w.harmless p)
    (splits : ∀ {env}, w.Tracks both env → w.Splits values (.unsplit .boolean env))
    (tracks : w.Tracks (q.value.Sure w.literal fun _ => both) env) : w.Walks (do
      let (rightType,env) ← right.value env
      match ← instanceOfTarget c rightType rightSpan with
      | none => return .unsplit .boolean env
      | some tgt => narrowing path (c.lattice.specialize type tgt) (c.lattice.exclude type tgt) env)
        (w.Splits values) := by
  refine (inRight.value tracks).bind fun r later => .moving_then fun tgt => ?_
  split
  · exact .pure (splits later.1)
  · exact walks_narrowing (fun _ => splits later.1) fun _ _ _ _ => (splits later.1).elsewhere elsewhere harmless

lemma instanceOfCondition {left : Expression} {values : Bool → Stored → Prop}
    (inLeft : Simulates w free' (left.roles c) left.qualifiedName p v)
    (inRight : Simulates w free'' right other q v') (granted : free')
    (tracks : w.Tracks ((w.comparing .instanceOf left p.value q.value).condition.Sure w.literal values) env) :
    w.Walks (instanceOfCondition c (left.roles c) right rightSpan env) (w.Splits values) := by
  have harmless := inLeft.path granted
  by_cases named : left.qualifiedName = some w.name
  · have sure : w.Tracks (p.value.Sure w.literal fun _ tested => q.value.Sure w.literal (fun _ v =>
        values true .other ∧ values false tested ∧ values false v) tested) env := by
      simpa [comparing,named] using tracks
    refine (inLeft.value sure).bind fun r held => ?_
    by_cases eq : (left.roles c).path = some w.name
    · obtain ⟨tested,pinned,leaves⟩ := w.pinned held.1 (held.2.2 _ eq)
      have known : w.Tracks (q.value.Sure w.literal fun _ v =>
          values true .other ∧ values false tested ∧ values false v) r.2 :=
        pinned.mono fun v held => held.1 ▸ held.2
      refine (inRight.value known).bind fun r' later => .moving_then fun tgt => ?_
      split
      · exact .pure ⟨w.passed (later.1.mono fun _ held => held.1),later.1.mono fun _ held => held.2.2⟩
      · refine walks_narrowing (fun none => absurd (eq.symm.trans none) (by simp)) fun _ _ _ isFalse => ?_
        rw [eq]
        exact w.tested (harmless _ eq) later.1 leaves isFalse
    · exact instanceOf_elsewhere inRight eq harmless
        (fun tracks => ⟨w.passed (tracks.mono fun _ => And.left),tracks.mono fun _ => And.right⟩)
        (held.1.mono fun _ sure => sure.mono fun _ _ held => ⟨held.1,held.2.2⟩)
  · have elsewhere : (left.roles c).path ≠ some w.name := fun eq => named (inLeft.named eq)
    have both : w.Tracks (p.value.Sure w.literal fun _ => q.value.Sure w.literal fun _ v =>
        values true v ∧ values false v) env := by
      simpa [comparing,named,Trails.ofValue] using tracks
    exact (inLeft.value both).bind fun r held => instanceOf_elsewhere inRight elsewhere harmless
      (fun tracks => (Simulator.Splits.unsplit tracks _).either) held.1

lemma inCondition {value : Env → Walk (Ty × Env)} {path : Paths Unit} (evaluates : Evaluates w none value path .other)
    (inRight : Simulates w free'' right other q v')
    (tracks : w.Tracks (path.Sure w.literal fun _ => values) env) :
    w.Walks (inCondition c value right leftKind leftSpan env) (w.Splits fun _ => values) := by
  refine (evaluates tracks).bind fun r held => ?_
  dsimp only
  split
  · rename_i prop found isPath
    have still := inRight.still (by rw [isPath]; rfl)
    have again : w.Tracks (q.value.Sure w.literal fun _ => values) r.2 := by simpa [still] using held.1
    refine (w.walks_quietly (inRight.value again)).bind fun r' later => ?_
    refine .moving_then fun _ => .moving_then fun _ => .pure ⟨?_,held.1⟩
    refine w.elsewhere (fun eq => ?_) (w.dotted found prop).1 later.1
    exact w.property_ne (some found) prop (congrArg some eq)
  · exact .pure (.unsplit held.1 _)

lemma ofBinary {left right : Expression}
    (inLeft : Simulates w (w.Free left.subjects) (left.roles c) left.qualifiedName (w.expression left) v)
    (inRight : Simulates w (w.Free right.subjects) (right.roles c) other (w.expression right) v') :
    Simulates w (w.Free (ExpressionKind.binary op left right).subjects)
      (.ofBinary c op (left.roles c) (right.roles c) left right) none
      (w.comparing op left (w.expression left).value (w.expression right).value) .other := by
  have plain : Simulates w (w.Free (ExpressionKind.binary op left right).subjects)
      (.ofValue c none (Roles.binaryValue c op (left.roles c)
      (right.roles c) left.span right.span)) none (.ofValue do
        (w.expression left).value
        (w.expression right).value) .other :=
    ofPathless fun _ _ tracks => binaryValue inLeft inRight tracks
  have either {values : Bool → Stored → Prop} {env : Env} (tracks : w.Tracks ((Trails.ofValue do
      (w.expression left).value
      (w.expression right).value).condition.Sure w.literal values) env) :
      w.Tracks (Sure w.literal (do
        (w.expression left).value
        (w.expression right).value) fun _ v => values true v ∧ values false v) env := by
    simpa [Trails.ofValue] using tracks
  have equal {strict positive : Bool} (granted : w.Free (left.subjects ++ right.subjects))
      {values : Bool → Stored → Prop} {env : Env} (tracks : w.Tracks ((Trails.ofValue do
        (w.expression left).value
        (w.expression right).value).condition.Sure w.literal values) env) :
      w.Walks (Roles.equality c strict positive (left.roles c) (right.roles c) left.kind right.kind
        env) (w.Splits values) := by
    obtain ⟨freeLeft,freeRight⟩ := (w.free_append _ _).mp granted
    exact (equality inLeft inRight freeLeft freeRight (either tracks)).mono fun _ => .either
  cases op with
  | equal | notEqual | strictEqual | strictNotEqual => exact {plain with condition := equal}
  | isIn =>
    exact {plain with
      condition := fun _ _ _ tracks =>
        (inCondition (fun _ _ => plain.value) inRight (either tracks)).mono fun _ => .either}
  | instanceOf =>
    exact {plain with
      condition := fun granted _ _ tracks => instanceOfCondition inLeft inRight granted tracks}
  | _ => exact plain

/-- A call reads the variable before its arguments are looked at. -/
lemma callValue {args : Paths Unit} (inCallee : Simulates w free' callee name p v)
    (inArguments : ∀ {values : Stored → Prop} {env : Env}, w.Tracks (args.Sure w.literal fun _ => values) env →
        w.Walks (Roles.values list env) fun r => w.Tracks values r.2)
    (tracks : w.Tracks (p.value.Sure w.literal fun _ => args.Sure w.literal fun _ => values) env)
    (held : name = some w.name → span = w.span → isNew = false → w.Tracks (· = .literal w.literal) env) :
    w.Walks (Roles.callValue c span isNew name callee list spans env) fun r => w.Tracks values r.2 :=
  (inCallee.callee tracks).bind fun _ first => (w.walks_meet first.2 held).bind fun _ _ =>
    (inArguments first.1).bind fun _ second => .moving_then fun _ => .pure second

end Parts

end Simulates

section Lists

open Simulates

variable {callee : Expression}

abbrev Simulator.Follows (w : Simulator c) (e : Expression) : Prop :=
  Simulates w (w.Free e.subjects) (e.roles c) e.qualifiedName (w.expression e) e.stored

lemma follows_values (parts : ∀ e ∈ list, w.Follows e)
    (tracks : w.Tracks ((w.expressions list).Sure w.literal fun _ => values) env) :
    w.Walks (Roles.values (expressionRoles c list) env) fun r => w.Tracks values r.2 := by
  induction list generalizing env with
  | nil => exact .pure (by simpa [expressions] using tracks)
  | cons e rest ih =>
    obtain ⟨first,others⟩ := List.forall_mem_cons.mp parts
    simp only [expressions,sure_bind] at tracks
    exact (first.value tracks).bind fun _ held => (ih others held.1).bind fun _ later => .pure later

lemma follows_fields (parts : ∀ p ∈ list, w.Follows p.value) (done : List Field)
    (tracks : w.Tracks ((w.properties list).Sure w.literal fun _ => values) env) :
    w.Walks (literalFields c (propertyRoles c list) done env) fun r => w.Tracks values r.2 := by
  induction list generalizing env done with
  | nil => exact .pure (by simpa [properties] using tracks)
  | cons p rest ih =>
    obtain ⟨first,others⟩ := List.forall_mem_cons.mp parts
    obtain ⟨key,value,jsdoc,span⟩ := p
    simp only [properties,sure_bind] at tracks
    exact (first.value tracks).bind fun _ held => .moving_then fun _ => ih others _ held.1

lemma follows_array (parts : ∀ e ∈ list, w.Follows e) :
    Simulates w free (.ofArray c (expressionRoles c list)) none (.ofValue (w.expressions list)) .other := by
  refine ofPathless fun values env tracks => (follows_values parts tracks).bind fun r held => ?_
  dsimp only
  split
  · exact .moving_then fun _ => .pure held
  · exact .moving_then fun _ => .pure held

/-- At the call in question every path has stored the literal. -/
lemma follows_call (inCallee : w.Follows callee) (parts : ∀ e ∈ list, w.Follows e) (span : Span) :
    Simulates w free (ExpressionKind.roles c span (.call callee list)) none
      (w.expressionKind span (.call callee list)) .other := by
  refine ofPathless fun values env tracks => .reporting ?_
  by_cases here : span = w.span ∧ callee.qualifiedName = some w.name
  · simp only [here,and_self,if_true,sure_bind,sure_arrive] at tracks
    exact callValue inCallee (follows_values parts) (tracks.mono fun _ => And.right) fun _ _ _ =>
      tracks.mono fun _ => And.left
  · rw [if_neg here] at tracks
    simp only [sure_bind] at tracks
    exact callValue inCallee (follows_values parts) tracks fun eq isHere => absurd ⟨isHere,eq⟩ here

end Lists

mutual
lemma follows_expression : (e : Expression) → w.Free (Node.subjects e.nodes) → w.Follows e
  | ⟨span,kind⟩, free => by
    simp only [Expression.nodes,w.free_cons] at free
    exact (follows_kind span kind free.1 free.2).visiting

lemma follows_kind (span : Span) : (kind : ExpressionKind) →
    w.Free ((Node.conditions (.expression ⟨span,kind⟩)).flatMap Expression.subjects) →
    w.Free (Node.subjects kind.nodes) →
    Simulates w (w.Free kind.subjects) (kind.roles c span) (Expression.qualifiedNameKind kind)
      (w.expressionKind span kind) kind.stored
  | .literal _, _, _ => .constant
  | .identifier id, _, _ => .ofName id fun free => free _ (by simp [ExpressionKind.subjects])
  | .this, _, _ => .ofThis fun free => free _ (by simp [ExpressionKind.subjects])
  | .member object _ _, _, free => .ofMember (follows_expression object free)
  | .index object key, _, free =>
    have free := (w.free_nodes _ _).mp free
    .ofIndex (follows_expression object free.1) (follows_expression key free.2)
  | .call callee args, _, free =>
    have free := (w.free_nodes _ _).mp free
    follows_call (follows_expression callee free.1) (follows_list args free.2) span
  | .new callee args, _, free => by
    have free := (w.free_nodes _ _).mp free
    refine .ofPathless fun values env tracks => ?_
    simp only [sure_bind] at tracks
    exact Simulates.callValue (follows_expression callee free.1)
      (follows_values (follows_list args free.2)) tracks fun _ _ plain => by cases plain
  | .function literal, _, _ => .ofFunction literal
  | .object properties, _, free => .ofPathless fun _ _ tracks =>
      (follows_fields (follows_properties properties free) [] tracks).bind fun _ held => .pure held
  | .array elements, _, free => follows_array (follows_list elements free)
  | .unary op operand, _, free => by
    refine .ofUnary (follows_expression operand free) ?_
    rintro (rfl | rfl) granted
    · exact granted
    · exact granted
  | .update _ _ tgt, _, free => .ofUpdate (follows_expression tgt free)
  | .binary _ left right, _, free =>
    have free := (w.free_nodes _ _).mp free
    .ofBinary (follows_expression left free.1) (follows_expression right free.2)
  | .logical _ left right, conditions, free => by
    simp only [ExpressionKind.nodes,w.free_nodes] at free
    simp only [Node.conditions,List.flatMap_cons,List.flatMap_nil,List.append_nil, Simulator.free_append] at conditions
    exact .ofLogical (follows_expression left free.1) (follows_expression right free.2) conditions.1 conditions.2
  | .conditional test consequent alternative, conditions, free => by
    simp only [ExpressionKind.nodes,w.free_nodes] at free
    simp only [Node.conditions,List.flatMap_singleton] at conditions
    exact .ofConditional (follows_expression test free.1.1) (follows_expression consequent free.1.2)
      (follows_expression alternative free.2) conditions
  | .assignment op tgt value, _, free => by
    simp only [ExpressionKind.nodes,w.free_nodes] at free
    have inTarget := follows_expression tgt free.1
    have inValue := follows_expression value free.2
    cases op with
    | none => exact .ofAssignment tgt.span value.span none inTarget inValue
    | some op => exact .ofAssignment tgt.span value.span (some op) inTarget inValue
  | .cast _ operand, _, free => .ofCast (follows_expression operand free)

lemma follows_list : (list : List Expression) → w.Free (Node.subjects (expressionNodes list)) → ∀ e ∈ list, w.Follows e
  | [], _ => nofun
  | e :: rest, free => by
    simp only [expressionNodes,w.free_nodes] at free
    exact List.forall_mem_cons.mpr ⟨follows_expression e free.1,follows_list rest free.2⟩

lemma follows_properties : (list : List ObjectProperty) → w.Free (Node.subjects (propertyNodes list)) →
    ∀ p ∈ list, w.Follows p.value
  | [], _ => nofun
  | ⟨_,value,_,_⟩ :: rest, free => by
    simp only [propertyNodes,ObjectProperty.nodes,w.free_nodes] at free
    exact List.forall_mem_cons.mpr ⟨follows_expression value free.1,follows_properties rest free.2⟩
end

/-- What is said of environments, and of walks that keep it. -/
structure Regard (c : WalkContext) extends Walking c where
  holds : Env → Prop
  /-- What is known of a type that is read under a path. -/
  Knows : String → Ty → Prop
  harmless : String → Prop
  walks_meet : ∀ call, Walks (meet call) fun _ => True
  visiting : ∀ {α : Type} {left : α → List Env} {walk : Env → Walk α} {env : Env} {post : α → Prop},
    holds env → Walks (walk env) post → (∀ a, post a → ∀ e ∈ left a, holds e) →
    Walks (Walk.visiting left walk env) post
  refine : ∀ {env path type}, harmless path → holds env → holds (env.refine path type)
  join : ∀ {a b}, holds a → holds b → Walks (Walk.join c a b) holds
  readName : ∀ {env id}, holds env → Walks (Walk.readName c id env) (Knows id.name)
  assignName : ∀ {env id value span}, holds env → Walks (Walk.assignName c id value span env) holds
  writeProperty : ∀ {env object path prop value span}, holds env → (∀ p ∈ path, Knows p object) →
    Walks (Walk.writeProperty c object path prop value span env) holds
  this : ∀ type, Knows "this" type
  dotted : ∀ path prop, harmless (Name.property path prop) ∧ ∀ type, Knows (Name.property path prop) type

namespace Regard

/-- Where every path is harmless and nothing is known of types, dotted paths are no exception. -/
lemma dotted_trivial (_ _ : String) : True ∧ (Ty → True) := ⟨trivial,fun _ => trivial⟩

def Splits (w : Regard c) (b : Branches) : Prop := w.holds b.whenTrue ∧ w.holds b.whenFalse

/-- What is said whatever is stored on the way. -/
def simulator (w : Regard c) : Simulator c where
  toCallPoint := ⟨"",{}⟩
  toWalking := w.toWalking
  literal := 0
  Tracks _ := w.holds
  Typed _ _ := True
  Knows path type _ := w.Knows path type
  Calls _ _ _ := True
  Leaves _ _ := True
  harmless := w.harmless
  undotted := rfl
  notThis := by simp
  walks_meet _ _ := w.walks_meet _
  visiting held walks leaves := w.visiting held walks fun a kept e mem =>
    (leaves a kept e mem).elim fun _ held => held
  mono _ held := held
  typed_other _ := trivial
  typed_function _ := trivial
  this type _ := w.this type
  dotted path prop := ⟨(w.dotted path prop).1,fun type _ => (w.dotted path prop).2 type⟩
  calls_other _ := trivial
  calls_name _ := trivial
  join := w.join
  readName := w.readName
  assignName held _ := w.assignName held
  writeProperty := w.writeProperty
  narrow harmless _ _ := w.refine harmless
  elsewhere _ := w.refine
  passed held := held
  pinned held _ := ⟨.other,held,trivial⟩
  tested harmless held _ _ := ⟨w.refine harmless held,w.refine harmless held⟩

variable {w : Regard c} {e : Expression}

lemma walks_value (free : ∀ name ∈ Node.subjects e.nodes, w.harmless name) (held : w.holds env) :
    w.Walks (valueOfExpression c e env) fun r => w.holds r.2 :=
  have follows := follows_expression (w := w.simulator) e free
  w.walks_mono (@Simulates.value _ _ _ _ _ _ _ follows (fun _ => True) env held) fun _ => And.left

lemma walks_condition (free : ∀ name ∈ Node.subjects e.nodes, w.harmless name)
    (others : ∀ name ∈ e.subjects, w.harmless name) (held : w.holds env) :
    w.Walks (branchOn c e env) w.Splits :=
  have follows := follows_expression (w := w.simulator) e free
  @Simulates.condition _ _ _ _ _ _ _ follows others (fun _ _ => True) env held

end Regard

end Walk
end GradualJs
