import GradualJs.Proofs.Flow.Roles
import GradualJs.Proofs.Lattice.Termination

/-! An expression does the same as a condition and as a value. Conditions have ways of their own
through negations, short circuits and tests, and some look at an operand again without being heard. -/
namespace GradualJs

/-- What a walk has done: reports, calls that are put off, assignments and results. -/
def WalkState.effects (s : WalkState) := (s.diagnostics, s.deferred, s.putOff, s.assigned, s.returns)

namespace Walk

variable {α β γ : Type}

/-- The walk is as muted as it was, and if it is muted it has done nothing. -/
def Unheeded (s s' : WalkState) : Prop := s'.muted = s.muted ∧ (0 < s.muted → s'.effects = s.effects)

instance : Frame Unheeded where
  refl s := ⟨rfl,fun _ => rfl⟩
  trans first second := ⟨second.1.trans first.1,fun silent =>
    (second.2 (first.1 ▸ silent)).trans (first.2 silent)⟩
  reported _ _ loud := ⟨rfl,fun silent => absurd loud (Nat.ne_of_gt silent)⟩
  muted := fun ⟨muted,eq⟩ => ⟨by simp [muted],fun _ => eq (Nat.succ_pos _)⟩

/-- The action does nothing, and its result has the property. -/
def Idle (post : α → Prop) (x : Walk α) : Prop := ∀ s a s', x.run s = some (a, s') → post a ∧ s'.effects = s.effects

namespace Idle

lemma pure (held : post b) : Idle post (Pure.pure b) := by
  rintro s _ _ ⟨⟩
  exact ⟨held,rfl⟩

lemma bind {p : α → Prop} (idle : Idle p x) (next : ∀ a, p a → Idle post (f a)) : Idle post (x >>= f) := by
  intro s b s' ran
  obtain ⟨a,mid,pre,after⟩ := run_bind_iff.mp ran
  obtain ⟨held,still⟩ := idle _ _ _ pre
  obtain ⟨ends,eq⟩ := next a held _ _ _ after
  exact ⟨ends,eq.trans still⟩

lemma ask (next : ∀ a, Idle post (f a)) : Idle post (Walk.ask answer >>= f) := by
  refine bind (p := fun _ => True) (fun s a s' ran => ?_) fun a _ => next a
  cases answer with
  | none => cases ran
  | some found =>
    cases ran
    exact ⟨trivial,rfl⟩

lemma quietly (moves : Moves Unheeded x) (next : ∀ a, Idle post (f a)) : Idle post (Walk.quietly x >>= f) := by
  refine bind (p := fun _ => True) (fun s a s' ran => ?_) fun a _ => next a
  obtain ⟨⟨a,mid⟩,pre,after⟩ := Option.bind_eq_some_iff.mp ran
  cases after
  exact ⟨trivial,(moves.frame _ _ _ pre).2 (Nat.succ_pos s.muted)⟩

end Idle

/-- Where both actions end, they have done the same, and their results are related. -/
def Matches (rel : α → β → Prop) (x : Walk α) (y : Walk β) : Prop :=
  ∀ s a s' b s'', x.run s = some (a, s') → y.run s = some (b, s'') → rel a b ∧ s''.effects = s'.effects

namespace Matches

lemma refl (x : Walk α) : Matches Eq x x := by
  intro s a s' b s'' ran ran'
  cases ran.symm.trans ran'
  exact ⟨rfl,rfl⟩

lemma idle (idle : Idle (rel a) y) : Matches rel (pure a) y := by
  rintro s _ _ b s'' ⟨⟩ ran
  exact idle s b s'' ran

lemma bind {f : γ → Walk α} {g : γ → Walk β} (next : ∀ a, Matches rel (f a) (g a)) :
    Matches rel (x >>= f) (x >>= g) := by
  intro s a s' b s'' ran ran'
  obtain ⟨_,_,first,ran⟩ := run_bind_iff.mp ran
  obtain ⟨_,_,first',ran'⟩ := run_bind_iff.mp ran'
  cases first.symm.trans first'
  exact next _ _ _ _ _ _ ran ran'

lemma then_left (rel' : γ → β → Prop) {f : α → Walk γ} (eq : Matches rel x y)
    (idle : ∀ a b, rel a b → Idle (rel' · b) (f a)) : Matches rel' (x >>= f) y := by
  intro s c s' b s'' ran ran'
  obtain ⟨a,mid,first,ran⟩ := run_bind_iff.mp ran
  obtain ⟨held,effects⟩ := eq _ _ _ _ _ first ran'
  obtain ⟨ends,still⟩ := idle a b held _ _ _ ran
  exact ⟨ends,effects.trans still.symm⟩

lemma then_right {rel' : α → γ → Prop} {g : β → Walk γ} (eq : Matches rel x y)
    (idle : ∀ a b, rel a b → Idle (rel' a) (g b)) : Matches rel' x (y >>= g) := by
  intro s a s' c s'' ran ran'
  obtain ⟨b,mid,first,ran'⟩ := run_bind_iff.mp ran'
  obtain ⟨held,effects⟩ := eq _ _ _ _ _ ran first
  obtain ⟨ends,still⟩ := idle a b held _ _ _ ran'
  exact ⟨ends,still.trans effects⟩

lemma visiting {x : Env → Walk α} {y : Env → Walk β} (eq : Matches rel (x env) (y env)) :
    Matches rel (Walk.visiting left x env) (Walk.visiting left' y env) := by
  refine bind fun _ s a s' b s'' ran ran' => ?_
  obtain ⟨_,_,first,rest⟩ := run_bind_iff.mp ran
  obtain ⟨_,_,first',rest'⟩ := run_bind_iff.mp ran'
  cases rest
  cases rest'
  have held := eq _ _ _ _ _ first first'
  exact held

end Matches

end Walk

open Walk

lemma Branches.type_oriented_refine (b : Branches) (path : Option String) (x y : Ty) (positive : Bool) :
    ((b.refine path x y).oriented positive).type = b.type := by
  cases path <;> cases positive <;> rfl

/-- The condition does what the value does, and so does the test of an answer of `typeof`. -/
structure Roles.Agrees (e : Roles) : Prop where
  condition (env : Env) : Matches (fun r b => b.type = r.1) (e.value env) (e.condition env)
  typeofTest {test : TypeTag → Bool → Env → Walk Branches} (found : e.typeofTest = some test)
    (tag : TypeTag) (positive : Bool) (env : Env) :
    Matches (fun _ b => b.type = .boolean) (e.value env) (test tag positive env)

namespace Roles.Agrees

variable {c : WalkContext} {left right : Expression}

lemma idle_narrowing (path : Option String) (ifTrue ifFalse : Option Ty) (env : Env) :
    Idle (fun b : Branches => b.type = .boolean) (narrowing path ifTrue ifFalse env) := by
  cases path with
  | none => exact .pure rfl
  | some path => exact .ask fun _ => .ask fun _ => .pure rfl

lemma plainCondition (path : Option String) (value : Env → Walk (Ty × Env)) (env : Env) :
    Matches (fun r b => b.type = r.1) (value env) (plainCondition c path value env) :=
  (Matches.refl _).then_right fun _ _ eq => .pure (eq ▸ Branches.type_oriented_refine _ _ _ _ true)

lemma visiting {e : Roles} (agrees : e.Agrees) : e.visiting.Agrees where
  condition env := (agrees.condition env).visiting
  typeofTest found tag positive env := by
    obtain ⟨test,isTest,rfl⟩ := Option.map_eq_some_iff.mp found
    exact (agrees.typeofTest isTest tag positive env).visiting

lemma ofUnary {operand : Roles} (agrees : operand.Agrees) (op : UnaryOperator) (span : Span) :
    (Roles.ofUnary c op operand span).Agrees := by
  cases op with
  | not =>
    refine ⟨fun env => ?_,fun found => nomatch found⟩
    exact ((agrees.condition env).then_left (fun r _ => r.1 = .boolean) fun _ _ _ => .pure rfl).then_right
      fun _ _ eq => .pure eq.symm
  | typeof =>
    refine ⟨plainCondition none _,fun found tag positive env => ?_⟩
    cases found
    refine Matches.bind fun r => Matches.idle (a := (_, r.2)) ?_
    exact (idle_narrowing _ _ _ _).bind fun b eq => .pure (by cases positive <;> exact eq)
  | _ => exact ⟨plainCondition none _,fun found => nomatch found⟩

lemma equality (inLeft : (left.roles c).Agrees) (inRight : (right.roles c).Agrees)
    (value : ∀ x y, binaryResult c op x y leftSpan rightSpan = pure .boolean) (strict positive : Bool)
    (env : Env) : Matches (fun r b => b.type = r.1)
      (binaryValue c op (left.roles c) (right.roles c) leftSpan rightSpan env)
      (equality c strict positive (left.roles c) (right.roles c) left.kind right.kind env) := by
  have narrows {path : String} {type tested : Ty} {excludable : Bool} {env : Env} :
      Idle (fun b : Branches => b.type = .boolean) (do
        let matching ← ask (c.lattice.specialize type tested)
        let rest ← if excludable then ask (c.lattice.exclude type tested) else pure type
        return ((Branches.unsplit .boolean env).refine (some path) matching rest).oriented positive) := by
    refine .ask fun _ => ?_
    cases excludable
    · exact .pure (Branches.type_oriented_refine _ _ _ _ positive)
    · exact .ask fun _ => .pure (Branches.type_oriented_refine _ _ _ _ positive)
  simp only [binaryValue,value,pure_bind]
  unfold Roles.equality
  cases first : (left.roles c).answerTest right.kind with
  | some test =>
    obtain ⟨_,_,tags,tag,rfl,isTest,rfl⟩ := Simulates.answerTest_eq_some first
    refine (inLeft.typeofTest isTest tag positive env).then_left _ fun r b eq => ?_
    rintro s _ _ ⟨⟩
    exact ⟨eq,rfl⟩
  | none =>
    cases second : (right.roles c).answerTest left.kind with
    | some test =>
      obtain ⟨_,_,tags,tag,rfl,isTest,rfl⟩ := Simulates.answerTest_eq_some second
      refine Matches.bind fun r => ?_
      exact (inRight.typeofTest isTest tag positive r.2).then_left _ fun _ _ eq => .pure eq
    | none =>
      refine Matches.bind fun _ => Matches.bind fun _ => Matches.idle ?_
      dsimp only
      split
      · exact narrows
      · split
        · exact narrows
        · exact .pure rfl

lemma instanceOfCondition (left right : Roles) (leftSpan rightSpan : Span) (env : Env) :
    Matches (fun r b => b.type = r.1) (binaryValue c .instanceOf left right leftSpan rightSpan env)
      (instanceOfCondition c left right rightSpan env) := by
  refine Matches.bind fun first => Matches.bind fun second => ?_
  have value : binaryResult c .instanceOf first.1 second.1 leftSpan rightSpan =
      instanceOfTarget c second.1 rightSpan >>= fun _ => pure .boolean := by
    show Functor.discard _ >>= _ = _
    rw [Functor.discard,map_const,Function.comp,map_eq_pure_bind,bind_assoc]
    rfl
  simp only [value,bind_assoc,pure_bind]
  refine Matches.bind fun target => Matches.idle ?_
  cases target with
  | none => exact .pure rfl
  | some type => exact idle_narrowing _ _ _ _

mutual
/-- An expression with a path only reads. -/
lemma unheeded_value : (e : Expression) → (e.roles c).path.isSome = true → ∀ env, Moves Unheeded ((e.roles c).value env)
  | ⟨span,kind⟩, has, env => by
    have := unheeded_kind span kind has env
    have noted (f : List Env → List Env) : Moves Unheeded (modify fun s => {s with visited := f s.visited}) :=
      .of_modify fun _ => ⟨rfl,fun _ => rfl⟩
    have := noted (env :: ·)
    have (r : Ty × Env) := noted ([r.2] ++ ·)
    rw [Expression.roles]
    unfold Roles.visiting Walk.visiting
    infer_instance

lemma unheeded_kind (span : Span) : (kind : ExpressionKind) → (kind.roles c span).path.isSome = true →
    ∀ env, Moves Unheeded ((kind.roles c span).value env)
  | .identifier id, _, env => by
    simp only [ExpressionKind.roles,ofName,Roles.ofValue,reporting]
    infer_instance
  | .this, _, env => Moves.pure _
  | .member object _ _, has, env => by
    have := unheeded_value object (by simpa [ExpressionKind.roles,ofMember,Roles.ofValue] using has)
    simp only [ExpressionKind.roles,ofMember,Roles.ofValue,reporting]
    infer_instance
  | .unary op _, has, _ => by cases op <;> cases has
  | .binary op _ _, has, _ => by cases op <;> cases has
end

lemma inCondition (value : Env → Walk (Ty × Env)) (kind : ExpressionKind) (span : Span) (env : Env) :
    Matches (fun r b => b.type = r.1) (value env) (inCondition c value (right.roles c) kind span env) := by
  refine (Matches.refl _).then_right fun r _ eq => ?_
  subst eq
  dsimp only
  split
  · rename_i isPath
    exact .quietly (unheeded_value right (by rw [isPath]; rfl) r.2) fun _ => .quietly inferInstance fun _ =>
      .ask fun _ => .pure rfl
  · exact .pure rfl

lemma ofBinary (inLeft : (left.roles c).Agrees) (inRight : (right.roles c).Agrees) (op : BinaryOperator) :
    (Roles.ofBinary c op (left.roles c) (right.roles c) left right).Agrees := by
  cases op with
  | equal => exact ⟨equality inLeft inRight (fun _ _ => rfl) false true,fun found => nomatch found⟩
  | notEqual => exact ⟨equality inLeft inRight (fun _ _ => rfl) false false,fun found => nomatch found⟩
  | strictEqual => exact ⟨equality inLeft inRight (fun _ _ => rfl) true true,fun found => nomatch found⟩
  | strictNotEqual => exact ⟨equality inLeft inRight (fun _ _ => rfl) true false,fun found => nomatch found⟩
  | instanceOf => exact ⟨instanceOfCondition _ _ _ _,fun found => nomatch found⟩
  | isIn => exact ⟨inCondition _ _ _,fun found => nomatch found⟩
  | _ => exact ⟨plainCondition none _,fun found => nomatch found⟩

lemma ofLogical (op : LogicalOperator) (left right : Roles) : (Roles.ofLogical c op left right).Agrees where
  condition _ := (Matches.refl _).then_left _ fun _ _ eq => .ask fun _ => .pure (eq ▸ rfl)
  typeofTest found := nomatch found

mutual
lemma expression : (e : Expression) → (e.roles c).Agrees
  | ⟨span,kind⟩ => (expressionKind span kind).visiting

lemma expressionKind (span : Span) : (kind : ExpressionKind) → (kind.roles c span).Agrees
  | .unary op operand => (expression operand).ofUnary op operand.span
  | .binary op left right => ofBinary (expression left) (expression right) op
  | .logical op _ _ => ofLogical op _ _
  | .literal _ | .identifier _ | .this | .member _ _ _ | .index _ _ | .call _ _ | .new _ _ | .function _
  | .object _ | .array _ | .update _ _ _ | .conditional _ _ _ | .assignment _ _ _ | .cast _ _ =>
    ⟨plainCondition _ _,fun found => nomatch found⟩
end

end Roles.Agrees

namespace Walk

/-- As a condition and as a value an expression has the same type, and following it reports, puts
off, assigns and returns the same, wherever both come to an end. -/
theorem condition_agrees_with_value (c : WalkContext) (e : Expression) (env : Env) {left : Env} {type : Ty}
    {branches : Branches} {s s' s'' : WalkState}
    (value : (valueOfExpression c e env).run s = some ((type, left), s'))
    (condition : (branchOn c e env).run s = some (branches, s'')) :
    branches.type = type ∧ s''.effects = s'.effects :=
  (Roles.Agrees.expression e).condition env s _ _ _ _ value condition

/-- `!("p" in this)` -/
def absence : Expression := ⟨{},.unary .not ⟨{},.binary .isIn ⟨{},.literal (.string "p")⟩ ⟨{},.this⟩⟩⟩

theorem condition_agrees_with_value_absence : ∃ type left branches s' s'',
    (valueOfExpression (.bare {}) absence {}).run {} = some ((type, left), s') ∧
    (branchOn (.bare {}) absence {}).run {} = some (branches, s'') ∧ branches.type = type ∧ s''.effects = s'.effects :=
  ⟨_,_,_,_,_,rfl,rfl,condition_agrees_with_value (.bare {}) absence {} (s := {}) rfl rfl⟩

open Registry

def made : Ty := .record { fields := [{ name := "p", type := .object (.nominal ⟨⟨4⟩,[]⟩) }] }

/-- `this` is the class of the knot, and a function constructs what the class is never compared with
to an end. -/
def testing (r : Registry) : WalkContext := { WalkContext.bare r with
  receiver := .object (.nominal ⟨⟨3⟩,[]⟩)
  summaries := ⟨[(0, ⟨0, "",{ returnType := .undefined, constructs := some made }⟩)]⟩ }

def membership : Expression := ⟨{},.binary .instanceOf ⟨{},.this⟩ ⟨{},.function ⟨0,none,[],⟨[],{}⟩,none,false,{}⟩⟩⟩

lemma branchOn_membership (stuck : Lattice.isSubtype ⟨r,false,4096⟩ (.object (.nominal ⟨⟨3⟩,[]⟩)) made = none) :
    (branchOn (testing r) membership {}).run {} = none := by
  have narrowed : (testing r).lattice.specialize (.object (.nominal ⟨⟨3⟩,[]⟩)) made = none := by
    simp only [made,Ty.record,Ty.object,Lattice.specialize] at stuck ⊢
    exact congrArg (Option.bind · _) stuck
  by_contra ended
  obtain ⟨⟨b,after⟩,ran⟩ := Option.ne_none_iff_exists'.mp ended
  obtain ⟨_,_,-,ran⟩ := run_bind_iff.mp ran
  obtain ⟨_,_,ran,-⟩ := run_bind_iff.mp ran
  obtain ⟨_,_,left,ran⟩ := run_bind_iff.mp ran
  cases left
  obtain ⟨_,_,right,ran⟩ := run_bind_iff.mp ran
  cases right
  obtain ⟨_,_,target,ran⟩ := run_bind_iff.mp ran
  cases target
  obtain ⟨_,_,asked,-⟩ := run_bind_iff.mp ran
  cases asked.symm.trans (congrArg (fun answer => (ask answer).run _) narrowed)

theorem condition_membership_unanswered : Outline.Collects knot ∧
    (∃ res, (valueOfExpression (testing (Outline.registry knot)) membership {}).run {} = some res) ∧
      (branchOn (testing (Outline.registry knot)) membership {}).run {} = none := by
  have value (r : Registry) : ∃ res, (valueOfExpression (testing r) membership {}).run {} = some res := ⟨_,rfl⟩
  have endless := knot_knotted.2.endless false [] (b := made) ⟨_,false,false,rfl,rfl,rfl,rfl⟩
  exact ⟨knot_knotted.1,value _,branchOn_membership (isSubtype_eq_none endless 4096)⟩

end Walk
end GradualJs
