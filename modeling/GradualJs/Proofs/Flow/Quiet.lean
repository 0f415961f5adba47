import GradualJs.Flow
import GradualJs.Proofs.Lifting

/-! What most of a walk leaves alone. Reading, checking and calling may report something or put off
a call, but they record no environment and no result. The actions are gone through for any relation
that reports and calls that are put off keep. -/
namespace GradualJs

variable {α : Type} {env : Env}

/-- The call may be put off: its callee belongs to the program, its signature is not complete,
and its body has not been followed. -/
structure WalkContext.Awaits (c : WalkContext) (call : DeferredCall) : Prop where
  unfollowed : c.summaries.get? call.callee = none
  incomplete : ∃ decl, c.registry.function? call.callee = some decl ∧ decl.fromExterns = false ∧
    decl.signature.isComplete = false

/-- A body where nothing is in scope. -/
def WalkContext.bare (r : Registry) : WalkContext := Flow.context r {} ⟨[]⟩ {} 0 .unknown none

/-- Something is wrong with a type expression of the body. -/
def WalkContext.Rejects (c : WalkContext) (error : ResolveError) : Prop :=
  ∃ e type errors, ((c.registry.resolver (c.tree.scope c.scope).templates).exprOrNote e).run [] =
    some (type,errors) ∧ error ∈ errors

namespace Walk

/-- A relation between the states before and behind an action that reports keep. -/
class Frame (R : WalkState → WalkState → Prop) : Prop where
  refl : ∀ s, R s s
  trans : ∀ {s mid s'}, R s mid → R mid s' → R s s'
  reported : ∀ s more, s.muted = 0 → R s {s with diagnostics := s.diagnostics ++ more}
  muted : ∀ {s s'}, R {s with muted := s.muted + 1} s' →
    R s {s' with muted := s'.muted - 1, underflowed := s'.underflowed || s'.muted == 0}

/-- The relation also allows for calls that are put off, and for what is wrong with type expressions,
which is reported in every round. -/
class Deferring (c : WalkContext) (R : WalkState → WalkState → Prop) : Prop extends Frame R where
  resolved : ∀ s (errors : List ResolveError), (∀ error ∈ errors, c.Rejects error) →
    R s {s with diagnostics := s.diagnostics ++ errors.map ResolveError.toDiagnostic}
  deferred : ∀ s call, s.muted = 0 → c.Awaits call →
    R s {s with deferred := s.deferred.defer call, putOff := s.putOff ++ [call]}

/-- The action leads to related states. -/
class Moves {α : Type} (R : WalkState → WalkState → Prop) (action : Walk α) : Prop where
  frame : ∀ s a s', action.run s = some (a,s') → R s s'

namespace Moves

section Combinators

variable [Frame R] {α β : Type}

instance pure (a : α) : Moves R (Pure.pure a : Walk α) where
  frame s _ _ ran := by
    cases ran
    exact Frame.refl s

instance bind [first : Moves R x] [next : ∀ a, Moves R (f a)] : Moves R (x >>= f) where
  frame s b s' ran := by
    obtain ⟨a,mid,pre,after⟩ := run_bind_iff.mp ran
    exact Frame.trans (first.frame _ _ _ pre) ((next a).frame _ _ _ after)

omit [Frame R] in
instance ite [Decidable p] [Moves R x] [Moves R y] : Moves R (if p then x else y) := by
  split <;> assumption

instance discard [Moves R x] : Moves R (Functor.discard x) := by
  rw [Functor.discard,map_const,Function.comp,map_eq_pure_bind]
  infer_instance

instance mapM [∀ a, Moves R (f a)] (list : List α) : Moves R (list.mapM f) := by
  induction list with
  | nil => exact pure []
  | cons a rest ih =>
    rw [List.mapM_cons]
    infer_instance

instance foldlM [∀ b a, Moves R (f b a)] (list : List α) (b : β) : Moves R (list.foldlM f b) := by
  induction list generalizing b with
  | nil => exact pure b
  | cons a rest ih =>
    rw [List.foldlM_cons]
    infer_instance

instance get : Moves R (MonadState.get : Walk WalkState) where
  frame s _ _ ran := by
    cases ran
    exact Frame.refl s

omit [Frame R] in
lemma of_modify (frame : ∀ s, R s (f s)) : Moves R (modify f) where
  frame s _ _ ran := by
    cases ran
    exact frame s

instance ask (ans : Option α) : Moves R (Walk.ask ans) where
  frame s a s' ran := by
    cases ans with
    | none => cases ran
    | some found =>
      cases ran
      exact Frame.refl s

end Combinators

section Actions

variable [Frame R] {c : WalkContext}

instance report : Moves R (Walk.report kind message span) := by
  refine of_modify fun s => ?_
  split
  · exact Frame.reported s _ ‹_›
  · exact Frame.refl s

instance quietly [moves : Moves R x] : Moves R (Walk.quietly x) where
  frame s a s' ran := by
    obtain ⟨⟨a,mid⟩,pre,after⟩ := Option.bind_eq_some_iff.mp ran
    have moved := moves.frame _ _ _ pre
    cases after
    exact Frame.muted moved

instance isMuted : Moves R Walk.isMuted := by
  unfold Walk.isMuted
  infer_instance

lemma heard [moves : Moves R next] (done : ∀ s, s.muted = 0 → R s (f s)) : Moves R (do
    if !(← Walk.isMuted) then modify f
    next) where
  frame s a s' ran := by
    obtain ⟨_,_,gotten,ran⟩ := run_bind_iff.mp ran
    cases gotten
    by_cases loud : s.muted = 0
    · simp only [loud] at ran
      exact Frame.trans (done s loud) (moves.frame _ _ _ ran)
    · simp only [Nat.pos_of_ne_zero loud] at ran
      exact moves.frame _ _ _ ran

instance isSubtype : Moves R (Walk.isSubtype c a b) := ask _

instance reportMismatch : Moves R (Walk.reportMismatch c kind headline found wanted span) := by
  unfold Walk.reportMismatch
  infer_instance

instance checkStored : Moves R (Walk.checkStored c what value wanted span) := by
  unfold Walk.checkStored
  infer_instance

instance requiresTranspilation : Moves R (Walk.requiresTranspilation c what span) := by
  unfold Walk.requiresTranspilation
  infer_instance

instance reportReassigned : Moves R (Walk.reportReassigned name span) := report
instance reportUndeclared : Moves R (Walk.reportUndeclared message span) := report

instance readName {id : Identifier} : Moves R (Walk.readName c id env) := by
  unfold Walk.readName
  split
  · infer_instance
  · split <;> infer_instance

/-- An assignment writes a variable of the walked body, or checks something and leaves all as it is. -/
lemma assignName_cases (c : WalkContext) (id : Identifier) (value : Ty) (span : Span) (env : Env) :
    (∃ scope l, c.tree.resolve c.scope id.name = some (scope,l) ∧ c.isOwn scope = true ∧
      Walk.assignName c id value span env = Walk.assignLocal c env id.name l value span false) ∨
    ∃ check : Walk Unit, (∀ R [Frame R], Moves R check) ∧
      Walk.assignName c id value span env = check >>= fun _ => Pure.pure env := by
  unfold Walk.assignName
  dsimp only
  split
  · rename_i scope l resolved
    split
    · exact .inl ⟨scope,l,resolved,by assumption,rfl⟩
    · refine .inr ⟨_,fun R _ => ?_,rfl⟩
      cases l.declared <;> infer_instance
  · split
    · rename_i decl _
      refine .inr ⟨_,fun R _ => ?_,rfl⟩
      generalize (if decl.declared = true then some decl.type else none) = declared
      cases declared <;> infer_instance
    · exact .inr ⟨Pure.pure (),fun R _ => inferInstance,rfl⟩
    · split
      · exact .inr ⟨Walk.reportUndeclared _ _,fun R _ => inferInstance,rfl⟩
      · exact .inr ⟨Pure.pure (),fun R _ => inferInstance,rfl⟩

instance valueOf {optional : Bool} : Moves R (Walk.valueOf c type optional) := by
  unfold Walk.valueOf
  infer_instance

instance lookupInstance : Moves R (Walk.lookupInstance c i name span) := by
  unfold Walk.lookupInstance Walk.declaredValue
  split
  · infer_instance
  · split
    · infer_instance
    · split <;> infer_instance

instance lookupNamespace {id : NamespaceId} : Moves R (Walk.lookupNamespace c id name) := by
  unfold Walk.lookupNamespace Walk.declaredValue
  dsimp only
  split <;> infer_instance

instance lookupMember : Moves R (Walk.lookupMember c name span o) := by
  unfold Walk.lookupMember Walk.fieldValue
  split
  · infer_instance
  · split <;> infer_instance
  · infer_instance
  · infer_instance

instance readUnion : Moves R (Walk.readUnion c object u name span) := by
  unfold Walk.readUnion
  refine @bind _ _ _ _ _ _ inferInstance fun lookups => ?_
  dsimp only
  split <;> infer_instance

instance readProperty : Moves R (Walk.readProperty c object name span) := by
  unfold Walk.readProperty
  dsimp only
  split <;> infer_instance

instance checkWrite : Moves R (Walk.checkWrite c name value wanted declared span) := by
  unfold Walk.checkWrite
  infer_instance

instance checkPropertyWrite {p : PropertyDecl} : Moves R (Walk.checkPropertyWrite c p name value span) := by
  unfold Walk.checkPropertyWrite Walk.declaredValue
  dsimp only
  infer_instance

instance writeInstance : Moves R (Walk.writeInstance c i name value span) := by
  unfold Walk.writeInstance
  dsimp only
  split
  · infer_instance
  · split
    · infer_instance
    · split <;> infer_instance

instance writeMember : Moves R (Walk.writeMember c name value span o) := by
  unfold Walk.writeMember Walk.fieldValue
  split
  · infer_instance
  · split <;> infer_instance
  · split <;> infer_instance
  · infer_instance

instance elementOf : Moves R (Walk.elementOf c key span o) := by
  unfold Walk.elementOf
  dsimp only
  split <;> infer_instance

instance elementAccess : Moves R (Walk.elementAccess c object key span) := by
  unfold Walk.elementAccess
  have elements (list : List Ty) : Moves R (match list with
      | [] => Pure.pure .unknown
      | elements => Walk.ask (c.lattice.joinAll elements)) := by
    split <;> infer_instance
  dsimp only
  split <;> infer_instance

instance expectNumber : Moves R (Walk.expectNumber c type role span) := by
  unfold Walk.expectNumber
  infer_instance

instance areComparable : Moves R (Walk.areComparable c left right) := by
  unfold Walk.areComparable Walk.bothFit
  infer_instance

instance instanceOfTarget : Moves R (Walk.instanceOfTarget c tgt span) := by
  unfold Walk.instanceOfTarget
  dsimp only
  split
  · split <;> infer_instance
  · infer_instance

instance binaryResult : Moves R (Walk.binaryResult c op left right leftSpan rightSpan) := by
  unfold Walk.binaryResult
  dsimp only
  split
  · infer_instance
  · split
    · infer_instance
    · split <;> infer_instance

instance checkNow {callee : FunctionType} : Moves R (Walk.checkNow c site callee args recv) := by
  unfold Walk.checkNow
  dsimp only
  exact @bind _ _ _ _ _ _ inferInstance fun _ => heard fun s => Frame.reported s _

instance construct {id : NominalId} : Moves R (Walk.construct c site id constructor args) := by
  unfold Walk.construct
  dsimp only
  infer_instance

instance reportUnknown {name : Option String} : Moves R (Roles.reportUnknown c name type span) := by
  unfold Roles.reportUnknown
  infer_instance

instance isRelated : Moves R (Roles.isRelated c value tgt) := by
  unfold Roles.isRelated
  infer_instance

instance checkReturned : Moves R (Walk.checkReturned c type span) := by
  unfold Walk.checkReturned
  split <;> infer_instance

instance checkEnumerable : Moves R (Walk.checkEnumerable c object span) := by
  unfold Walk.checkEnumerable
  infer_instance

instance requireFunctionScoped : Moves R (Walk.requireFunctionScoped c kind span) := by
  unfold Walk.requireFunctionScoped
  infer_instance

instance checkEnd : Moves R (Flow.checkEnd c name env span) := by
  unfold Flow.checkEnd
  split <;> infer_instance

end Actions

section Calls

variable {c : WalkContext} [Deferring c R]

instance typeExpr : Moves R (Walk.typeExpr c e) where
  frame s type s' ran := by
    obtain ⟨_,_,gotten,ran⟩ := run_bind_iff.mp ran
    cases gotten
    obtain ⟨_,_,asked,ran⟩ := run_bind_iff.mp ran
    obtain ⟨⟨_,_⟩,resolved,eq⟩ := Option.bind_eq_some_iff.mp asked
    cases eq
    cases ran
    obtain ⟨_,_,found,resolved⟩ := run_bind_iff.mp resolved
    obtain ⟨_,ans,eq⟩ := Option.bind_eq_some_iff.mp found
    cases eq
    cases resolved
    exact Deferring.resolved (c := c) s _ fun _ wrong => ⟨e,_,_,ans,wrong⟩

instance literalField : Moves R (Roles.literalField c key jsdoc span value) := by
  unfold Roles.literalField
  split <;> infer_instance

lemma awaits_of_later {type : FunctionType} {id : Nat}
    (later : c.target type fn = .later id declared) (call : DeferredCall)
    (eq : call.callee = id) : c.Awaits call := by
  subst eq
  unfold WalkContext.target at later
  split at later
  · cases later
  · split at later
    · cases later
    · rename_i d unfollowed found
      split at later
      · rename_i waiting
        simp only [Bool.and_eq_true,Bool.not_eq_true'] at waiting
        cases later
        exact ⟨unfollowed,d,found,waiting.1,waiting.2⟩
      · cases later
    · cases later

instance callFunction : Moves R (Walk.callFunction c site function callee args) := by
  unfold Walk.callFunction Walk.callTarget
  dsimp only
  split
  · infer_instance
  · split
    · infer_instance
    · rename_i later
      exact heard fun s loud => Deferring.deferred s _ loud (awaits_of_later later _ rfl)

instance invoke : Moves R (Walk.invoke c site callee args) := by
  unfold Walk.invoke
  dsimp only
  split
  · split
    · infer_instance
    · split <;> infer_instance
  · infer_instance

end Calls

end Moves

lemma run_noteReturned (type : Ty) (s : WalkState) :
    (noteReturned type env).run s = some ((),if env.live = true ∧ s.muted = 0 then
      {s with returns := s.returns ++ [type]} else s) := by
  by_cases counts : env.live = true ∧ s.muted = 0
  · simp [noteReturned,isMuted,counts]
  · rcases Bool.eq_false_or_eq_true env.live with live | dead
    · have muted : 0 < s.muted := by grind
      simp [noteReturned,isMuted,live,Nat.ne_of_gt muted]
    · simp [noteReturned,isMuted,dead]

/-- Every run moves between related states, and its result has the property. -/
def Yields {α : Type} (R : WalkState → WalkState → Prop) (action : Walk α) (post : α → Prop) : Prop :=
  ∀ s a s', action.run s = some (a,s') → R s s' ∧ post a

namespace Yields

variable [Frame R] {α β : Type}

lemma pure (held : post a) : Yields R (Pure.pure a : Walk α) post := by
  intro s _ _ ran
  cases ran
  exact ⟨Frame.refl s,held⟩

variable {env : Env} {action : Walk α} {c : WalkContext}

omit [Frame R] in
lemma chain (compose : ∀ {s mid s'}, R s mid → S mid s' → T s s')
    (first : Yields R action post) (next : ∀ a, post a → Yields S (f a) final) :
    Yields T (action >>= f) final := by
  intro s b s' ran
  obtain ⟨a,mid,pre,after⟩ := run_bind_iff.mp ran
  obtain ⟨moved,held⟩ := first _ _ _ pre
  obtain ⟨later,res⟩ := next a held _ _ _ after
  exact ⟨compose moved later,res⟩

lemma bind (first : Yields R action post) (next : ∀ a, post a → Yields R (f a) final) : Yields R (action >>= f) final :=
  chain Frame.trans first next

omit [Frame R] in
lemma mono (yields : Yields R action post)
    (implies : ∀ a, post a → weaker a) : Yields R action weaker := fun s a s' ran =>
  (yields s a s' ran).imp_right (implies a)

omit [Frame R] in
lemma of_moves (action : Walk α) [moves : Moves R action] : Yields R action fun _ => True :=
  fun s a s' ran => ⟨moves.frame s a s' ran,trivial⟩

omit [Frame R] in
lemma moves (yields : Yields R action post) : Moves R action where
  frame s a s' ran := (yields s a s' ran).1

lemma moves_then [Moves R action] (next : ∀ a, Yields R (f a) final) : Yields R (action >>= f) final :=
  (of_moves action).bind fun a _ => next a

lemma guarded [Decidable p] [Moves R action] (walks : Yields R main final) :
    Yields R (if p then action >>= fun _ => main else main) final := by
  split
  · exact moves_then fun _ => walks
  · exact walks

lemma ask (ans : Option α) : Yields R (Walk.ask ans) fun a => ans = some a := by
  intro s a s' ran
  obtain ⟨found,isAnswer,eq⟩ := Option.bind_eq_some_iff.mp ran
  cases eq
  exact ⟨Frame.refl s,isAnswer⟩

lemma quietly (yields : Yields R action post) : Yields R (Walk.quietly action) post := by
  intro s a s' ran
  obtain ⟨⟨a,mid⟩,pre,after⟩ := Option.bind_eq_some_iff.mp ran
  obtain ⟨moved,held⟩ := yields _ _ _ pre
  cases after
  exact ⟨Frame.muted moved,held⟩

lemma writeLocal (assigned : ∀ s assigned, R s {s with assigned}) :
    Yields R (Walk.writeLocal c env name type) (· = env.set name type) := by
  have noted (joined : Ty) : Moves R (modify fun s => {s with assigned := s.assigned.insert name joined}) :=
    .of_modify fun s => assigned s _
  unfold Walk.writeLocal
  dsimp only
  refine .moves_then fun s => ?_
  split
  · exact .moves_then fun _ => .moves_then fun _ => .pure rfl
  · exact .moves_then fun _ => .moves_then fun _ => .pure rfl

lemma writeProperty {path : Option String} :
    Yields R (Walk.writeProperty c object path name value span env) fun left => ∃ stored,
      left = path.elim env fun path =>
        (Walk.extendRecord object path name stored env).set (Name.property path name) stored := by
  unfold Walk.writeProperty
  dsimp only
  split
  · refine .moves_then fun _ => .moves_then fun replaced => .pure ⟨(replaced.filterMap id).getLast?.getD value,?_⟩
    cases path <;> rfl
  · refine .guarded (.moves_then fun replaced => .pure ⟨(replaced.filterMap id).getLast?.getD value,?_⟩)
    cases path <;> rfl

end Yields

structure SameRecords (s s' : WalkState) : Prop where
  jumps : s'.jumps = s.jumps
  tryFrames : s'.tryFrames = s.tryFrames
  visited : s'.visited = s.visited
  returns : s'.returns = s.returns
  muted : s'.muted = s.muted
  underflowed : s'.underflowed = s.underflowed

instance : Frame SameRecords where
  refl _ := ⟨rfl,rfl,rfl,rfl,rfl,rfl⟩
  trans left right := ⟨right.jumps.trans left.jumps,right.tryFrames.trans left.tryFrames,
    right.visited.trans left.visited,right.returns.trans left.returns,right.muted.trans left.muted,
    right.underflowed.trans left.underflowed⟩
  reported _ _ _ := ⟨rfl,rfl,rfl,rfl,rfl,rfl⟩
  muted kept := ⟨kept.jumps,kept.tryFrames,kept.visited,kept.returns,by simp [kept.muted],
    by simp [kept.muted,kept.underflowed]⟩

instance (c : WalkContext) : Deferring c SameRecords where
  resolved _ _ _ := ⟨rfl,rfl,rfl,rfl,rfl,rfl⟩
  deferred _ _ _ _ := ⟨rfl,rfl,rfl,rfl,rfl,rfl⟩

abbrev Quiet {α : Type} (action : Walk α) : Prop := Moves SameRecords action

lemma Quiet.of_modify (frame : ∀ s, SameRecords s (f s)) : Quiet (modify f) := Moves.of_modify frame

instance : Quiet (Walk.meet call) := .of_modify fun _ => ⟨rfl,rfl,rfl,rfl,rfl,rfl⟩

end Walk
end GradualJs
