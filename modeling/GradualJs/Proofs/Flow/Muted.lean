import GradualJs.Proofs.Flow.Statements

/-! What is heard of a muted walk. Loops go through their bodies until what they know is stable, and
only the last round is meant to be heard. -/
namespace GradualJs.Walk

variable {c : WalkContext} {s s' : WalkState}

/-- No call was put off, nothing was returned, and what was reported is wrong with type expressions. -/
structure Hushed (c : WalkContext) (s s' : WalkState) : Prop where
  deferred : s'.deferred = s.deferred
  returns : s'.returns = s.returns
  diagnostics : ∃ errors : List ResolveError,
    s'.diagnostics = s.diagnostics ++ errors.map ResolveError.toDiagnostic ∧ ∀ error ∈ errors, c.Rejects error

/-- The walk is as muted as it was, and if it is muted it was hushed. -/
def Hushing (c : WalkContext) (s s' : WalkState) : Prop := s'.muted = s.muted ∧ (0 < s.muted → Hushed c s s')

namespace Hushing

lemma of_loud (muted : s'.muted = s.muted) (loud : s.muted = 0) : Hushing c s s' :=
  ⟨muted,fun silent => absurd loud (Nat.ne_of_gt silent)⟩

lemma of_same (muted : s'.muted = s.muted) (deferred : s'.deferred = s.deferred)
    (returns : s'.returns = s.returns) (diagnostics : s'.diagnostics = s.diagnostics) : Hushing c s s' :=
  ⟨muted,fun _ => ⟨deferred,returns,[],by simp [diagnostics]⟩⟩

instance deferring : Deferring c (Hushing c) where
  refl _ := of_same rfl rfl rfl rfl
  trans := by
    rintro s mid s' ⟨muted,first⟩ ⟨muted',second⟩
    refine ⟨muted'.trans muted,fun silent => ?_⟩
    obtain ⟨deferred,returns,errors,added,wrong⟩ := first silent
    obtain ⟨deferred',returns',more,added',wrong'⟩ := second (muted ▸ silent)
    refine ⟨deferred'.trans deferred,returns'.trans returns,errors ++ more,?_,?_⟩
    · rw [added',added,List.map_append,List.append_assoc]
    · exact fun error mem => (List.mem_append.mp mem).elim (wrong error) (wrong' error)
  reported _ _ := of_loud rfl
  muted := by
    rintro s s' ⟨muted,hushed⟩
    obtain ⟨deferred,returns,diagnostics⟩ := hushed (Nat.succ_pos s.muted)
    exact ⟨by simp [muted],fun _ => ⟨deferred,returns,diagnostics⟩⟩
  resolved _ errors wrong := ⟨rfl,fun _ => ⟨rfl,rfl,errors,rfl,wrong⟩⟩
  deferred _ _ loud _ := of_loud rfl loud

instance indifferent : Indifferent (Hushing c) where
  noted _ _ _ _ := of_same rfl rfl rfl rfl
  jumps _ _ _ := of_same rfl rfl rfl rfl
  returns _ _ := of_loud rfl
  handling _ _ _ _ := of_same rfl rfl rfl rfl
  tried _ _ := of_same rfl rfl rfl rfl

end Hushing

/-- Whatever is walked through muted puts off no call and returns nothing. It is silent except for
what is wrong with the type expressions of casts and of fields. -/
theorem hushed_of_muted (silent : 0 < s.muted) (env : Env) :
    (∀ stmt left, (Walk.statement c stmt env).run s = some (left,s') → Hushed c s s') ∧
    (∀ e res, (valueOfExpression c e env).run s = some (res,s') → Hushed c s s') ∧
      ∀ e branches, (branchOn c e env).run s = some (branches,s') → Hushed c s s' := by
  refine ⟨fun stmt left ran => ?_,fun e res ran => ?_,fun e branches ran => ?_⟩
  · have moves := Tracing.statement (c := c) (R := fun _ => Hushing c) stmt env
    exact (moves.frame _ _ _ ran).2 silent
  · exact (Moves.frame (R := Hushing c) _ _ _ ran).2 silent
  · exact (Moves.frame (R := Hushing c) _ _ _ ran).2 silent

/-- A cast to a type that nothing declares. -/
def missing : Expression := ⟨{},.cast ⟨.named "Missing" [],{}⟩ ⟨{},.literal .null⟩⟩

theorem hushed_of_muted_missing : ∃ res s', 0 < s'.muted ∧
    (valueOfExpression (.bare {}) missing {}).run {muted := 1} = some (res,s') ∧ Hushed (.bare {}) {muted := 1} s' :=
  ⟨_,_,by decide,rfl,(hushed_of_muted (by decide) {}).2.1 missing _ rfl⟩

theorem muted_missing_reported : ∃ res s', (valueOfExpression (.bare {}) missing {}).run {muted := 1} = some (res,s') ∧
      s'.diagnostics.map (·.kind) = [.unrecognizedTypeName] :=
  ⟨_,_,rfl,rfl⟩

end GradualJs.Walk
