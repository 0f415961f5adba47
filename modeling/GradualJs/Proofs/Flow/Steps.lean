import GradualJs.Proofs.Flow.Quiet
import GradualJs.Proofs.Table

/-! The scopes of a program are followed one after the other. A step walks the body of one scope,
reports about its end, and takes over what the walk has gathered. -/
namespace GradualJs.Flow

open Option

variable {tree : ScopeTree} {state : FlowState}

def number? (tree : ScopeTree) (scope : ScopeId) : Option Nat := (tree.scope scope).function.map (·.id)

/-- What a step does, but for where it starts and what it says of a function. -/
lemma step_eq_some (ran : step r options tree state scope = some after) :
    ∃ recv declared body entry left last walked receivers summaries,
      let c := context r options tree state scope recv declared
      (Walk.statements c body entry).run (startOf state) = some (left,last) ∧
      (∀ R [Walk.Frame R], R last walked) ∧
      state.summaries.AddsKeys (number? tree scope).toList summaries ∧
      after = {finish state scope walked with
        receivers, summaries, walks := ⟨c,body,entry,walked⟩ :: state.walks} := by
  unfold step at ran
  unfold number?
  split at ran
  · rename_i isTop
    obtain ⟨⟨left,walked⟩,walk,eq⟩ := bind_eq_some_iff.mp ran
    rw [isTop]
    exact ⟨_,_,_,_,left,walked,walked,_,_,walk,fun R _ => Walk.Frame.refl walked,.refl _, (some.inj eq).symm⟩
  · rename_i fn isLiteral
    obtain ⟨inferred,-,ran⟩ := bind_eq_some_iff.mp ran
    obtain ⟨entry,-,ran⟩ := bind_eq_some_iff.mp ran
    obtain ⟨⟨env,walked⟩,walk,ran⟩ := bind_eq_some_iff.mp ran
    obtain ⟨returned,-,eq⟩ := bind_eq_some_iff.mp ran
    obtain ⟨left,last,body,rest⟩ := run_bind_iff.mp walk
    have ends (c : WalkContext) (name : String) (R : WalkState → WalkState → Prop) [Walk.Frame R] : Walk.Moves R (do
          checkEnd c name left fn.span
          return left) := inferInstance
    rw [isLiteral]
    exact ⟨_,_,_,entry,left,last,walked,_,_,body,fun R _ => (ends _ _ R).frame _ _ _ rest,
      .insert _ _ _,(some.inj eq).symm⟩

lemma analyze_induction {P : FlowState → Prop} (start : ∀ diagnostics, P {diagnostics})
    (steps : ∀ {tree state after scope}, P state → step r options tree state scope = some after →
      P after) (ran : analyze r options p = some state) : P state := by
  obtain ⟨⟨_,found⟩,-,ran⟩ := bind_eq_some_iff.mp ran
  exact Lifting.runs.foldlM (f := fun _ => step r options ⟨found.scopes⟩) (start _)
    (fun _ _ _ pre _ ran => steps pre ran) state ran

end GradualJs.Flow
