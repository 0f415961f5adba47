import GradualJs.Proofs.Flow.Reach
import Mathlib.Data.List.Forall2

/-! The stacks of a walk are balanced. Loops, switches and `try` blocks push a frame and take it off
again, and what is walked through in between may only add to the frames. -/
namespace GradualJs

open List

/-- The frame holds what it held, in front of what was added. -/
structure JumpFrame.Extends (frame later : JumpFrame) : Prop where
  kind : later.kind = frame.kind
  breaks : frame.breaks <+: later.breaks
  continues : frame.continues <+: later.continues

namespace Walk

/-- The stacks have the frames that they had, the walk is as muted as it was, and no frame was asked
of an empty stack in between. -/
structure Balanced (s s' : WalkState) : Prop where
  jumps : List.Forall₂ JumpFrame.Extends s.jumps s'.jumps
  tryFrames : List.Forall₂ (· <+: ·) s.tryFrames s'.tryFrames
  muted : s'.muted = s.muted
  underflowed : s'.underflowed = s.underflowed

lemma extends_restart_leave (broken continued : List Env) (jumps : List JumpFrame) :
    List.Forall₂ JumpFrame.Extends jumps (restart continued (leave broken jumps)) := by
  induction jumps generalizing broken with
  | nil => exact .nil
  | cons frame outer ih =>
    rw [leave,restart]
    split
    · refine .cons ⟨rfl,prefix_append _ _,prefix_append _ _⟩ (forall₂_same.mpr ?_)
      exact fun _ _ => ⟨rfl,prefix_rfl,prefix_rfl⟩
    · -- A `continue` in a switch belongs to a loop further out, a `break` does not.
      have others := ih []
      rw [leave_nil] at others
      exact .cons ⟨rfl,prefix_append _ _,prefix_rfl⟩ others

lemma prefix_raise (seen : List Env) (frames : List (List Env)) :
    List.Forall₂ (· <+: ·) frames (raise seen frames) := by
  cases frames with
  | nil => exact .nil
  | cons frame outer =>
    exact .cons (prefix_append _ _) (forall₂_same.mpr fun _ _ => prefix_rfl)

lemma Emitted.balanced (emitted : Emitted x s s') : Balanced s s' := by
  obtain ⟨broken,continued,jumps,-,-⟩ := emitted.jumps
  obtain ⟨seen,frames,-⟩ := emitted.tryFrames
  exact ⟨jumps ▸ extends_restart_leave broken continued _,frames ▸ prefix_raise seen _,
    emitted.muted,emitted.underflowed⟩

/-- Whatever is walked through leaves the stacks balanced. -/
theorem walk_balanced (c : WalkContext) (env : Env) :
    (∀ list left, (statements c list env).run s = some (left,s') → Balanced s s') ∧
    (∀ e res, (valueOfExpression c e env).run s = some (res,s') → Balanced s s') ∧
      ∀ e branches, (branchOn c e env).run s = some (branches,s') → Balanced s s' :=
  ⟨fun list _ ran => (follows_statements list env _ _ _ ran).1.balanced,
    fun e _ ran => (emits_value e env _ _ _ ran).1.balanced,
    fun e _ ran => (emits_branchOn e env _ _ _ ran).1.balanced⟩

/-- A switch whose cases leave it and go on with the loop around it. -/
def parting : List Statement := [.switch ⟨{},.literal .null⟩ [⟨none,[.continueStmt {}]⟩,⟨none,[.breakStmt {}]⟩] {}]

theorem walk_balanced_parting : ∃ left s', s'.jumps.map (·.continues.length) = [1] ∧
    (statements (.bare {}) parting {}).run {jumps := [⟨.loop,[],[]⟩]} = some (left,s') ∧
      Balanced {jumps := [⟨.loop,[],[]⟩]} s' :=
  ⟨_,_,rfl,rfl,(walk_balanced (.bare {}) {}).1 parting _ rfl⟩

end Walk
end GradualJs
