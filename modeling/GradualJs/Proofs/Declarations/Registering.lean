import GradualJs.Proofs.Naming.Register

/-! What registration does to the registry. A property of the registry that each of its writes
keeps is kept by all declarations of a program. -/
namespace GradualJs

variable {r : Registry}

namespace Registering

structure Invariant (holds : Registry → Prop) : Prop where
  addNamespace : ∀ r name kind span, holds r → holds (r.addNamespace name kind span).2
  addNominal : ∀ r name kind span, holds r → holds (r.addNominal name kind span).2
  describe : ∀ r id access isAbstract typeParams, holds r →
    holds (r.modifyNominal id ({· with access, isAbstract, typeParams}))
  addEnum : ∀ r name span, holds r → holds (r.addEnum name .number span).2
  addTypedef : ∀ r name meaning span, holds r → holds (r.addTypedef name meaning span).2
  setMember : ∀ r id name mem, holds r → holds (r.setMember id name mem)

namespace Invariant

variable (inv : Invariant holds)
include inv

lemma ensureNamespace (span : Span) (segments : List String) (held : holds r) :
    holds (r.ensureNamespace span segments).2 := by
  induction segments with
  | nil => exact held
  | cons last parents ih =>
    rw [Registry.ensureNamespace]
    dsimp only
    split
    · exact held
    · exact inv.setMember _ _ _ _ (inv.addNamespace _ _ _ _ ih)

lemma attach (name : String) (mem : Member) (span : Span) (held : holds r) : holds (r.attach name mem span) := by
  unfold Registry.attach
  split
  · exact held
  · exact inv.setMember _ _ _ _ (inv.ensureNamespace span _ held)

lemma add (naming : Naming) (held : holds r) : holds (naming.add r) := by
  cases naming with
  | nominal name kind jsdoc src span =>
    exact inv.describe _ _ _ _ _ (inv.addNominal _ _ _ _ held)
  | enumType name span => exact inv.addEnum _ _ _ held
  | typedef name meaning span => exact inv.addTypedef _ _ _ _ held
  | object name real span => exact inv.addNamespace _ _ _ _ held

lemma apply (naming : Naming) (held : holds r) : holds (naming.apply r) := by
  unfold Naming.apply
  split
  · exact inv.attach _ _ _ (inv.add naming held)
  · exact held

lemma after (namings : List Naming) (held : holds r) : holds (r.after namings) := by
  induction namings generalizing r with
  | nil => exact held
  | cons naming rest ih => exact ih (inv.apply naming held)

end Invariant

lemma keeps_registration (inv : Invariant holds)
    (prog : Program) (externs : Option Program) (start : holds Registry.initial) :
    holds (Declarations.registered prog externs).registry := by
  rw [Declarations.registry_registered]
  exact inv.after _ start

end Registering
end GradualJs
