import GradualJs.Declarations
import GradualJs.Proofs.Ty.DecidableEq

/-! Outlines: programs that do nothing but declare types, each by a function and the
properties of its prototype. -/
namespace GradualJs

structure Outline where
  name : String
  doc : JsDoc
  properties : List (String × TypeExpr) := []

namespace Outline

def function (o : Outline) (number : Nat) : Statement :=
  .function ⟨o.name,{}⟩ {id := number, parameters := [], body := ⟨[],{}⟩, jsdoc := some o.doc}

def property (o : Outline) (name : String) (type : TypeExpr) : Statement :=
  let prototype : Expression := ⟨{},.member ⟨{},.identifier ⟨o.name,{}⟩⟩ "prototype" {}⟩
  .expression ⟨{},.member prototype name {}⟩ (some {declaredType := some type})

def program (outlines : List Outline) : Program where
  statements := (outlines.zipIdx.map fun (o,number) => o.function number) ++
    outlines.flatMap fun o => o.properties.map fun (name,type) => o.property name type

def registry (outlines : List Outline) : Registry :=
  ((Declarations.collect (program outlines) none false).map (·.registry)).getD {}

def named (name : String) (args : List TypeExpr) : TypeExpr := ⟨.named name args,{}⟩
def instanceOf (name : String) (args : List TypeExpr) : TypeExpr := ⟨.nonNull (named name args),{}⟩
def recordOf (property : String) (type : TypeExpr) : TypeExpr := ⟨.record [⟨property,some type⟩],{}⟩

/-- The declarations are collected, and nothing is reported about them. -/
def Collects (outlines : List Outline) : Prop :=
  ∃ decls, Declarations.collect (program outlines) none false = some decls ∧
    decls.registry = registry outlines ∧ decls.diagnostics = []

lemma collects_of_quiet (quiet : ((Declarations.collect (program outlines) none false).map
      (·.diagnostics.isEmpty)) = some true) : Collects outlines := by
  obtain ⟨decls,collected,empty⟩ := Option.map_eq_some_iff.mp quiet
  exact ⟨decls,collected,by simp [registry,collected],by simpa using empty⟩

end Outline
end GradualJs
