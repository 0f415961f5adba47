import GradualJs.Proofs.Declarations.Members
import GradualJs.Proofs.Registry.Outline

/-! Inherited declarations. A property that is declared by a class above is always found from
below, but the nearest type that it is written to decides whether it is found declared: a mere
write in a constructor hides the declaration. -/
namespace GradualJs

open Option

/-! A barge gives a number that vessels declare another value; a ferry leaves it alone. -/
namespace Fleet

def vessel : Outline where
  name := "Vessel"
  doc := {kind := some .constructor}
  properties := [("depth",Outline.named "number" [])]

def heir (name : String) (number : Nat) (body : List Statement) : Statement :=
  .function ⟨name,{}⟩ {
    id := number
    parameters := []
    body := ⟨body,{}⟩
    jsdoc := some {kind := some .constructor, supertypes := [Outline.named "Vessel" []]}}

def write : Statement :=
  .expression ⟨{},.assignment none ⟨{},.member ⟨{},.this⟩ "depth" {}⟩ ⟨{},.literal (.string "deep")⟩⟩ none

def program : Program where
  statements := (Outline.program [vessel]).statements ++ [heir "Barge" 1 [write],heir "Ferry" 2 []]

def vesselId : NominalId := ⟨3⟩
def barge : NominalId := ⟨4⟩
def ferry : NominalId := ⟨5⟩
def declarations : Declarations := (Declarations.collect program none false).get (by decide +kernel)

abbrev registry : Registry := declarations.registry

/-- The type on which instances of a class find the number, and whether it is declared there. -/
def found (id : NominalId) : Option (NominalId × Bool) :=
  (registry.lookupProperty (Collecting.selfInstance registry id) "depth").map fun found =>
    (found.owner,found.decl.declared)

/-- The nearest type that the number is written to. -/
def nearest (id : NominalId) : Option NominalId :=
  ((registry.ancestry (Collecting.selfInstance registry id)).find? fun i =>
    Declarations.written program none registry i.id "depth").map (·.id)

/-- What is found out about the program by running it. -/
lemma outcome : declarations.diagnostics.isEmpty = true ∧
    (∀ id ∈ [barge,ferry], vesselId ∈ registry.superclassChain id) ∧
    (registry.nominal vesselId).standing "depth" = some true ∧
    Declarations.declared program none registry vesselId "depth" = true ∧
    nearest ferry = some vesselId ∧ found barge = some (barge,false) := by
  decide +kernel

lemma collected : Declarations.collect program none false = some declarations := (some_get _).symm

lemma declared_above (id : NominalId) (heir : id ∈ [barge,ferry]) : ∃ ancestor ∈ registry.superclassChain id, ∃ decl,
      (registry.nominal ancestor).properties.get? "depth" = some decl ∧ decl.declared = true := by
  obtain ⟨-,heirs,stands,-⟩ := outcome
  obtain ⟨decl,has,declared⟩ := map_eq_some_iff.mp stands
  exact ⟨vesselId,heirs id heir,decl,has,declared⟩

end Fleet

namespace Declarations

variable {declarations : Declarations}

/-- If a class or one of its superclasses declares a property, then the property is found on
the instances of the class, on the nearest type that it is written to, and it is found declared
exactly if one of the writes to that type declares it. -/
theorem inherited_declared_iff
    (collected : collect program externs legacy = some declarations) (id : NominalId) (name : String)
    (above : ∃ ancestor ∈ declarations.registry.superclassChain id, ∃ decl,
      (declarations.registry.nominal ancestor).properties.get? name = some decl ∧ decl.declared = true) :
    let self := Collecting.selfInstance declarations.registry id
    ∃ found nearest, declarations.registry.lookupProperty self name = some found ∧
      (declarations.registry.ancestry self).find?
        (fun i => written program externs declarations.registry i.id name) = some nearest ∧
      found.owner = nearest.id ∧
      (found.decl.declared = true ↔ declared program externs declarations.registry nearest.id name = true) := by
  intro self
  have standing (i : Instance) := collect_standing collected i.id name
  obtain ⟨ancestor,onChain,decl,has,-⟩ := above
  have looked := declarations.registry.lookupProperty_eq self name
  simp only [(standing _).1] at looked
  cases reached : (declarations.registry.ancestry self).find? fun i =>
      written program externs declarations.registry i.id name with
  | none =>
    -- The class that declares it is an ancestor, so it is not left out.
    obtain ⟨i,visited,rfl⟩ := List.mem_map.mp
      (Registry.chainFrom_subset_ancestry self _ _ self.id (Registry.ancestry_complete self).1 onChain)
    have unwritten := List.find?_eq_none.mp reached i visited
    rw [← (standing i).1,Nominal.standing,has] at unwritten
    exact absurd rfl unwritten
  | some nearest =>
    have wrote := List.find?_some reached
    rw [← (standing nearest).1,Nominal.standing,isSome_map] at wrote
    obtain ⟨own,held⟩ := isSome_iff_exists.mp wrote
    rw [reached,bind_some,Registry.ownProperty,held] at looked
    refine ⟨_,nearest,looked,rfl,rfl,?_⟩
    rw [← (standing nearest).2,Nominal.standing,held]
    rfl

/-- A ferry finds the number declared, where vessels declare it. -/
theorem inherited_declared_ferry : ∃ declarations, collect Fleet.program none false = some declarations ∧
    (∃ ancestor ∈ declarations.registry.superclassChain Fleet.ferry, ∃ decl,
      (declarations.registry.nominal ancestor).properties.get? "depth" = some decl ∧ decl.declared = true) ∧
    ∃ found, declarations.registry.lookupProperty
        (Collecting.selfInstance declarations.registry Fleet.ferry) "depth" = some found ∧
      found.owner = Fleet.vesselId ∧ found.decl.declared = true := by
  have above := Fleet.declared_above Fleet.ferry (by simp)
  obtain ⟨-,-,-,writes,nearestId,-⟩ := Fleet.outcome
  obtain ⟨found,nearest,looked,reached,owner,flag⟩ := inherited_declared_iff Fleet.collected Fleet.ferry "depth" above
  rw [Fleet.nearest,reached,map_some,some.injEq] at nearestId
  rw [nearestId] at owner flag
  exact ⟨Fleet.declarations,Fleet.collected,above,found,looked,owner,flag.mpr writes⟩

/-- A barge does not: the value that its constructor writes hides the declaration. -/
theorem inherited_declaration_hidden : ∃ declarations,
    collect Fleet.program none false = some declarations ∧ declarations.diagnostics = [] ∧
    (∃ ancestor ∈ declarations.registry.superclassChain Fleet.barge, ∃ decl,
      (declarations.registry.nominal ancestor).properties.get? "depth" = some decl ∧ decl.declared = true) ∧
    ¬∃ found, declarations.registry.lookupProperty
        (Collecting.selfInstance declarations.registry Fleet.barge) "depth" = some found ∧
      found.decl.declared = true := by
  obtain ⟨quiet,-,-,-,-,inferred⟩ := Fleet.outcome
  refine ⟨Fleet.declarations,Fleet.collected,by simpa using quiet,
    Fleet.declared_above Fleet.barge (by simp),?_⟩
  rintro ⟨found,looked,declared⟩
  rw [Fleet.found,looked,map_some,declared] at inferred
  simp at inferred

end Declarations

end GradualJs
