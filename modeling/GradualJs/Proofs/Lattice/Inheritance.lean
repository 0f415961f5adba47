import GradualJs.Proofs.Declarations.Cycles
import GradualJs.Proofs.Lattice.Instanceof
import GradualJs.Proofs.Lattice.Raw

/-! Classes and interfaces are compared by name. One fits where another is expected if it is that
type or inherits from it. Since no type inherits from itself, this is a partial order. -/
namespace GradualJs

namespace Registry

variable {r : Registry}

/-- One type is the other or inherits from it. `Object` is above all types. -/
def Extends (r : Registry) (x y : NominalId) : Prop := y = .object ∨ Relation.ReflTransGen r.Names x y

lemma Extends.refl (r : Registry) (x : NominalId) : r.Extends x x := .inr .refl

namespace Acyclic

variable (acyclic : r.Acyclic)
include acyclic

lemma eq_object (above : Relation.ReflTransGen r.Names .object y) : y = .object := by
  rcases above.cases_head with eq | ⟨_,names,-⟩
  · exact eq.symm
  · exact absurd names (not_names_of_supertypes acyclic.object)

lemma extends_trans (first : r.Extends x y) (second : r.Extends y z) : r.Extends x z := by
  rcases second with top | second
  · exact .inl top
  rcases first with rfl | first
  · exact .inl (acyclic.eq_object second)
  · exact .inr (first.trans second)

lemma extends_antisymm (first : r.Extends x y) (second : r.Extends y x) : x = y := by
  rcases first with rfl | first
  · rcases second with top | second
    · exact top
    · exact acyclic.eq_object second
  · rcases second with rfl | second
    · exact (acyclic.eq_object first).symm
    · rcases Relation.reflTransGen_iff_eq_or_transGen.mp first with eq | inherits
      · exact eq.symm
      · exact absurd (inherits.trans_left second) (acyclic.irrefl x)

end Acyclic

/-- A visit of one type leads to the other: a class may extend `Object` without saying so. -/
def LeadsTo (r : Registry) (x y : NominalId) : Prop := r.Names x y ∨ r.extendsObject x = true ∧ y = .object

lemma leadsTo_iff (i : Instance) (id : NominalId) : r.LeadsTo i.id id ↔ ∃ s ∈ r.supertypesOf i, s.id = id := by
  have explicit : (∃ s ∈ (r.nominal i.id).supertypes.map fun s =>
      (⟨s.id,s.args.map (·.instantiateVars (r.substitutionFor i))⟩ : Instance), s.id = id) ↔
      r.Names i.id id := by
    simp [Names]
  rw [LeadsTo,← explicit]
  by_cases extending : r.extendsObject i.id = true
  · simp [supertypesOf,extending,or_and_right,exists_or,objectInstance,eq_comm]
  · simp [supertypesOf,extending]

lemma upcast_isSome_iff {i : Instance} : (r.upcast i y).isSome = true ↔ Relation.ReflTransGen r.LeadsTo i.id y := by
  rw [← mem_visit length_supertypesOf leadsTo_iff i,upcast]
  split
  · rename_i eq
    exact iff_of_true rfl (eq ▸ (ancestry_complete i).1)
  · simp [ancestry,List.find?_isSome]

namespace Acyclic

variable (acyclic : r.Acyclic)
include acyclic

lemma extends_of_leadsTo (reached : Relation.ReflTransGen r.LeadsTo x y) : r.Extends x y := by
  induction reached with
  | refl => exact .refl r x
  | tail _ step ih =>
    rcases step with names | ⟨-,top⟩
    · exact acyclic.extends_trans ih (.inr (.single names))
    · exact .inl top

lemma upcast_isSome {i : Instance} (eq : i.id = x) (notObject : y ≠ .object) :
    (r.upcast i y).isSome = true ↔ r.Extends x y := by
  rw [upcast_isSome_iff,eq]
  refine ⟨acyclic.extends_of_leadsTo,fun above => ?_⟩
  exact Relation.ReflTransGen.mono (fun _ _ => .inl) _ _ (above.resolve_left notObject)

/-- Where a class or an interface is expected, types are compared by name. -/
lemma isSubtype_raw (byName : (r.nominal y).kind ≠ .record) :
    ∃ ans, Lattice.isSubtype ⟨r,lax,depth + 2⟩ (r.rawType {} x) (r.rawType {} y) =
      some ans ∧ (ans = true ↔ r.Extends x y) := by
  rw [isSubtype_object (by decide)]
  by_cases top : y = .object
  · exact ⟨true,by simp [Relations.objectSubtype,top],by simp [Extends,top]⟩
  · have compared : (Relations.objectSubtype r (.within r (depth + 1)) lax (.nominal (r.raw x))
        (.nominal (r.raw y))) = Relations.instanceSubtype r (.within r (depth + 1)) lax
        (r.raw x) (r.raw y) := if_neg top
    rw [compared,← acyclic.upcast_isSome raw_id top]
    cases found : r.upcast (r.raw x) y with
    | some viewed =>
      refine ⟨true,?_,by simp⟩
      rw [StateT.run'_eq,instanceSubtype_raw found]
      rfl
    | none =>
      refine ⟨false,?_,by simp⟩
      simp [Relations.instanceSubtype,found,byName]

end Acyclic

end Registry

/-- Of two types that are named without arguments the first fits where the second is expected. -/
def Lattice.FitsRaw (l : Lattice) (x y : NominalId) : Prop :=
  l.isSubtype (l.registry.rawType {} x) (l.registry.rawType {} y) = some true

/-- The given types, named without arguments, are ordered by what they inherit from: every question
is answered, and the answers are those of a partial order. -/
structure Lattice.Orders (l : Lattice) (given : NominalId → Prop) : Prop where
  answered : ∀ x y, given x → given y → (l.isSubtype (l.registry.rawType {} x) (l.registry.rawType {} y)).isSome = true
  inherited : ∀ x y, given x → given y → (l.FitsRaw x y ↔ l.registry.Extends x y)
  refl : ∀ x, given x → l.FitsRaw x x
  trans : ∀ x y z, given x → given y → given z → l.FitsRaw x y → l.FitsRaw y z → l.FitsRaw x z
  antisymm : ∀ x y, given x → given y → l.FitsRaw x y → l.FitsRaw y x → x = y

namespace Declarations

variable {decls : Declarations}

/-- Collected classes and interfaces are partially ordered. A generic one counts as named without
arguments, and its ancestors may have any. -/
theorem inheritance_orders (collected : collect prog externs legacy = some decls)
    (lax : Bool) (depth : Nat) : Lattice.Orders ⟨decls.registry,lax,depth + 2⟩ fun id =>
      (decls.registry.nominal id).kind ≠ .record := by
  have acyclic := collect_acyclic collected
  have inherited (x y : NominalId) (byName : (decls.registry.nominal y).kind ≠ .record) :
      Lattice.FitsRaw ⟨decls.registry,lax,depth + 2⟩ x y ↔ decls.registry.Extends x y := by
    obtain ⟨ans,answered,eq⟩ := acyclic.isSubtype_raw (x := x) byName
    rw [Lattice.FitsRaw,answered,← eq,Option.some.injEq]
  refine ⟨fun x y _ byName => ?_,fun x y _ byName => inherited x y byName,fun x byName => ?_,
    fun x y z _ namedY namedZ first second => ?_,fun x y namedX namedY first second => ?_⟩
  · obtain ⟨ans,answered,-⟩ := acyclic.isSubtype_raw (x := x) byName
    rw [answered]
    rfl
  · exact (inherited x x byName).mpr (.refl _ x)
  · rw [inherited _ _ namedY] at first
    rw [inherited _ _ namedZ] at second
    exact (inherited x z namedZ).mpr (acyclic.extends_trans first second)
  · rw [inherited _ _ namedY] at first
    rw [inherited _ _ namedX] at second
    exact acyclic.extends_antisymm first second

/-- A container for numbers, its generic superclass and a class that is unrelated. -/
theorem inheritance_orders_containers : ∃ decls, collect (Outline.program Registry.containers) none false = some decls ∧
    Lattice.Orders ⟨decls.registry,false,4096⟩ fun id =>
      (decls.registry.nominal id).kind ≠ .record := by
  obtain ⟨⟨decls,collected,-⟩,-⟩ := Registry.containers_tested
  exact ⟨decls,collected,inheritance_orders collected false 4094⟩

end Declarations
end GradualJs
