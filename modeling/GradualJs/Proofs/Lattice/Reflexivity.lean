import GradualJs.Proofs.Lattice.Instanceof
import GradualJs.Proofs.Lattice.Termination

/-! A type fits itself. It is never found not to, but the comparison may go on without end: the
members of a union are compared with all members in turn, and so with others before themselves. -/
namespace GradualJs.Registry

open Outline

variable {r : Registry}

/-- A type is found to fit itself exactly if the question does not lead on without end, and is never
found not to. -/
theorem isSubtype_self_iff (plain : ∀ id, (r.enumBacking id).Plain) (tame : r.Tame a) (lax : Bool) :
    ((∃ depth, ∀ deeper, depth ≤ deeper → Lattice.isSubtype ⟨r,lax,deeper⟩ a a = some true) ↔
      ¬r.Endless (.subtype lax a a [])) ∧
    ∀ depth, Lattice.isSubtype ⟨r,lax,depth⟩ a a ≠ some false := by
  have fits : r.Fits lax a a := tame.fits_self plain
  refine ⟨?_,fun depth refused => ?_⟩
  · rw [← settled_iff_not_endless,settled_subtype_iff]
    refine ⟨fun answers => ⟨true,answers⟩,?_⟩
    rintro ⟨ans,depth,reached⟩
    cases fits.isSubtype (reached depth (Nat.le_refl _))
    exact ⟨depth,reached⟩
  · cases fits.isSubtype refused

/-- Numbers, arrays of numbers and instances of the class of the knot. -/
def mixed : Union := {primitives := .numberOnly, objects := [.nominal ⟨.array,[.number]⟩,.nominal ⟨⟨3⟩,[]⟩]}

lemma mixed_normal : (registry knot).Normal (.union mixed) := by
  refine .union rfl ⟨2,by decide +kernel⟩ ?_
  simpa [mixed] using ⟨.nominal (by simpa [Ty.number] using normal_primitive rfl),.nominal (by simp)⟩

def maybeMixed : Ty := .record {fields := [{name := "x", type := .union mixed, optional := true}]}

theorem isSubtype_self_optional : ∃ decls, Declarations.collect (program knot) none false = some decls ∧
    decls.registry.Tame maybeMixed ∧
    ∃ depth, ∀ deeper, depth ≤ deeper → Lattice.isSubtype ⟨decls.registry,false,deeper⟩ maybeMixed maybeMixed = some true := by
  obtain ⟨decls,collected,eq,-⟩ := knot_knotted.1
  have answered : Lattice.isSubtype ⟨registry knot,false,5⟩ maybeMixed maybeMixed = some true := by decide +kernel
  have normal := mixed_normal
  rw [← eq] at answered normal
  have tame : decls.registry.Tame maybeMixed := by
    refine .union fun o mem => ?_
    cases List.mem_singleton.mp mem
    exact .record (by simp) (by simpa using normal.tame) (by simpa using normal.unchanged)
  have fits := isSubtype_self_iff (Declarations.collect_kinded collected).enumBacking tame false
  exact ⟨decls,collected,tame,fits.1.mpr fun endless => by simp [isSubtype_eq_none endless] at answered⟩

/-- The record type of the knot, or an object with what it asks for. -/
def tangle : Ty := .union {objects := [.nominal ⟨⟨4⟩,[]⟩, .record {fields := [{name := "q", type := .nominal ⟨3⟩ []}]}]}

lemma tangle_normal : (registry knot).Normal tangle := by
  have alone : (registry knot).Normal (.nominal ⟨3⟩ []) := .union rfl ⟨0,rfl⟩ (by simpa using .nominal (by simp))
  refine .union rfl ⟨1,by decide +kernel⟩ ?_
  simpa using ⟨.nominal (by simp),.record (by simp) (by simpa using alone)⟩

lemma endless_tangle : (registry knot).Endless (.subtype false tangle tangle []) := by
  obtain ⟨-,knotted⟩ := knot_knotted
  obtain ⟨wanted,fields,asked,required,expectedType⟩ := knotted.asks
  refine Needs.endless (fun below _ answers => ?_) (knotted.endless false [] expectedType)
  have itself : Relations.objectSubtype (registry knot) below false (.nominal ⟨⟨4⟩,[]⟩)
      (.nominal ⟨⟨4⟩,[]⟩) = pure true := rfl
  have unnamed (x : Record) : Relations.objectSubtype (registry knot) below false (.record x)
      (.nominal ⟨⟨4⟩,[]⟩) = below.structural false x.fields x.loose [wanted] false := by
    simp [Relations.objectSubtype,Relations.structuralToNominal,fieldsOf,knotted.notObject,knotted.record,fields]
  have present : Field.find? [{name := "q", type := .nominal ⟨3⟩ []}] wanted.name =
      some {name := "q", type := .nominal ⟨3⟩ []} := by
    simp [Field.find?,asked]
  by_contra unanswered
  have stuck : (below.structural false [{name := "q", type := .nominal ⟨3⟩ []}] false [wanted] false).run [] = none :=
    Option.not_isSome_iff_eq_none.mp fun answered =>
      unanswered (answers_property present rfl required answered)
  simp [tangle,Relations.Answers,Relations.step,Relations.subtypeStep,Relations.subtypeUnions,
    itself,unnamed,stuck] at answers

theorem isSubtype_self_tangle : Collects knot ∧ (registry knot).Normal tangle ∧
    ∀ depth, Lattice.isSubtype {registry := registry knot, depth} tangle tangle = none :=
  ⟨knot_knotted.1,tangle_normal,isSubtype_eq_none endless_tangle⟩

end GradualJs.Registry
