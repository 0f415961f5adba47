import GradualJs.Proofs.Declarations.Kinds
import GradualJs.Proofs.Lattice.Ending
import GradualJs.Proofs.Lattice.Recursion
import GradualJs.Proofs.Registry.Outline
import GradualJs.Proofs.Subtyping.Consistency

/-! Which questions come to an end: those that do not lead on without end. Two types that lead to
each other through object types without a name do, and so do two classes that are arguments of their
own superclass. -/
namespace GradualJs

open Outline

variable {α β : Type} {below : Relations} {x y : Instance}

namespace Registry

variable {r : Registry}

open Outline in
/-- Types that mention themselves: as an argument of an interface, in their properties, and
by way of a superclass with an argument. -/
def boxes : List Outline := [
  {name := "Comparable", doc := {kind := some .interface, templates := ["T"]}},
  {name := "Box", doc := {kind := some .constructor, templates := ["T"]},
    properties := [("value",named "T" [])]},
  {name := "Node", doc := {
      kind := some .constructor
      interfaces := [named "Comparable" [instanceOf "Node" []]]},
    properties := [("next",instanceOf "Node" []),("options",recordOf "size" (named "number" []))]},
  {name := "NodeBox",
    doc := {kind := some .constructor, supertypes := [named "Box" [instanceOf "Node" []]]}},
  {name := "NumberBox",
    doc := {kind := some .constructor, supertypes := [named "Box" [named "number" []]]}},
  {name := "Link", doc := {kind := some .record}, properties := [("next",instanceOf "Link" [])]}]

def boxRanks : Ranks where
  records id := if id = ⟨5⟩ || id = ⟨6⟩ then 1 else 0
  spaces id := if id = .global then 3 else 2
  calls _ := 0
  heights id := if id = ⟨6⟩ then 1 else 0

lemma boxes_ranked : Collects boxes ∧ (registry boxes).Ranked boxRanks :=
  ⟨collects_of_quiet (by decide +kernel),by decide +kernel⟩

/-- A question about two types is answered, from some depth on and always alike, exactly if it
does not lead from question to question without end. Over ranked declarations no question
does. -/
theorem isSubtype_settles_iff {prog : Program} {externs : Option Program} {legacy : Bool} {decls : Declarations}
    (collected : Declarations.collect prog externs legacy = some decls)
    (lax : Bool) (a b : Ty) : ((∃ ans depth, ∀ deeper, depth ≤ deeper →
        Lattice.isSubtype ⟨decls.registry,lax,deeper⟩ a b = some ans) ↔
      ¬decls.registry.Endless (.subtype lax a b [])) ∧ ∀ k, decls.registry.Ranked k →
      ¬decls.registry.Endless (.subtype lax a b []) := by
  rw [← settled_subtype_iff,← settled_iff_not_endless]
  refine ⟨Iff.rfl,fun k ranked => settled_subtype_iff.mpr ?_⟩
  have kinded := Declarations.collect_kinded collected
  obtain ⟨ans,-,depth,reached⟩ := (ending kinded ranked lax [] a b).isSubtype
  exact ⟨ans,depth,reached⟩

theorem isSubtype_settles_boxes : ∃ decls, Declarations.collect (Outline.program boxes) none false = some decls ∧
    decls.registry.Ranked boxRanks ∧ ∃ ans depth, ∀ deeper, depth ≤ deeper →
      Lattice.isSubtype ⟨decls.registry,false,deeper⟩ (.nominal ⟨5⟩ []) (.nominal ⟨8⟩ []) = some ans := by
  obtain ⟨⟨decls,collected,eq,-⟩,ranks⟩ := boxes_ranked
  have ranked : decls.registry.Ranked boxRanks := eq ▸ ranks
  obtain ⟨settles,never⟩ := isSubtype_settles_iff collected false (.nominal ⟨5⟩ []) (.nominal ⟨8⟩ [])
  exact ⟨decls,collected,ranked,settles.mpr (never boxRanks ranked)⟩

/-- An object type with one property, which has to be there. -/
def HasOnly (name : String) (type : Ty) (t : Ty) : Prop :=
  ∃ field exact loose, t = .record ⟨[field],exact,loose⟩ ∧ field.name = name ∧
    field.type = type ∧ field.optional = false

/-- Two types each of which has a property of an object type that leads back to it, where
the properties are asked for by turns. -/
structure Knotted (r : Registry) (src tgt : Instance) (p q : String) : Prop where
  gives : ∃ found, Field.find? (r.instanceFields src) p = some found ∧
    found.optional = false ∧ HasOnly q (.object (.nominal src)) found.type
  asks : ∃ wanted, r.instanceFields tgt = [wanted] ∧ wanted.name = q ∧
    wanted.optional = false ∧ HasOnly p (.object (.nominal tgt)) wanted.type
  record : (r.nominal tgt.id).kind = .record
  notObject : tgt.id ≠ .object

/-- A property that is there and is asked for leads to the question about its type. -/
lemma answers_property {found wanted : Field}
    (present : Field.find? src wanted.name = some found) (given : found.optional = false)
    (required : wanted.optional = false)
    (answered : ((below.structural lax src sourceLoose [wanted] targetLoose).run
      assumed).isSome) : below.Answers (.subtype lax found.type wanted.type assumed) := by
  simp only [Relations.structural,Query.allM_singleton,present,given,required] at answered
  simpa [Relations.Answers] using answered

/-- The comparison of two types that are tied in a knot comes back to itself. -/
lemma Knotted.endless (knot : r.Knotted src tgt p q) (lax : Bool) (assumed : Assumptions)
    (asks : HasOnly p (.object (.nominal tgt)) b) :
    r.Endless (.subtype lax (.object (.nominal src)) b assumed) := by
  obtain ⟨⟨found,present,given,foundType⟩,⟨wanted,fields,asked,required,expectedType⟩, record,notObject⟩ := knot
  have forth {b : Ty} (asks : HasOnly p (.object (.nominal tgt)) b) :
      r.Needs (.subtype lax (.object (.nominal src)) b assumed)
        (.subtype lax found.type (.object (.nominal tgt)) assumed) := by
    obtain ⟨field,exact',loose,rfl,rfl,type,needed⟩ := asks
    intro below _ answers
    rw [Ty.record,Relations.Answers,Relations.step_object] at answers
    rw [← type]
    exact answers_property present given needed answers
  have back : r.Needs (.subtype lax found.type (.object (.nominal tgt)) assumed)
      (.subtype lax (.object (.nominal src)) wanted.type assumed) := by
    obtain ⟨field,exact',loose,eq,named,type,needed⟩ := foundType
    intro below _ answers
    rw [eq,Ty.record,Relations.Answers,Relations.step_object] at answers
    simp only [Relations.objectSubtype,notObject,record,decide_true,Bool.true_or,if_true,
      if_false,Relations.structuralToNominal,fieldsOf,fields] at answers
    have present : Field.find? [field] wanted.name = some field := by
      simp [Field.find?,asked,named]
    rw [← type]
    exact answers_property present needed required answers
  exact (forth asks).endless (endless_of_cycle back (forth expectedType))

open Outline in
def knot : List Outline := [
  {name := "S", doc := {kind := some .constructor},
    properties := [("p",recordOf "q" (instanceOf "S" []))]},
  {name := "R", doc := {kind := some .record}, properties := [("q",recordOf "p" (instanceOf "R" []))]}]

lemma knot_knotted : Collects knot ∧ (registry knot).Knotted ⟨⟨3⟩,[]⟩ ⟨⟨4⟩,[]⟩ "p" "q" := by
  obtain ⟨given,asked,record⟩ : Field.find? ((registry knot).instanceFields ⟨⟨3⟩,[]⟩) "p" =
        some {name := "p", type := .record {fields :=
          [{name := "q", type := .nominal ⟨3⟩ [], declared := true}]}, declared := true} ∧
      (registry knot).instanceFields ⟨⟨4⟩,[]⟩ = [{name := "q", type := .record {fields :=
          [{name := "p", type := .nominal ⟨4⟩ [], declared := true}]}, declared := true}] ∧
      ((registry knot).nominal ⟨4⟩).kind = .record := by
    decide +kernel
  refine ⟨collects_of_quiet (by decide +kernel),⟨_,given,rfl,?_⟩,⟨_,asked,rfl,rfl,?_⟩, record,by decide⟩
  · exact ⟨_,false,false,rfl,rfl,rfl,rfl⟩
  · exact ⟨_,false,false,rfl,rfl,rfl,rfl⟩

/-- A class and a record type that are never compared to an end. -/
theorem isSubtype_knot_unanswered : Outline.Collects knot ∧ ∀ depth,
    Lattice.isSubtype {registry := Outline.registry knot, depth} (.object (.nominal ⟨⟨3⟩,[]⟩))
      (.record {fields := [{name := "p", type := .object (.nominal ⟨⟨4⟩,[]⟩)}]}) = none := by
  refine ⟨knot_knotted.1,fun depth => ?_⟩
  exact isSubtype_eq_none (knot_knotted.2.endless false [] ⟨_,false,false,rfl,rfl,rfl,rfl⟩) depth

/-- Two types are joined, from some depth on and always alike, exactly if their join does not
lead from question to question without end. Over ranked declarations no join does. -/
theorem join_settles_iff {prog : Program} {externs : Option Program} {legacy : Bool} {decls : Declarations}
    (collected : Declarations.collect prog externs legacy = some decls)
    (lax : Bool) (a b : Ty) : ((∃ joined depth, ∀ deeper, depth ≤ deeper →
        Lattice.join ⟨decls.registry,lax,deeper⟩ a b = some joined) ↔
      ¬decls.registry.Endless (.join a b)) ∧
    ∀ k, decls.registry.Ranked k → ¬decls.registry.Endless (.join a b) := by
  rw [← settled_join_iff lax,← settled_iff_not_endless]
  refine ⟨Iff.rfl,fun k ranked => (settled_join_iff lax).mpr ?_⟩
  have kinded := Declarations.collect_kinded collected
  obtain ⟨joined,-,depth,reached⟩ := joins_ending kinded ranked a b
  exact ⟨joined,depth,reached⟩

theorem join_settles_boxes : ∃ decls, Declarations.collect (Outline.program boxes) none false = some decls ∧
    decls.registry.Ranked boxRanks ∧ ∃ joined depth, ∀ deeper, depth ≤ deeper →
      Lattice.join ⟨decls.registry,false,deeper⟩ (.nominal ⟨6⟩ []) (.nominal ⟨7⟩ []) = some joined := by
  obtain ⟨⟨decls,collected,eq,-⟩,ranks⟩ := boxes_ranked
  have ranked : decls.registry.Ranked boxRanks := eq ▸ ranks
  obtain ⟨settles,never⟩ := join_settles_iff collected false (.nominal ⟨6⟩ []) (.nominal ⟨7⟩ [])
  exact ⟨decls,collected,ranked,settles.mpr (never boxRanks ranked)⟩

/-- Two classes without more in common than a superclass, which takes each of them as the
same argument. -/
structure SelfApplied (r : Registry) (x y : Instance) (ancestor : NominalId) : Prop where
  distinct : x.id ≠ y.id
  unrelated : r.upcast x y.id = none ∧ r.upcast y x.id = none
  classes : (r.nominal x.id).kind = .classType ∧ (r.nominal y.id).kind = .classType
  common : r.commonSuperclass x.id y.id = some ancestor
  arguments : ∃ left right, r.upcast x ancestor = some left ∧ r.upcast y ancestor = some right ∧
    (Ty.object (.nominal x),Ty.object (.nominal y)) ∈ padArgs left.args right.args

lemma mapM_eq_none {list : List α} (mem : a ∈ list) (missing : f a = none) : list.mapM f = none := by
  induction list with
  | nil => cases mem
  | cons first rest ih =>
    rw [List.mapM_cons]
    rcases List.mem_cons.mp mem with rfl | inRest
    · simp [missing]
    · cases f first <;> simp [ih inRest]

lemma SelfApplied.joinDistinct_eq_none (applied : r.SelfApplied x y ancestor)
    (missing : below.join (.object (.nominal x)) (.object (.nominal y)) = none) :
    Relations.joinDistinct r below x y = none := by
  obtain ⟨-,⟨forth,back⟩,⟨classX,classY⟩,common,left,right,viewX,viewY,mem⟩ := applied
  have arguments : (padArgs left.args right.args).mapM (fun pair => below.join pair.1 pair.2) = none :=
    mapM_eq_none mem missing
  simp [Relations.joinDistinct,Relations.instanceSubtype,forth,back,classX,classY,common,
    viewX,viewY,joinInstances,arguments]

lemma SelfApplied.endless (applied : r.SelfApplied x y ancestor) :
    r.Endless (.join (.object (.nominal x)) (.object (.nominal y))) := by
  have needs : r.Needs (.join (.object (.nominal x)) (.object (.nominal y)))
      (.join (.object (.nominal x)) (.object (.nominal y))) := by
    intro below _ answers
    by_contra missing
    have distinct := applied.joinDistinct_eq_none (Option.not_isSome_iff_eq_none.mp missing)
    simp [Relations.Answers,Relations.step,Ty.object,MergeRules.joinStep,MergeRules.joinUnions,
      normalizeObjects,absorb,takeCombined,MergeRules.combine,applied.distinct,
      Relations.mergeRules,distinct] at answers
  exact endless_of_cycle needs needs

open Outline in
def selfish : List Outline := [
  {name := "P", doc := {kind := some .constructor, templates := ["T"]}},
  {name := "A", doc := {kind := some .constructor, supertypes := [named "P" [instanceOf "A" []]]}},
  {name := "B", doc := {kind := some .constructor, supertypes := [named "P" [instanceOf "B" []]]}}]

lemma selfish_applied : Collects selfish ∧ (registry selfish).SelfApplied ⟨⟨4⟩,[]⟩ ⟨⟨5⟩,[]⟩ ⟨3⟩ := by
  obtain ⟨unrelated,classes,common,left,right⟩ : ((registry selfish).upcast ⟨⟨4⟩,[]⟩ ⟨5⟩ = none ∧
        (registry selfish).upcast ⟨⟨5⟩,[]⟩ ⟨4⟩ = none) ∧
      (((registry selfish).nominal ⟨4⟩).kind = .classType ∧ ((registry selfish).nominal ⟨5⟩).kind = .classType) ∧
      (registry selfish).commonSuperclass ⟨4⟩ ⟨5⟩ = some ⟨3⟩ ∧
      (registry selfish).upcast ⟨⟨4⟩,[]⟩ ⟨3⟩ = some ⟨⟨3⟩,[.nominal ⟨4⟩ []]⟩ ∧
      (registry selfish).upcast ⟨⟨5⟩,[]⟩ ⟨3⟩ = some ⟨⟨3⟩,[.nominal ⟨5⟩ []]⟩ := by
    decide +kernel
  exact ⟨collects_of_quiet (by decide +kernel),by decide,unrelated,classes,common,
    _,_,left,right,by simp [padArgs,Ty.nominal]⟩

theorem join_selfish_unanswered : Outline.Collects selfish ∧ ∀ depth,
    Lattice.join {registry := Outline.registry selfish, depth} (.object (.nominal ⟨⟨4⟩,[]⟩))
      (.object (.nominal ⟨⟨5⟩,[]⟩)) = none :=
  ⟨selfish_applied.1,join_eq_none selfish_applied.2.endless⟩

end Registry
end GradualJs
