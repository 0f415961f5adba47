import GradualJs.Lattice.Relations
import GradualJs.Proofs.Registry.Weight

/-! Joins and meets over one level of answers. If the questions, joins and meets below can
be had and keep types light, then so can the joins and meets of this level. -/
namespace GradualJs

open Relations Option

variable {x y : Instance} {u : Union}

variable {ι I : Type}

namespace Relations

variable {L : Lifting I Option} {r : I → Registry} {below : I → Relations} {Q : Obj → Prop}

lemma holds_meetArgs (meets : L.Keeps P fun i => (below i).meet lax)
    (good : ∀ pair ∈ pairs, P pair.1 ∧ P pair.2) : L.Holds (fun found => ∀ args ∈ found, ∀ a ∈ args, P a)
      fun i => meetInstances.meetArgs (below i) lax pairs := by
  induction pairs with
  | nil => exact L.value (by simp)
  | cons pair rest ih =>
    obtain ⟨⟨first,second⟩,others⟩ := List.forall_mem_cons.mp good
    simp only [meetInstances.meetArgs]
    refine L.sequence (meets pair.1 pair.2 first second) fun arg goodArg => ?_
    split
    · exact L.value (by simp)
    · refine L.sequence (ih others) fun found goodFound => L.value ?_
      cases found with
      | none => simp
      | some args =>
        have := goodFound args rfl
        simpa using ⟨goodArg,this⟩

lemma holds_meetInstances (meets : L.Keeps P fun i => (below i).meet lax)
    (pairs : ∀ pair ∈ padArgs x.args y.args, P pair.1 ∧ P pair.2) :
    L.Holds (fun found => ∀ met ∈ found, met.id = x.id ∧ ∀ a ∈ met.args, P a)
      fun i => meetInstances (below i) lax x y := by
  refine L.sequence (holds_meetArgs meets pairs) fun found good => ?_
  refine L.value fun met mem => ?_
  obtain ⟨args,inFound,rfl⟩ := map_eq_some_iff.mp mem
  exact ⟨rfl,good args inFound⟩

lemma holds_meetFields {y : Record} (meets : L.Keeps P fun i => (below i).meet lax)
    (good : ∀ f ∈ fields, P f.type) (goodY : ∀ g ∈ y.fields, P g.type) :
    L.Holds (fun found => ∀ met ∈ found, ∀ f ∈ met, P f.type) fun i => meetFields (below i) lax y fields := by
  induction fields with
  | nil => exact L.value (by simp)
  | cons f rest ih =>
    obtain ⟨goodF,others⟩ := List.forall_mem_cons.mp good
    have extended (field : Field) (goodField : P field.type) :
        L.Holds (fun found => ∀ met ∈ found, ∀ g ∈ met, P g.type) fun i => do
          return (← meetFields (below i) lax y rest).map (field :: ·) := by
      refine L.sequence (ih others) fun found goodFound => L.value fun met mem => ?_
      obtain ⟨fields,inFound,rfl⟩ := map_eq_some_iff.mp mem
      exact List.forall_mem_cons.mpr ⟨goodField,goodFound fields inFound⟩
    simp only [meetFields]
    cases found : Field.find? y.fields f.name with
    | none =>
      simp only
      split
      · exact L.value (by simp)
      · exact extended f goodF
    | some g =>
      refine L.sequence (meets f.type g.type goodF (goodY g (Field.find?_mem found))) fun type goodType => ?_
      split
      · exact L.value (by simp)
      · exact extended _ goodType

lemma holds_meetRecords {x y : Record} (meets : L.Keeps P fun i => (below i).meet lax)
    (fieldsX : ∀ f ∈ x.fields, P f.type) (fieldsY : ∀ g ∈ y.fields, P g.type) :
    L.Holds (fun found => ∀ met ∈ found, ∀ f ∈ met.fields, P f.type) fun i => meetRecords (below i) lax x y := by
  refine L.sequence (holds_meetFields meets fieldsX fieldsY) fun found good => ?_
  cases found with
  | none => exact L.value (by simp)
  | some left =>
    simp only
    split
    · exact L.value (by simp)
    · refine L.value ?_
      rintro met ⟨⟩ f mem
      rcases List.mem_append.mp mem with inLeft | inRight
      · exact good left rfl f inLeft
      · exact fieldsY f (List.mem_filter.mp inRight).1

/-- Two objects that are compared meet in one of them or not at all. -/
lemma holds_meetComparable (goodA : Q a) (goodB : Q b) (forth : ∀ assumed, L.Holds (fun _ => True)
      fun i => (objectSubtype (r i) (below i) lax a b).run assumed)
    (back : ∀ assumed, L.Holds (fun _ => True) fun i => (objectSubtype (r i) (below i) lax b a).run assumed) :
    L.Holds (fun found => ∀ o ∈ found, Q o) fun i => meetComparable (r i) (below i) lax a b := by
  unfold meetComparable
  refine L.sequence (forth []) ?_
  rintro ⟨fits,assumed⟩ -
  cases fits with
  | true => exact L.value (by simpa using goodA)
  | false =>
    refine L.sequence (back assumed) ?_
    rintro ⟨fits,-⟩ -
    cases fits with
    | true => exact L.value (by simpa using goodB)
    | false =>
      simp only [Bool.false_eq_true,if_false]
      split
      · refine L.value fun o mem => ?_
        split at mem <;> simp_all
      · refine L.value fun o mem => ?_
        split at mem <;> simp_all
      · exact L.value (by simp)

/-- What meets keep for instances and records, and for objects that are compared, they keep
for all. -/
lemma holds_meetObjects (goodA : Q a) (goodB : Q b) (instances : ∀ x y, x.id = y.id → Q (.nominal x) → Q (.nominal y) →
      L.Holds (fun found => ∀ met ∈ found, Q (.nominal met)) fun i => meetInstances (below i) lax x y)
    (records : ∀ x y, Q (.record x) → Q (.record y) → L.Holds (fun found => ∀ met ∈ found, Q (.record met))
        fun i => meetRecords (below i) lax x y) (compared : L.Holds (fun found => ∀ o ∈ found, Q o)
      fun i => meetComparable (r i) (below i) lax a b) : L.Holds (fun found => ∀ o ∈ found, Q o)
      fun i => meetObjects (r i) (below i) lax a b := by
  cases a with
  | nominal x =>
    cases b with
    | nominal y =>
      simp only [meetObjects]
      by_cases eq : x.id = y.id
      · simp only [eq,if_true]
        refine L.map (instances x y eq goodA goodB) fun found good o mem => ?_
        obtain ⟨met,inFound,rfl⟩ := map_eq_some_iff.mp mem
        exact good met inFound
      · simp only [eq,if_false]
        exact compared
    | record _ | function _ | namespaceValue _ => exact compared
  | record x =>
    cases b with
    | record y =>
      refine L.map (records x y goodA goodB) fun found good o mem => ?_
      obtain ⟨met,inFound,rfl⟩ := map_eq_some_iff.mp mem
      exact good met inFound
    | nominal _ | function _ | namespaceValue _ => exact compared
  | function f =>
    cases b with
    | function g =>
      simp only [meetObjects]
      by_cases eq : Ty.sameFunction f g
      · simp only [eq,if_true]
        exact L.value (by simpa using goodA)
      · simp only [eq]
        exact compared
    | nominal _ | record _ | namespaceValue _ => exact compared
  | namespaceValue x =>
    cases b with
    | namespaceValue y =>
      refine L.value fun o mem => ?_
      split at mem
      · cases mem
        exact goodA
      · cases mem
    | nominal _ | record _ | function _ => exact compared

/-- A meet takes one of two types as it is, unless both are unions. -/
lemma holds_meetStep {P : Ty → Prop} (goodA : P a) (goodB : P b)
    (unions : ∀ u v, a = .union u → b = .union v → L.Holds P fun i => meetUnions (r i) (below i) lax u v) :
    L.Holds P fun i => meetStep (r i) (below i) lax a b := by
  cases a with
  | bottom => exact L.value goodA
  | top => cases b <;> exact L.value goodB
  | unknown =>
    cases b with
    | top => exact L.value goodA
    | bottom | unknown | union => exact L.value goodB
  | union u =>
    cases b with
    | bottom => exact L.value goodB
    | top | unknown => exact L.value goodA
    | union v => exact unions u v rfl rfl

end Relations

namespace Limits

variable {l : Limits ι} {L : Lifting I Option} {below : I → Relations}

lemma holds_meetInstances (meets : l.Keeps L (l.inInstance cost x.id) fun i => (below i).meet lax)
    (eq : x.id = y.id) (lightX : l.LightObject cost (.nominal x))
    (lightY : l.LightObject cost (.nominal y)) :
    L.Holds (fun found => ∀ met ∈ found, l.LightObject cost (.nominal met))
      fun i => Relations.meetInstances (below i) lax x y := by
  obtain ⟨affords,-⟩ := lightObject_nominal.mp lightX
  refine L.mono (Relations.holds_meetInstances meets (light_padArgs eq lightX lightY)) ?_
  intro found light met mem
  obtain ⟨ids,args⟩ := light met mem
  rw [← ids] at affords args
  exact lightObject_nominal.mpr ⟨affords,args⟩

lemma holds_meetRecords {x y : Record} (meets : l.Keeps L (l.inRecord cost) fun i => (below i).meet lax)
    (lightX : l.LightObject cost (.record x)) (lightY : l.LightObject cost (.record y)) :
    L.Holds (fun found => ∀ met ∈ found, l.LightObject cost (.record met))
      fun i => Relations.meetRecords (below i) lax x y := by
  obtain ⟨affords,fieldsX⟩ := lightObject_record.mp lightX
  obtain ⟨-,fieldsY⟩ := lightObject_record.mp lightY
  refine L.mono (Relations.holds_meetRecords meets fieldsX fieldsY) fun found light met mem => ?_
  exact lightObject_record.mpr ⟨affords,light met mem⟩

end Limits

namespace Registry

def commonViews (r : Registry) (x y : Instance) : Option (Instance × Instance) := do
  let ancestor ← r.commonSuperclass x.id y.id
  let left ← r.upcast x ancestor
  let right ← r.upcast y ancestor
  return (left,right)

lemma commonViews_eq_some {r : Registry} : r.commonViews x y = some (left,right) ↔ ∃ ancestor,
      r.commonSuperclass x.id y.id = some ancestor ∧ r.upcast x ancestor = some left ∧
        r.upcast y ancestor = some right := by
  simp only [commonViews,bind_eq_bind,bind_eq_some_iff,pure_def, some.injEq,Prod.mk.injEq]
  constructor
  · rintro ⟨ancestor,common,left',viewX,right',viewY,rfl,rfl⟩
    exact ⟨ancestor,common,viewX,viewY⟩
  · rintro ⟨ancestor,common,viewX,viewY⟩
    exact ⟨ancestor,common,left,viewX,right,viewY,rfl,rfl⟩

end Registry

/-- What a join or a meet at this level may use of the level below. -/
structure LevelKeeps (l : Limits ι) (L : Lifting I Option) (r : I → Registry)
    (below : I → Relations) (cost : ι → Nat) : Prop where
  join : ∀ further, l.Inside cost further → l.Keeps L further fun i => (below i).join
  meet : ∀ lax further, l.Inside cost further → l.Keeps L further fun i => (below i).meet lax
  instances : ∀ x y, l.LightObject (l.inUnion cost) (.nominal x) →
    l.LightObject (l.inUnion cost) (.nominal y) → ∀ assumed,
    L.Holds (fun _ => True) fun i => (instanceSubtype (r i) (below i) false x y).run assumed
  objects : ∀ lax a b, l.LightObject (l.inUnion cost) a → l.LightObject (l.inUnion cost) b → ∀ assumed,
    L.Holds (fun _ => True) fun i => (objectSubtype (r i) (below i) lax a b).run assumed
  backings : ∀ id t, l.Light cost t →
    L.Holds (fun _ => True) fun i => (below i).isSubtype false ((r i).enumBacking id) t
  members : ∀ lax id t, l.Light cost t → L.Holds (fun _ => True) fun i => (below i).isSubtype lax (.enumMember id) t
  /-- All registries view two classes in the same way at their common superclass. -/
  superclass : ∀ x y, l.LightObject (l.inUnion cost) (.nominal x) →
    l.LightObject (l.inUnion cost) (.nominal y) → ∃ views, (∀ i, (r i).commonViews x y = views) ∧
      ∀ left right, views = some (left,right) → left.id = right.id ∧ l.LightObject (l.inUnion cost) (.nominal left) ∧
        l.LightObject (l.inUnion cost) (.nominal right)

namespace LevelKeeps

open Limits

variable {l : Limits ι} {L : Lifting I Option} {r : I → Registry} {below : I → Relations}
  {cost : ι → Nat} (level : LevelKeeps l L r below cost)
include level

lemma holds_joinDistinct (lightX : l.LightObject (l.inUnion cost) (.nominal x))
    (lightY : l.LightObject (l.inUnion cost) (.nominal y)) :
    L.Holds (fun found => ∀ o ∈ found, l.LightObject (l.inUnion cost) o) fun i => joinDistinct (r i) (below i) x y := by
  unfold joinDistinct
  refine L.sequence (level.instances x y lightX lightY []) ?_
  rintro ⟨fits,assumed⟩ -
  cases fits with
  | true => exact L.value (by simpa using lightY)
  | false =>
    refine L.sequence (level.instances y x lightY lightX assumed) ?_
    rintro ⟨fits,-⟩ -
    cases fits with
    | true => exact L.value (by simpa using lightX)
    | false =>
      obtain ⟨views,shared,lightViews⟩ := level.superclass x y lightX lightY
      have eq (i : I) : (do
          let ancestor ← (r i).commonSuperclass x.id y.id
          let left ← (r i).upcast x ancestor
          let right ← (r i).upcast y ancestor
          return (left,right)) = views := shared i
      simp only [Bool.false_eq_true,if_false,eq]
      cases views with
      | none => exact L.value (by simp)
      | some pair =>
        obtain ⟨ids,lightLeft,lightRight⟩ := lightViews pair.1 pair.2 rfl
        have joins := level.join (l.inInstance (l.inUnion cost) pair.1.id) fun _ => Nat.le_add_right _ _
        refine L.sequence (holds_joinInstances joins ids lightLeft lightRight) fun joined light => ?_
        exact L.value (by simpa using light)

lemma holds_absorbEnums (light : ∀ o ∈ u.objects, l.LightObject (l.inUnion cost) o)
    (affords : l.Affords cost) : L.Holds (fun settled => settled.objects ⊆ u.objects)
      fun i => absorbEnums (r i) (below i) u := by
  unfold absorbEnums
  dsimp only
  split
  · exact L.value (List.Subset.refl _)
  · have rest := light_ofUnion (u := {u with enums := []}) affords light
    refine L.sequence (L.filterM (q := fun _ _ => True) fun id _ => ?_) fun enums _ => L.value (List.Subset.refl _)
    exact L.sequence (level.backings id _ rest) fun _ _ => L.value trivial

lemma rulesKeep (affords : l.Affords cost) : l.RulesKeep L cost fun i => mergeRules (r i) (below i) where
  join := level.join
  meet := level.meet false
  distinct _ _ lightX lightY := level.holds_joinDistinct lightX lightY
  settle _ light := level.holds_absorbEnums light affords

lemma keeps_join : l.Keeps L cost fun i => (mergeRules (r i) (below i)).joinStep :=
  fun a b lightA lightB => keeps_joinStep (level.rulesKeep lightA.affords) a b lightA lightB

lemma holds_meetObjects (lax : Bool)
    (lightA : l.LightObject (l.inUnion cost) a) (lightB : l.LightObject (l.inUnion cost) b) :
    L.Holds (fun found => ∀ o ∈ found, l.LightObject (l.inUnion cost) o)
      fun i => Relations.meetObjects (r i) (below i) lax a b := by
  apply Relations.holds_meetObjects lightA lightB
  · intro x y
    exact holds_meetInstances (level.meet lax _ fun _ => Nat.le_add_right _ _)
  · intro x y
    exact holds_meetRecords (level.meet lax _ fun _ => Nat.le_add_right _ _)
  · exact Relations.holds_meetComparable lightA lightB (level.objects lax a b lightA lightB)
      (level.objects lax b a lightB lightA)

lemma holds_meetUnions (lax : Bool) (lightU : l.Light cost (.union u)) (lightV : l.Light cost (.union v)) :
    L.Holds (l.Light cost) fun i => meetUnions (r i) (below i) lax u v := by
  obtain ⟨affords,objectsU⟩ := light_union.mp lightU
  obtain ⟨-,objectsV⟩ := light_union.mp lightV
  unfold meetUnions
  refine L.sequence (p := fun _ => True) ?_ fun left _ => ?_
  · refine L.mono (L.filterM (q := fun _ _ => True) fun id _ => ?_) fun _ _ => trivial
    split
    · exact L.value trivial
    · exact level.members lax id _ lightV
  refine L.sequence (p := fun _ => True) ?_ fun right _ => ?_
  · refine L.mono (L.filterM (q := fun _ _ => True) fun id _ => ?_) fun _ _ => trivial
    split
    · exact L.value trivial
    · exact level.members lax id _ lightU
  have pairs : L.Holds (fun met => ∀ found ∈ met, ∀ o ∈ found, l.LightObject (l.inUnion cost) o)
      fun i => u.objects.mapM fun a =>
        v.objects.filterMapM fun b => meetObjects (r i) (below i) lax a b :=
    L.mapM fun a inU => L.filterMapM fun b inV =>
      level.holds_meetObjects lax (objectsU a inU) (objectsV b inV)
  refine L.sequence pairs fun met light => ?_
  have combines := fun a b => holds_combine (a := a) (b := b) (level.rulesKeep affords)
  have flat : ∀ o ∈ met.flatten, l.LightObject (l.inUnion cost) o := by
    intro o mem
    obtain ⟨found,inMet,inFound⟩ := List.mem_flatten.mp mem
    exact light found inMet o inFound
  refine L.sequence (holds_normalizeObjects combines flat) fun merged lightMerged => ?_
  exact L.value (light_ofUnion affords lightMerged)

lemma keeps_meet (lax : Bool) : l.Keeps L cost fun i => meetStep (r i) (below i) lax := by
  intro a b lightA lightB
  refine holds_meetStep lightA lightB ?_
  rintro u v rfl rfl
  exact level.holds_meetUnions lax lightA lightB

end LevelKeeps
end GradualJs
