import GradualJs.Proofs.Lattice.Instanceof
import GradualJs.Proofs.Lattice.UpperBound

/-! What `typeof` and a test for truth leave of a type. Each member stays on one of the two sides,
but an `Object` that is added for a variable may take in other objects and then be taken in by a
record type that these do not fit. -/
namespace GradualJs

open List Relations

variable {w : Union} {l : Lattice}

lemma PrimitiveSet.contains_tag (isTag : p ∈ tags) (a b : PrimitiveSet) :
    (a.inter b).contains p = (a.contains p && b.contains p) ∧
    (a.without b).contains p = (a.contains p && !b.contains p) ∧
    (a.union b).contains p = (a.contains p || b.contains p) := by
  simp only [tags,mem_cons,not_mem_nil,or_false] at isTag
  rcases isTag with rfl | rfl | rfl | rfl | rfl | rfl <;>
    simp [contains,inter,without,union,zipWith,nullOnly,undefinedOnly,trueOnly,falseOnly, numberOnly,stringOnly]

namespace Registry

variable {r : Registry} {u : Union}

/-- The first type fits the second, so no question about the two is answered with no. -/
def Accepts (r : Registry) (lax : Bool) (a b : Ty) : Prop :=
  r.Fits lax a b ∧ ∀ depth ans, Lattice.isSubtype ⟨r,lax,depth⟩ a b = some ans → ans = true

lemma accepts_iff : r.Accepts lax a b ↔ r.Fits lax a b :=
  ⟨And.left,fun fits => ⟨fits,fun _ _ asked => fits.isSubtype asked⟩⟩

/-- Each member of a union fits one of two others if each object does and the rest is divided. -/
lemma members_fit {v : Union} (primitives : ∀ p ∈ PrimitiveSet.tags, u.primitives.contains p = true →
      v.primitives.contains p = true ∨ w.primitives.contains p = true)
    (enums : ∀ id ∈ u.enums, id ∈ v.enums ∨ id ∈ w.enums)
    (vars : ∀ name ∈ u.vars, name ∈ v.vars ∨ name ∈ w.vars) (objects : ∀ o ∈ u.objects,
      r.Fits lax (.object o) (.ofUnion v) ∨ r.Fits lax (.object o) (.ofUnion w)) :
    ∀ m ∈ (Ty.union u).members, r.Fits lax m (.ofUnion v) ∨ r.Fits lax m (.ofUnion w) := by
  intro m mem
  simp only [Ty.members,mem_append,mem_map,mem_filter] at mem
  rcases mem with ((⟨p,⟨isTag,held⟩,rfl⟩ | ⟨id,held,rfl⟩) | ⟨name,held,rfl⟩) | ⟨o,held,rfl⟩
  · exact (primitives p isTag held).imp fits_primitive fits_primitive
  · have fits {w : Union} (mem : id ∈ w.enums) : r.Fits lax (.enumMember id) (.ofUnion w) :=
      fits_of_contained rfl (by simp) (by simpa using mem) (by simp) rfl
    exact (enums id held).imp fits fits
  · have fits {w : Union} (mem : name ∈ w.vars) : r.Fits lax (.var name) (.ofUnion w) :=
      fits_of_contained rfl (by simp) (by simp) (by simpa using mem) rfl
    exact (vars name held).imp fits fits
  · exact objects o held

/-- What has fewer members fits member by member. -/
lemma fewer_fit (normal : r.Normal (.union u)) (primitives : ∀ p ∈ PrimitiveSet.tags, w.primitives.contains p = true →
      u.primitives.contains p = true) (enums : w.enums ⊆ u.enums) (vars : w.vars ⊆ u.vars)
    (objects : ∀ o ∈ w.objects, r.Fits lax (.object o) (.union u)) :
    ∀ m ∈ (Ty.ofUnion w).members, r.Fits lax m (.union u) := by
  have eq : Ty.union u = .ofUnion u := by
    cases normal with
    | union whole _ _ => simp [Ty.ofUnion,whole]
  rw [Ty.ofUnion]
  split
  · simp [Ty.members]
  · rw [eq] at objects ⊢
    have fit := members_fit (v := u) (w := u) (by simpa using primitives)
      (fun _ mem => .inl (enums mem)) (fun _ mem => .inl (vars mem))
      fun o mem => .inl (objects o mem)
    simpa using fit

def LooseFunction (o : Obj) : Prop := ∃ f, o = .function f ∧ f.loose = true

/-- A loose function is combined with functions only, and stays loose. -/
lemma loose_of_combine (loose : LooseFunction x ∨ LooseFunction y)
    (combined : (mergeRules r below).combine x y = some (some z)) :
    LooseFunction z ∧ (∃ f, x = .function f) ∧ ∃ f, y = .function f := by
  obtain ⟨f,g,rfl,rfl,isLoose⟩ : ∃ f g, x = .function f ∧ y = .function g ∧ (f.loose = true ∨ g.loose = true) := by
    rcases loose with ⟨f,rfl,loose⟩ | ⟨g,rfl,loose⟩
    · cases y <;> simp_all [MergeRules.combine]
    · cases x <;> simp_all [MergeRules.combine]
  refine ⟨?_,⟨f,rfl⟩,g,rfl⟩
  simp only [MergeRules.combine,MergeRules.joinFunctions,Option.map_eq_map] at combined
  split at combined
  · rename_i eq
    cases combined
    refine ⟨f,rfl,?_⟩
    obtain ⟨_,_,_,_,_,_,_,_⟩ := f
    simp_all [Ty.sameFunction]
  · rw [if_pos (by rcases isLoose with yes | yes <;> simp [yes])] at combined
    cases combined
    exact ⟨_,rfl,rfl⟩

/-- Where objects do not combine but for loose functions among them, no other object is lost by
normalisation, and nothing but loose functions is added. -/
lemma normalized_loose {objects res : List Obj} (apart : objects.Pairwise fun x y => (∀ z, ¬r.Combines x y z) ∨
      loose ∧ (LooseFunction x ∨ LooseFunction y))
    (ended : normalizeObjects (mergeRules r (.within r depth)).combine objects = some res) :
    (∀ o ∈ objects, o ∈ res ∨ (∃ f, o = .function f) ∧ ∃ z ∈ res, LooseFunction z) ∧
      ∀ z ∈ res, z ∈ objects ∨ loose ∧ LooseFunction z := by
  let step (w z : Obj) : Prop := loose ∧ LooseFunction z ∧ ∃ f, w = .function f
  have stepwise : Stepwise (mergeRules r (.within r depth)).combine
      (fun x y => (∀ z, ¬r.Combines x y z) ∨ loose ∧ (LooseFunction x ∨ LooseFunction y)) step := by
    have known {x y z : Obj} (pre : (∀ z, ¬r.Combines x y z) ∨ loose ∧ (LooseFunction x ∨ LooseFunction y))
        (combined : (mergeRules r (.within r depth)).combine x y = some (some z)) :
        loose ∧ LooseFunction z ∧ (∃ f, x = .function f) ∧ ∃ f, y = .function f := by
      rcases pre with never | ⟨holds,isLoose⟩
      · exact absurd ⟨depth,combined⟩ (never z)
      · exact ⟨holds,loose_of_combine isLoose combined⟩
    refine ⟨fun pre combined => ?_,fun pre combined _ _ => ?_,fun pre combined _ _ => ?_⟩
    all_goals obtain ⟨holds,isLoose,first,second⟩ := known pre combined
    · exact ⟨⟨holds,isLoose,first⟩,holds,isLoose,second⟩
    · exact .inr ⟨holds,.inr isLoose⟩
    · exact .inr ⟨holds,.inl isLoose⟩
  obtain ⟨kept,origin⟩ := normalizeObjects_carries stepwise apart ended
  refine ⟨fun o mem => ?_,fun z mem => ?_⟩
  · obtain ⟨z,inResult,reached⟩ := kept o mem
    rcases reached.cases_head with rfl | ⟨_,first,-⟩
    · exact .inl inResult
    · rcases reached.cases_tail with rfl | ⟨_,_,last⟩
      · exact .inl inResult
      · exact .inr ⟨first.2.2,z,inResult,last.2.1⟩
  · obtain ⟨o,inObjects,reached⟩ := origin z mem
    rcases reached.cases_tail with rfl | ⟨_,_,last⟩
    · exact .inl inObjects
    · exact .inr ⟨last.1,last.2.1⟩

lemma fits_objectInstance {i : Instance} (top : i.id = .object) (o : Obj) : r.FitsObject lax o (.nominal i) := by
  refine FitsPlainly.fits (ends_object 0 ?_)
  cases o <;> simp [objectSubtype,top]

lemma fits_loose (loose : LooseFunction z) : r.FitsObject lax (.function f) z := by
  obtain ⟨g,rfl,loose⟩ := loose
  refine FitsPlainly.fits (ends_object 0 ?_)
  simp [objectSubtype,functionSubtype,loose]

section Narrowing

variable {tag : TypeTag} {positive : Bool}

lemma narrowObject_other (l : Lattice) (other : ∀ i, o = .nominal i → i.id ≠ .object) :
    l.narrowObject tag positive o = if l.objectHasTag tag o = positive then some o else none := by
  cases o <;> simp_all [Lattice.narrowObject]

/-- An object is kept or left out, but an `Object` may become a function. -/
lemma narrowObject_eq_some (narrowed : l.narrowObject tag positive o = some p) :
    p = o ∨ LooseFunction p ∧ ∃ i, o = .nominal i ∧ i.id = .object := by
  by_cases top : ∃ i, o = .nominal i ∧ i.id = .object
  · refine (Decidable.or_iff_not_imp_left.mpr fun differ => ⟨?_,top⟩)
    obtain ⟨i,rfl,top⟩ := top
    refine ⟨.any,?_,rfl⟩
    cases tag <;> cases positive <;> simp_all [Lattice.narrowObject]
  · rw [narrowObject_other l (by simpa using top)] at narrowed
    split at narrowed
    · exact .inl (Option.some.inj narrowed).symm
    · cases narrowed

lemma narrowObject_of_tag (tagged : l.objectHasTag tag o = positive) : l.narrowObject tag positive o = some o := by
  by_cases top : ∃ i, o = .nominal i ∧ i.id = .object
  · obtain ⟨i,rfl,top⟩ := top
    have noFunction : NominalId.object ≠ .function := by decide
    cases tag <;> cases positive <;>
      simp_all [Lattice.narrowObject,Lattice.objectHasTag,Lattice.isFunctionObject]
  · rw [narrowObject_other l (by simpa using top),if_pos tagged]

variable (kinded : r.Kinded) (normal : r.Normal (.union u)) {gained : Union}
  (adds : ∀ o ∈ gained.objects, LooseFunction o ∧ u.vars ≠ [])
  (ended : normalizeObjects (mergeRules r (.within r depth)).combine
    (u.objects.filterMap (Lattice.narrowObject ⟨r,lax,depth⟩ tag positive) ++ gained.objects) = some res)
include normal adds ended

lemma narrowed_loose : (∀ o ∈ u.objects, Lattice.objectHasTag ⟨r,lax,depth⟩ tag o = positive →
      o ∈ res ∨ (∃ f, o = .function f) ∧ ∃ z ∈ res, LooseFunction z) ∧
    (u.vars = [] → ∀ z ∈ res, z ∈ u.objects ∨ LooseFunction z ∧ ∃ i, .nominal i ∈ u.objects ∧ i.id = .object) := by
  have unchanged : r.Unchanged u.objects := by
    cases normal with
    | union _ unchanged _ => exact unchanged
  have narrowed {o p : Obj} (mem : o ∈ u.objects) (kept : Lattice.narrowObject ⟨r,lax,depth⟩ tag positive o = some p) :
      p = o ∨ LooseFunction p ∧ ∃ i, .nominal i ∈ u.objects ∧ i.id = .object := by
    rcases narrowObject_eq_some kept with eq | ⟨loose,i,rfl,top⟩
    · exact .inl eq
    · exact .inr ⟨loose,i,mem,top⟩
  have apart : (u.objects.filterMap (Lattice.narrowObject ⟨r,lax,depth⟩ tag positive) ++
      gained.objects).Pairwise fun x y => (∀ z, ¬r.Combines x y z) ∨
        ((∃ i, .nominal i ∈ u.objects ∧ i.id = .object) ∨ u.vars ≠ []) ∧ (LooseFunction x ∨ LooseFunction y) := by
    refine pairwise_append.mpr ⟨?_,?_,fun x _ y inGained => ?_⟩
    · have apart := unchanged.apart
      refine Pairwise.filterMap _ (R := fun x y => x ∈ u.objects ∧ y ∈ u.objects ∧ ∀ z, ¬r.Combines x y z)
        (fun x y pre p keptX q keptY => ?_) (apart.imp_of_mem fun inX inY never => ⟨inX,inY,never⟩)
      obtain ⟨inX,inY,never⟩ := pre
      rcases narrowed inX keptX with rfl | ⟨loose,top⟩
      · rcases narrowed inY keptY with rfl | ⟨loose,top⟩
        · exact .inl never
        · exact .inr ⟨.inl top,.inr loose⟩
      · exact .inr ⟨.inl top,.inl loose⟩
    · refine pairwise_of_forall_mem_list fun x inGained _ _ => ?_
      exact .inr ⟨.inr (adds x inGained).2,.inl (adds x inGained).1⟩
    · exact .inr ⟨.inr (adds y inGained).2,.inr (adds y inGained).1⟩
  obtain ⟨kept,origin⟩ := normalized_loose apart ended
  refine ⟨fun o mem tagged => kept o ?_,fun none z mem => ?_⟩
  · exact mem_append_left _ (mem_filterMap.mpr ⟨o,mem,narrowObject_of_tag tagged⟩)
  · rcases origin z mem with inList | ⟨top,loose⟩
    · rcases mem_append.mp inList with inKept | inGained
      · obtain ⟨o,mem,kept⟩ := mem_filterMap.mp inKept
        rcases narrowed mem kept with rfl | loose
        · exact .inl mem
        · exact .inr loose
      · exact absurd none (adds z inGained).2
    · exact .inr ⟨loose,top.resolve_right (by simp [none])⟩

include kinded

lemma narrowed_fits (eq : w.objects = res) (mem : o ∈ u.objects)
    (tagged : Lattice.objectHasTag ⟨r,lax,depth⟩ tag o = positive) :
    r.Fits lax (.object o) (.ofUnion w) := by
  rcases (narrowed_loose normal adds ended).1 o mem tagged with stays | ⟨⟨f,rfl⟩,z,inResult,loose⟩
  · exact ((normal.objects o mem).fits_self kinded).fits (by rwa [objects_ofUnion,eq])
  · exact (fits_loose loose).fits (by rwa [objects_ofUnion,eq])

lemma fits_narrowed (none : u.vars = []) : ∀ z ∈ res, r.Fits lax (.object z) (.union u) := by
  intro z mem
  rcases (narrowed_loose normal adds ended).2 none z mem with inUnion | ⟨-,i,inUnion,top⟩
  · exact fits_of_object inUnion ((normal.objects z inUnion).fits_self kinded)
  · exact fits_of_object inUnion (fits_objectInstance top z)

end Narrowing

section Covering

variable (kinded : r.Kinded) (normal : r.Normal (.union u)) {tag : TypeTag} {positive : Ty}

/-- What a variable may stand for is a loose function, unless it is an `Object`. -/
lemma gained_loose (noObject : tag = .object → u.vars = []) (sign : Bool) :
    ∀ o ∈ (if sign && !u.vars.isEmpty then tag.toType.members?.getD {} else {} : Union).objects,
      LooseFunction o ∧ u.vars ≠ [] := by
  split
  · rename_i given
    have vars : u.vars ≠ [] := by simp_all
    cases tag with
    | object => exact absurd (noObject rfl) vars
    | function =>
      change ∀ o ∈ [Obj.function .any], _
      simp [LooseFunction,vars,FunctionType.any]
    | _ =>
      change ∀ o ∈ ([] : List Obj), _
      simp
  · simp

include kinded normal

lemma truthy_covers : ∀ m ∈ (Ty.union u).members, r.Fits lax m (Ty.union u).truthy ∨
    r.Fits lax m (Lattice.falsy ⟨r,lax,depth⟩ (.union u)) := by
  refine members_fit (fun p isTag held => ?_) (fun _ mem => .inl mem) (fun _ mem => .inl mem) fun o mem => .inl ?_
  · have divided : ∀ p ∈ PrimitiveSet.tags, Lattice.falsyPrimitives.contains p = true ∨
        (PrimitiveSet.union .nullOrUndefined .falseOnly).contains p = false := by decide
    rcases divided p isTag with yes | no
    · right
      rw [(PrimitiveSet.contains_tag isTag _ _).1,held,yes]
      rfl
    · left
      rw [(PrimitiveSet.contains_tag isTag _ _).2.1,held,no]
      rfl
  · exact ((normal.objects o mem).fits_self kinded).fits (by rwa [objects_ofUnion])

lemma truthy_fewer : ∀ left ∈ [(Ty.union u).truthy,Lattice.falsy ⟨r,lax,depth⟩ (.union u)],
    ∀ m ∈ left.members, r.Fits lax m (.union u) := by
  refine forall_mem_cons.mpr ⟨?_,forall_mem_singleton.mpr ?_⟩
  · refine fewer_fit normal (fun p isTag held => ?_) (Subset.refl _) (Subset.refl _) fun o mem => ?_
    · simp_all [PrimitiveSet.contains_tag isTag]
    · exact fits_of_object mem ((normal.objects o mem).fits_self kinded)
  · refine fewer_fit normal (fun p isTag held => ?_) filter_sublist.subset (Subset.refl _) (by simp)
    simp_all [PrimitiveSet.contains_tag isTag]

lemma typeof_covers (whenTrue : Lattice.narrowTypeof ⟨r,lax,depth⟩ tag true (.union u) = some positive)
    (whenFalse : Lattice.narrowTypeof ⟨r,lax,depth⟩ tag false (.union u) = some negative)
    (found : tag = .object → u.vars ≠ [] → (∀ i, .nominal i ∈ positive.objects → i.id ≠ .object) →
      ∀ o ∈ u.objects, Lattice.isFunctionObject ⟨r,lax,depth⟩ o = false →
        r.Fits lax (.object o) positive ∨ r.Fits lax (.object o) negative) :
    ∀ m ∈ (Ty.union u).members, r.Fits lax m positive ∨ r.Fits lax m negative := by
  obtain ⟨inTrue,narrowed,eq⟩ := Option.bind_eq_some_iff.mp whenTrue
  cases eq
  obtain ⟨inFalse,rest,eq⟩ := Option.bind_eq_some_iff.mp whenFalse
  cases eq
  refine members_fit (fun p isTag held => ?_) (fun id mem => ?_) (fun _ mem => .inr mem) fun o mem => ?_
  · cases has : tag.primitives.contains p <;> simp [PrimitiveSet.contains_tag isTag,held,has]
  · cases has : (r.enumBacking id).primitives.intersects tag.primitives <;> simp [mem,has]
  · cases tagged : Lattice.objectHasTag ⟨r,lax,depth⟩ tag o with
    | false => exact .inr (narrowed_fits kinded normal (by simp) rest rfl mem tagged)
    | true =>
      by_cases noObject : tag = .object → u.vars = []
      · exact .inl (narrowed_fits kinded normal (gained_loose noObject true) narrowed rfl mem tagged)
      · push Not at noObject
        obtain ⟨rfl,vars⟩ := noObject
        by_cases lost : ∀ i, .nominal i ∈ inTrue → i.id ≠ .object
        · refine found rfl vars (by rwa [objects_ofUnion]) o mem ?_
          simpa [Lattice.objectHasTag] using tagged
        · push Not at lost
          obtain ⟨i,stays,top⟩ := lost
          exact .inl ((fits_objectInstance top o).fits (by rwa [objects_ofUnion]))

/-- A union without variables loses members only. -/
lemma narrowed_fewer (none : u.vars = []) {left : Ty}
    (ended : Lattice.narrowTypeof ⟨r,lax,depth⟩ tag sign (.union u) = some left) :
    ∀ m ∈ left.members, r.Fits lax m (.union u) := by
  obtain ⟨objects,narrowed,eq⟩ := Option.bind_eq_some_iff.mp ended
  cases eq
  refine fewer_fit normal (fun p isTag held => ?_) filter_sublist.subset (by cases sign <;> simp)
    (fits_narrowed kinded normal (gained_loose (fun _ => none) sign) narrowed none)
  have nothing : ∀ p ∈ PrimitiveSet.tags, PrimitiveSet.contains {} p = false := by decide
  cases sign <;> simp_all [PrimitiveSet.contains_tag isTag,nothing p isTag]

end Covering

/-- Each member of a normal type is covered by what a test for truth leaves of it in one of the two
branches. The same is so for a test of `typeof`, except for objects that are lost where an
`Object` is added for a variable and does not stay. Of a type without variables nothing is left
that does not fit the type. -/
theorem typeof_covers_iff (kinded : r.Kinded) {t : Ty} (normal : r.Normal t) {tag : TypeTag} {positive negative : Ty}
    (whenTrue : Lattice.narrowTypeof ⟨r,lax,depth⟩ tag true t = some positive)
    (whenFalse : Lattice.narrowTypeof ⟨r,lax,depth⟩ tag false t = some negative) :
    (∀ m ∈ t.members, r.Accepts lax m t.truthy ∨ r.Accepts lax m (Lattice.falsy ⟨r,lax,depth⟩ t)) ∧
    ((∀ m ∈ t.members, r.Accepts lax m positive ∨ r.Accepts lax m negative) ↔
      ∀ u, t = .union u → tag = .object → u.vars ≠ [] → (∀ i, .nominal i ∈ positive.objects → i.id ≠ .object) →
        ∀ o ∈ u.objects, Lattice.isFunctionObject ⟨r,lax,depth⟩ o = false →
          r.Accepts lax (.object o) positive ∨ r.Accepts lax (.object o) negative) ∧
    ∀ u, t = .union u → u.vars = [] → ∀ left ∈ [t.truthy,Lattice.falsy ⟨r,lax,depth⟩ t,positive,negative],
        ∀ m ∈ left.members, r.Accepts lax m t := by
  simp only [accepts_iff]
  cases t with
  | union u =>
    refine ⟨truthy_covers kinded normal,⟨?_,fun found => ?_⟩,?_⟩
    · rintro covered _ ⟨⟩ - - - o mem -
      exact covered _ (mem_append_right _ (mem_map_of_mem mem))
    · exact typeof_covers kinded normal whenTrue whenFalse (found u rfl)
    · rintro _ ⟨⟩ none left mem
      obtain truthy | narrowed := mem_append.mp (show left ∈ [_,_] ++ [positive,negative] from mem)
      · exact truthy_fewer kinded normal left truthy
      · obtain rfl | rfl := mem_pair.mp narrowed
        · exact narrowed_fewer kinded normal none whenTrue
        · exact narrowed_fewer kinded normal none whenFalse
  | _ =>
    cases whenTrue
    cases whenFalse
    simp [Ty.members,Ty.truthy,Lattice.falsy]

section Swallowing

def variableOrClass : Ty := .union {vars := ["T"], objects := [.nominal ⟨⟨5⟩,[]⟩]}
def variableOrSwallowed : Ty := .union {vars := ["T"], objects := swallowed.objects}

/-- The class is taken in by the `Object` that the variable may stand for. -/
theorem typeof_covers_class : (Outline.registry swallowing).Kinded ∧
    (Outline.registry swallowing).Normal variableOrClass ∧
    Lattice.narrowTypeof ⟨Outline.registry swallowing,false,9⟩ .object true variableOrClass =
      some TypeTag.object.toType ∧
    Lattice.narrowTypeof ⟨Outline.registry swallowing,false,9⟩ .object false variableOrClass =
      some (.var "T") ∧ ∀ m ∈ variableOrClass.members,
      (Outline.registry swallowing).Accepts false m TypeTag.object.toType ∨
        (Outline.registry swallowing).Accepts false m (.var "T") := by
  obtain ⟨kinded,unchanged,whenTrue,whenFalse⟩ : (Outline.registry swallowing).Kinded ∧
      Lattice.normalize ⟨Outline.registry swallowing,false,5⟩ [.nominal ⟨⟨5⟩,[]⟩] = some [.nominal ⟨⟨5⟩,[]⟩] ∧
      Lattice.narrowTypeof ⟨Outline.registry swallowing,false,9⟩ .object true variableOrClass =
        some TypeTag.object.toType ∧
      Lattice.narrowTypeof ⟨Outline.registry swallowing,false,9⟩ .object false variableOrClass = some (.var "T") := by
    decide +kernel
  have normal : (Outline.registry swallowing).Normal variableOrClass :=
    .union (by decide) ⟨5,unchanged⟩ (by simpa using .nominal (by simp))
  refine ⟨kinded,normal,whenTrue,whenFalse,?_⟩
  refine (typeof_covers_iff kinded normal whenTrue whenFalse).2.1.mpr ?_
  intro u _ _ _ lost
  exact absurd rfl (lost objectInstance (by simp [TypeTag.toType,Ty.objects]))

/-- The class is taken in by the `Object` that the variable may stand for, and that by the record
type, which the class does not fit. -/
theorem typeof_loses_class : Outline.Collects swallowing ∧ (Outline.registry swallowing).Normal variableOrSwallowed ∧
    Lattice.narrowTypeof ⟨Outline.registry swallowing,false,9⟩ .object true variableOrSwallowed =
      some (.union {primitives := .nullOnly, objects := [.nominal ⟨⟨6⟩,[]⟩]}) ∧
    Lattice.narrowTypeof ⟨Outline.registry swallowing,false,9⟩ .object false variableOrSwallowed = some (.var "T") ∧
    .nominal ⟨4⟩ [] ∈ variableOrSwallowed.members ∧
    Lattice.isSubtype ⟨Outline.registry swallowing,false,9⟩ (.nominal ⟨4⟩ [])
      (.union {primitives := .nullOnly, objects := [.nominal ⟨⟨6⟩,[]⟩]}) = some false ∧
    Lattice.isSubtype ⟨Outline.registry swallowing,false,9⟩ (.nominal ⟨4⟩ []) (.var "T") = some false := by
  obtain ⟨quiet,unchanged⟩ :
      (Declarations.collect (Outline.program swallowing) none false).map (·.diagnostics.isEmpty) = some true ∧
      Lattice.normalize ⟨Outline.registry swallowing,false,5⟩ swallowed.objects = some swallowed.objects := by
    decide +kernel
  refine ⟨Outline.collects_of_quiet quiet,.union (by decide) ⟨5,unchanged⟩ ?_,by decide +kernel⟩
  simpa [swallowed,Ty.objects] using ⟨.nominal (by simp),.nominal (by simp)⟩

end Swallowing

end Registry
end GradualJs
