import GradualJs.Proofs.Lattice.LowerBound

/-! Joins are upper bounds as long as no object is combined twice. What stands for two objects
is above both, but it may be combined again, and as subtyping is not transitive, what comes of that
need not be above all three. -/
namespace GradualJs

open List Outline FunctionType Relations MergeRules Option
open GradualJs.Field (find?)

variable {left right : Instance} {z : Obj} {x y : Record} {f h g : FunctionType} {a b : Option Ty} {t : Ty}

namespace Registry

variable {r : Registry}

lemma joinInstances_eq_some {z : Instance}
    (ended : joinInstances (within r depth).join left right = some z) : z.id = left.id ∧
      Forall₂ (fun pair arg => r.Joins pair.1 pair.2 arg) (padArgs left.args right.args) z.args := by
  obtain ⟨args,mapped,eq⟩ := bind_eq_some_iff.mp ended
  cases eq
  exact ⟨rfl,(forall₂_of_mapM mapped).imp fun _ _ joined => ⟨depth,joined⟩⟩

lemma fits_joinInstances {x y z : Instance} {id : NominalId}
    (viewX : r.upcast x id = some left) (viewY : r.upcast y id = some right)
    (ended : joinInstances (within r depth).join left right = some z)
    (bounded : ∀ pair ∈ padArgs left.args right.args, ∀ t ∈ z.args, r.Joins pair.1 pair.2 t →
      r.Fits false pair.1 t ∧ r.Fits false pair.2 t) :
    r.FitsObject false (.nominal x) (.nominal z) ∧ r.FitsObject false (.nominal y) (.nominal z) := by
  obtain ⟨eq,related⟩ := joinInstances_eq_some ended
  have members := forall₂_members related
  have ids : z.id = id := eq.trans (r.upcast_id viewX)
  have swapped {args : List Ty} (held : ∀ pair ∈ padArgs z.args args, r.Fits false pair.2 pair.1) :
      ∀ pair ∈ padArgs args z.args, r.Fits false pair.1 pair.2 := by
    rw [padArgs_swap z.args args]
    intro pair mem
    obtain ⟨original,inArgs,rfl⟩ := mem_map.mp mem
    exact held original inArgs
  refine ⟨.inr ?_,.inr ?_⟩
  · simp only [Premises.InstanceFits,ids,viewX]
    exact swapped (padArgs_left (Q := fun arg s => r.Fits false s arg) members
      (fun pair arg held => (bounded pair held.1 arg held.2.1 held.2.2).1)
      fun _ => unknown_fits)
  · simp only [Premises.InstanceFits,ids,viewY]
    exact swapped (padArgs_right (Q := fun arg s => r.Fits false s arg) members
      (fun pair arg held => (bounded pair held.1 arg held.2.1 held.2.2).2)
      fun _ => unknown_fits)

def JoinedField (r : Registry) (y : Record) (f h : Field) : Prop :=
  h.name = f.name ∧ (f.optional → h.optional) ∧ match find? y.fields f.name with
    | some g => r.Joins f.type g.type h.type ∧ (g.optional → h.optional)
    | none => h.type = f.type ∧ (h.optional ∨ y.loose)

lemma joinField_eq_some {f h : Field}
    (ended : (mergeRules r (.within r depth)).joinField y f = some h) : r.JoinedField y f h := by
  unfold joinField at ended
  unfold JoinedField
  cases found : find? y.fields f.name with
  | some g =>
    rw [found] at ended
    obtain ⟨type,joined,eq⟩ := bind_eq_some_iff.mp ended
    cases eq
    exact ⟨rfl,fun yes => by simp [yes],⟨depth,joined⟩,fun yes => by simp [yes]⟩
  | none =>
    rw [found] at ended
    have eq : h = if y.loose then f else {f with optional := true} := (some.inj ended).symm
    split at eq
    · rename_i loose
      subst eq
      exact ⟨rfl,id,rfl,.inr loose⟩
    · subst eq
      exact ⟨rfl,fun _ => rfl,rfl,.inl rfl⟩

lemma joinRecords_eq_some {z : Record} (ended : (mergeRules r (.within r depth)).joinRecords x y = some z) :
    ∃ left, Forall₂ (r.JoinedField y) x.fields left ∧
      z.fields = left ++ (y.fields.filter fun g => (find? x.fields g.name).isNone).map
        (fun g => if x.loose then g else {g with optional := true}) ∧
      z.loose = (x.loose || y.loose) := by
  obtain ⟨left,mapped,eq⟩ := bind_eq_some_iff.mp ended
  cases eq
  exact ⟨left,(forall₂_of_mapM mapped).imp fun _ _ => joinField_eq_some,rfl,rfl⟩

lemma fits_joinRecords (kinded : r.Kinded) {z : Record} (normalX : r.NormalObject (.record x))
    (normalY : r.NormalObject (.record y)) (normalZ : r.NormalObject (.record z))
    (ended : (mergeRules r (.within r depth)).joinRecords x y = some z)
    (bounded : ∀ pair ∈ x.shared y, ∀ t ∈ z.fields.map (·.type), r.Joins pair.1 pair.2 t →
      r.Fits false pair.1 t ∧ r.Fits false pair.2 t) :
    r.FitsObject false (.record x) (.record z) ∧ r.FitsObject false (.record y) (.record z) := by
  obtain ⟨left,related,fields,loose⟩ := joinRecords_eq_some ended
  have .record distinctX partsX := normalX
  have .record distinctY partsY := normalY
  -- A property of the join comes from one of the left record, or from one that only the right
  -- record has.
  have origin (h : Field) (mem : h ∈ z.fields) : (∃ f ∈ x.fields, r.JoinedField y f h) ∨
      ∃ g ∈ y.fields, find? x.fields g.name = none ∧ h.name = g.name ∧ h.type = g.type ∧
        (g.optional → h.optional) ∧ (h.optional ∨ x.loose) := by
    rw [fields] at mem
    rcases mem_append.mp mem with inLeft | inRight
    · exact .inl (forall₂_mem related.flip h inLeft)
    · obtain ⟨g,kept,rfl⟩ := mem_map.mp inRight
      obtain ⟨inY,alone⟩ := mem_filter.mp kept
      refine .inr ⟨g,inY,by simpa using alone,?_⟩
      split <;> simp_all
  have inside {h : Field} (mem : h ∈ z.fields) : h.type ∈ z.fields.map (·.type) := mem_map.mpr ⟨h,mem,rfl⟩
  refine ⟨fits_of_fields kinded normalZ fun h mem => ?_,fits_of_fields kinded normalZ fun h mem => ?_⟩
  · rcases origin h mem with ⟨f,inX,named,optional,types⟩ | ⟨g,inY,alone,named,-,-,optional⟩
    · rw [named,find?_of_nodup distinctX inX]
      refine ⟨optional,?_⟩
      cases other : find? y.fields f.name with
      | none =>
        rw [other] at types
        rw [types.1]
        exact (partsX f inX).fits_self kinded
      | some g =>
        rw [other] at types
        exact (bounded _ (mem_shared inX other) _ (inside mem) types.1).1
    · rw [named,alone]
      exact optional
  · rcases origin h mem with ⟨f,inX,named,-,types⟩ | ⟨g,inY,-,named,type,optional,-⟩
    · rw [named]
      cases other : find? y.fields f.name with
      | none =>
        rw [other] at types
        exact types.2
      | some g =>
        rw [other] at types
        exact ⟨types.2,(bounded _ (mem_shared inX other) _ (inside mem) types.1).2⟩
    · rw [named,find?_of_nodup distinctY inY]
      refine ⟨optional,?_⟩
      rw [type]
      exact (partsY g inY).fits_self kinded

/-- What functions that differ are joined to: in each place their parameters meet and their
results are joined. -/
structure JoinedFunction (r : Registry) (f g h : FunctionType) : Prop where
  differ : Ty.sameFunction f g = false
  strict : f.loose = false ∧ g.loose = false
  shape : sameShape f g = true
  typeParams : h.typeParams = []
  required : Forall₂ (fun pair t => r.Meets false pair.1 pair.2 t) (f.required.zip g.required) h.required
  optional : Forall₂ (fun pair t => r.Meets false pair.1 pair.2 t) (f.optional.zip g.optional) h.optional
  rest : Forall₂ (fun pair t => r.Meets false pair.1 pair.2 t) (f.rest.toList.zip g.rest.toList) h.rest.toList
  receiver : Forall₂ (fun pair t => r.Meets false pair.1 pair.2 t)
    (f.receiver.toList.zip g.receiver.toList) h.receiver.toList
  returnType : r.Joins f.returnType g.returnType h.returnType
  constructs : Forall₂ (fun pair t => r.Joins pair.1 pair.2 t)
    (f.constructs.toList.zip g.constructs.toList) h.constructs.toList

lemma bothOr_eq_some {combine : Ty → Ty → Option Ty} {res : Option Ty} (ended : bothOr combine a b = some res) :
    Forall₂ (fun pair t => combine pair.1 pair.2 = some t) (a.toList.zip b.toList) res.toList := by
  cases a with
  | none =>
    cases ended
    exact .nil
  | some s =>
    cases b with
    | none =>
      cases ended
      exact .nil
    | some t =>
      obtain ⟨combined,both,rfl⟩ := map_eq_some_iff.mp ended
      exact .cons both .nil

lemma joinFunctions_eq_some (ended : (mergeRules r (.within r depth)).joinFunctions f g = some h) :
    (Ty.sameFunction f g = true ∧ h = f) ∨ h.loose = true ∨ r.JoinedFunction f g h := by
  unfold joinFunctions at ended
  split at ended
  · rename_i eq
    exact .inl ⟨eq,(some.inj ended).symm⟩
  · rename_i differ
    split at ended
    · cases ended
      exact .inr (.inl rfl)
    · rename_i strict
      simp only [Bool.or_eq_true,not_or,Bool.not_eq_true,Bool.not_eq_false'] at strict
      obtain ⟨⟨looseF,looseG⟩,shape⟩ := strict
      simp only [bind_eq_bind,bind_eq_some_iff] at ended
      obtain ⟨required,inRequired,optional,inOptional,rest,inRest,returnType,joined,
        receiver,inReceiver,constructs,inConstructs,eq⟩ := ended
      cases eq
      exact .inr (.inr {
        differ := by simpa using differ
        strict := ⟨looseF,looseG⟩
        shape
        typeParams := rfl
        required := (forall₂_of_mapM inRequired).imp fun _ _ met => ⟨depth,met⟩
        optional := (forall₂_of_mapM inOptional).imp fun _ _ met => ⟨depth,met⟩
        rest := (bothOr_eq_some inRest).imp fun _ _ met => ⟨depth,met⟩
        receiver := (bothOr_eq_some inReceiver).imp fun _ _ met => ⟨depth,met⟩
        returnType := ⟨depth,joined⟩
        constructs := (bothOr_eq_some inConstructs).imp fun _ _ met => ⟨depth,met⟩})

lemma rel_of_toList (related : Forall₂ R a.toList b.toList) : Option.Rel R a b := by
  cases a with
  | none =>
    cases b with
    | none => exact .none
    | some t => cases related
  | some s =>
    cases b with
    | none => cases related
    | some t =>
      cases related with
      | cons first _ => exact .some first

lemma JoinedFunction.related {k : FunctionType} (joined : r.JoinedFunction f g h)
    (meets : ∀ pair ∈ f.meetingParts g, ∀ t ∈ h.types, r.Meets false pair.1 pair.2 t →
      r.Fits false t (pick pair)) (joins : ∀ pair ∈ f.joiningParts g, ∀ t ∈ h.types, r.Joins pair.1 pair.2 t →
      r.Fits false (pick pair) t) (required : (f.required.zip g.required).map pick = k.required)
    (optional : (f.optional.zip g.optional).map pick = k.optional)
    (rest : (f.rest.toList.zip g.rest.toList).map pick = k.rest.toList)
    (returnType : pick (f.returnType,g.returnType) = k.returnType)
    (receiver : (f.receiver.toList.zip g.receiver.toList).map pick = k.receiver.toList ∨
      f.receiver.toList.zip g.receiver.toList = [])
    (constructs : (f.constructs.toList.zip g.constructs.toList).map pick = k.constructs.toList) :
    RelatedFunction (fun s t => r.Fits false t s) (r.Fits false) k h := by
  have meeting {pairs : List (Ty × Ty)} {results : List Ty}
      (related : Forall₂ (fun pair t => r.Meets false pair.1 pair.2 t) pairs results)
      (asked : pairs ⊆ f.meetingParts g) (inside : results ⊆ h.types) :
      Forall₂ (fun s t => r.Fits false t s) (pairs.map pick) results := by
    rw [forall₂_map_left_iff]
    exact (forall₂_members related).imp fun pair t held =>
      meets pair (asked held.1) t (inside held.2.1) held.2.2
  constructor
  · exact required ▸ meeting joined.required (by simp [meetingParts]) (fun t mem => mem_types.mpr (.inl mem))
  · exact optional ▸ meeting joined.optional (by simp [meetingParts]) (fun t mem => mem_types.mpr (.inr (.inl mem)))
  · refine rel_of_toList (rest ▸ meeting joined.rest (fun pair mem => ?_) h.rest_subset)
    simp [meetingParts,mem]
  · have asked : f.receiver.toList.zip g.receiver.toList ⊆ f.meetingParts g := fun pair mem => by
      simp [meetingParts,mem]
    have related := meeting joined.receiver asked h.receiver_subset
    intro s inK t inH
    rcases receiver with eq | alone
    · rw [eq,mem_def.mp inK,mem_def.mp inH] at related
      simpa using related
    · rw [alone,mem_def.mp inH] at related
      cases related
  · refine returnType ▸ joins _ (by simp [joiningParts]) _ h.returnType_mem joined.returnType
  · refine rel_of_toList (constructs ▸ ?_)
    rw [forall₂_map_left_iff]
    refine (forall₂_members joined.constructs).imp fun pair t held => ?_
    exact joins pair (mem_cons_of_mem _ held.1) t (h.constructs_subset held.2.1) held.2.2

lemma fits_joinFunctions (kinded : r.Kinded)
    (normalF : r.NormalObject (.function f)) (normalG : r.NormalObject (.function g))
    (ended : (mergeRules r (.within r depth)).joinFunctions f g = some h)
    (bounded : ∀ q ∈ (Obj.function f).joinedParts (.function g), ∀ t ∈ h.types, r.BoundedBy q t) :
    r.FitsObject false (.function f) (.function h) ∧ r.FitsObject false (.function g) (.function h) := by
  rcases joinFunctions_eq_some ended with ⟨eq,rfl⟩ | loose | joined
  · have objects : Ty.sameObject (.function h) (.function g) = true := by
      simpa [Ty.sameObject] using eq
    exact ⟨normalF.fits_self kinded,AlikeObject.fits kinded ⟨normalG,normalF,.inr (.inr objects)⟩⟩
  · exact ⟨.inl (by simp [loose]),.inl (by simp [loose])⟩
  · have shape := joined.shape
    simp only [sameShape,Bool.and_eq_true,decide_eq_true_eq] at shape
    obtain ⟨⟨⟨⟨⟨required,optional⟩,rest⟩,constructs⟩,plainF⟩,plainG⟩ := shape
    have erasedF : f.eraseTypeParams = f := by simp [eraseTypeParams,plainF]
    have erasedG : g.eraseTypeParams = g := by simp [eraseTypeParams,plainG]
    have erasedH : h.eraseTypeParams = h := by
      simp [eraseTypeParams,joined.typeParams]
    have asked : (Obj.function f).joinedParts (.function g) =
        (f.meetingParts g).map (fun pair => .meet false pair.1 pair.2) ++
          (f.joiningParts g).map fun pair => .join pair.1 pair.2 := by
      simp [Obj.joinedParts,joined.differ,joined.strict,joined.shape]
    have meets (pair : Ty × Ty) (mem : pair ∈ f.meetingParts g) (t : Ty) (inside : t ∈ h.types) :=
      bounded (.meet false pair.1 pair.2) (asked ▸ mem_append_left _ (mem_map.mpr ⟨pair,mem,rfl⟩)) t inside
    have joins (pair : Ty × Ty) (mem : pair ∈ f.joiningParts g) (t : Ty) (inside : t ∈ h.types) :=
      bounded (.join pair.1 pair.2) (asked ▸ mem_append_right _ (mem_map.mpr ⟨pair,mem,rfl⟩)) t inside
    have lengths {a b : Option Ty} (eq : a.isSome = b.isSome) : a.toList.length = b.toList.length := by
      cases a <;> cases b <;> simp_all
    have receivers (a b : Option Ty) : a.toList.length = b.toList.length ∨ a.toList.zip b.toList = [] := by
      cases a <;> cases b <;> simp
    have left : RelatedFunction (fun s t => r.Fits false t s) (r.Fits false) f h := by
      refine joined.related (fun pair mem t inside met => (meets pair mem t inside met).1)
        (fun pair mem t inside joins' => (joins pair mem t inside joins').1)
        (map_fst_zip (le_of_eq required)) (map_fst_zip (le_of_eq optional))
        (map_fst_zip (le_of_eq (lengths rest))) rfl
        ((receivers f.receiver g.receiver).imp_left fun eq => map_fst_zip (le_of_eq eq))
        (map_fst_zip (le_of_eq (lengths constructs)))
    have right : RelatedFunction (fun s t => r.Fits false t s) (r.Fits false) g h := by
      refine joined.related (fun pair mem t inside met => (meets pair mem t inside met).2)
        (fun pair mem t inside joins' => (joins pair mem t inside joins').2)
        (map_snd_zip (ge_of_eq required)) (map_snd_zip (ge_of_eq optional))
        (map_snd_zip (ge_of_eq (lengths rest))) rfl
        ((receivers f.receiver g.receiver).imp_left fun eq => map_snd_zip (ge_of_eq eq))
        (map_snd_zip (ge_of_eq (lengths constructs)))
    refine ⟨.inr ?_,.inr ?_⟩
    · rw [erasedF,erasedH]
      exact left.fits (fun _ _ => id) fun _ _ => id
    · rw [erasedG,erasedH]
      exact right.fits (fun _ _ => id) fun _ _ => id

lemma fits_aligned (kinded : r.Kinded) {x y left right : Obj} (normalX : r.NormalObject x)
    (normalY : r.NormalObject y) (normalZ : r.NormalObject z) (aligned : r.Aligned x y left right)
    (combines : r.Combines left right z)
    (bounded : ∀ q ∈ left.joinedParts right, ∀ t ∈ z.parts, r.BoundedBy q t) :
    r.FitsObject false x z ∧ r.FitsObject false y z := by
  obtain ⟨depth,ended⟩ := combines
  cases aligned with
  | @nominal x y left right id viewX viewY =>
    have ids : left.id = right.id := by rw [r.upcast_id viewX,r.upcast_id viewY]
    simp only [combine,ids,if_true] at ended
    obtain ⟨i,joined,eq⟩ := map_eq_some_iff.mp ended
    cases eq
    refine fits_joinInstances viewX viewY joined fun pair mem t inside => ?_
    exact bounded (.join pair.1 pair.2) (mem_map.mpr ⟨pair,mem,rfl⟩) t inside
  | @record x y =>
    obtain ⟨i,joined,eq⟩ := map_eq_some_iff.mp ended
    cases eq
    refine fits_joinRecords kinded normalX normalY normalZ joined fun pair mem t inside => ?_
    exact bounded (.join pair.1 pair.2) (mem_map.mpr ⟨pair,mem,rfl⟩) t inside
  | @function f g =>
    obtain ⟨i,joined,eq⟩ := map_eq_some_iff.mp ended
    cases eq
    exact fits_joinFunctions kinded normalX normalY joined bounded

lemma Combines.instance (combines : r.Combines (.nominal left) (.nominal right) z) (eq : left.id = right.id) :
    ∃ i, z = .nominal i ∧ i.id = left.id := by
  obtain ⟨depth,ended⟩ := combines
  simp only [combine,eq,if_true] at ended
  obtain ⟨i,joined,res⟩ := map_eq_some_iff.mp ended
  cases res
  exact ⟨i,rfl,(joinInstances_eq_some joined).1⟩

lemma JoinsAtOnce.fits (kinded : r.Kinded) {x y : Obj} (once : r.JoinsAtOnce x y z)
    (normalX : r.NormalObject x) (normalY : r.NormalObject y)
    (bounded : ∀ left right, r.Aligned x y left right → r.Combines left right z → r.NormalObject z →
      ∀ q ∈ left.joinedParts right, ∀ t ∈ z.parts, r.BoundedBy q t) :
    r.FitsObject false x z ∧ r.FitsObject false y z := by
  rcases once with ⟨left,right,aligned,combines,normalZ⟩ | ⟨rfl,plainly⟩ | ⟨rfl,plainly⟩
  · exact fits_aligned kinded normalX normalY normalZ aligned combines (bounded left right aligned combines normalZ)
  · exact ⟨plainly.fits,normalY.fits_self kinded⟩
  · exact ⟨normalX.fits_self kinded,plainly.fits⟩

lemma fits_of_objects (objects : ∀ o ∈ t.objects, r.Fits false (.object o) t) : r.Fits false t t := by
  cases t with
  | union u =>
    refine fits_union.mpr ⟨by simp,by simp,fun id mem => .inl (by simpa using mem),?_⟩
    exact fun o mem => (fits_union.mp (objects o mem)).objects o (by simp)
  | _ => simp

/-- A join is above both types if whatever is combined again on the way is. -/
lemma fits_join (kinded : r.Kinded) {a b : Ty} (normalA : r.Normal a) (normalB : r.Normal b)
    (joins : r.Joins a b t) (apart : ∀ q, r.Leads (.join a b) q → r.Apart q) :
    r.Fits false a t ∧ r.Fits false b t := by
  -- What is asked about parts is answered inside the result, so the induction is on its size.
  induction size : sizeOf t using Nat.strong_induction_on generalizing a b t with
  | _ n ih =>
  have bounded {x y z left right : Obj} (inA : x ∈ a.objects) (inB : y ∈ b.objects)
      (inT : z ∈ t.objects) (aligned : r.Aligned x y left right) (combines : r.Combines left right z)
      (normalZ : r.NormalObject z) (q : Question) (inParts : q ∈ left.joinedParts right) (s : Ty)
      (inside : s ∈ z.parts) : r.BoundedBy q s := by
    have part : r.Part (.join a b) q := .join joins inA inB inT aligned combines normalZ inParts
    have regular : r.Regular q := part.regular ⟨normalA,normalB⟩
    have further (q' : Question) (leads : r.Leads q q') : r.Apart q' := apart q' (.head part leads)
    cases q with
    | subtype => trivial
    | meet lax c d => exact fun meets => fits_meet kinded regular.1 regular.2 meets further
    | join c d =>
      exact fun joins => ih _ (size ▸ Obj.sizeOf_part inT inside) regular.1 regular.2 joins further rfl
  have once {x y z : Obj} (inA : x ∈ a.objects) (inB : y ∈ b.objects) (inT : z ∈ t.objects)
      (once : r.JoinsAtOnce x y z) : r.FitsObject false x z ∧ r.FitsObject false y z :=
    once.fits kinded (normalA.objects x inA) (normalB.objects y inB)
      fun _ _ aligned combines normalZ => bounded inA inB inT aligned combines normalZ
  have left {x z : Obj} (inA : x ∈ a.objects) (inT : z ∈ t.objects) (becomes : r.Becomes x z) :
      r.Fits false (.object x) t := by
    by_cases kept : x ∈ t.objects
    · exact ((normalA.objects x inA).fits_self kinded).fits kept
    · by_cases combined : ∃ y ∈ b.objects, ∃ z ∈ t.objects, r.JoinsAtOnce x y z
      · obtain ⟨y,inB,z,inT,atOnce⟩ := combined
        exact (once inA inB inT atOnce).1.fits inT
      · exact (apart _ .refl t joins z inT).1 x inA becomes kept combined
  have right {y z : Obj} (inB : y ∈ b.objects) (inT : z ∈ t.objects) (becomes : r.Becomes y z) :
      r.Fits false (.object y) t := by
    by_cases kept : y ∈ t.objects
    · exact ((normalB.objects y inB).fits_self kinded).fits kept
    · by_cases combined : ∃ x ∈ a.objects, ∃ z ∈ t.objects, r.JoinsAtOnce x y z
      · obtain ⟨x,inA,z,inT,atOnce⟩ := combined
        exact (once inA inB inT atOnce).2.fits inT
      · exact (apart _ .refl t joins z inT).2 y inB becomes kept combined
  obtain ⟨depth,ended⟩ := id joins
  cases depth with
  | zero => cases ended
  | succ depth =>
    replace ended : (mergeRules r (.within r depth)).joinStep a b = some t := ended
    cases a with
    | bottom =>
      cases ended
      exact ⟨bottom_fits,fits_of_objects fun o mem => right mem mem .refl⟩
    | top | unknown => cases b <;> cases ended <;> simp
    | union u =>
      cases b with
      | bottom =>
        cases ended
        exact ⟨fits_of_objects fun o mem => left mem mem .refl,bottom_fits⟩
      | top | unknown =>
        cases ended
        simp
      | union v =>
        obtain ⟨objects,settled,normalized,absorbed,rfl⟩ := joinUnions_eq_some ended
        have eq : settled.objects = objects := (widens_absorbEnums false kinded.backed absorbed).2.1
        have carried := (becomes_normalized normalized).1
        have inJoin {z : Obj} (mem : z ∈ objects) : z ∈ (Ty.ofUnion settled).objects := by
          rwa [objects_ofUnion,eq]
        have above {o : Obj} (fits : r.Fits false (.object o) (.ofUnion settled)) :
            ∃ p ∈ objects, r.FitsObject false o p := by
          unfold Ty.ofUnion at fits
          split at fits
          · exact (fits_iff.mp fits).elim
          · obtain ⟨p,inSettled,below⟩ := (fits_union.mp fits).objects o (by simp)
            exact ⟨p,eq ▸ inSettled,below⟩
        cases normalA with
        | union membersU _ _ =>
        cases normalB with
        | union membersV _ _ =>
        refine ⟨fits_settled kinded absorbed membersU (.inl rfl) fun o mem => ?_,
          fits_settled kinded absorbed membersV (.inr rfl) fun o mem => ?_⟩
        · obtain ⟨z,inObjects,becomes⟩ := carried o (mem_append_left _ mem)
          exact above (left mem (inJoin inObjects) becomes)
        · obtain ⟨z,inObjects,becomes⟩ := carried o (mem_append_right _ mem)
          exact above (right mem (inJoin inObjects) becomes)

/-- Joins and meets inside a join of normal types are all bounds exactly if no object that is
combined again on the way does harm. Then every question whether one of the types fits the join
is answered with yes. -/
theorem join_upperBound_iff {program : Program} {externs : Option Program} {legacy : Bool} {decls : Declarations}
    (collected : Declarations.collect program externs legacy = some decls) {a b : Ty}
    (normalA : decls.registry.Normal a) (normalB : decls.registry.Normal b) :
    ((∀ q, decls.registry.Leads (.join a b) q → decls.registry.Bounded q) ↔
      ∀ q, decls.registry.Leads (.join a b) q → decls.registry.Apart q) ∧
    ((∀ q, decls.registry.Leads (.join a b) q → decls.registry.Apart q) →
      ∀ depth t, Lattice.join {registry := decls.registry, depth} a b = some t →
      ∀ lax depth ans, (Lattice.isSubtype ⟨decls.registry,lax,depth⟩ a t = some ans → ans = true) ∧
        (Lattice.isSubtype ⟨decls.registry,lax,depth⟩ b t = some ans → ans = true)) := by
  have kinded := Declarations.collect_kinded collected
  have regular : decls.registry.Regular (.join a b) := ⟨normalA,normalB⟩
  refine ⟨⟨fun bounded q leads => (bounded q leads).apart,fun apart q leads t => ?_⟩,?_⟩
  · have normal := leads.regular regular
    have further (q' : Question) (on : decls.registry.Leads q q') := apart q' (leads.trans on)
    cases q with
    | subtype => trivial
    | meet lax c d => exact fun meets => fits_meet kinded normal.1 normal.2 meets further
    | join c d => exact fun joins => fits_join kinded normal.1 normal.2 joins further
  · intro apart depth t ended lax depth' ans
    obtain ⟨left,right⟩ := fits_join kinded normalA normalB ⟨depth,ended⟩ apart
    exact ⟨left.either.isSubtype,right.either.isSubtype⟩

section Heirs

open Outline in
/-- Two classes that give their superclass different arguments. -/
def heirs : List Outline := [
  {name := "P", doc := {kind := some .constructor, templates := ["T"]}},
  {name := "A", doc := {kind := some .constructor, supertypes := [named "P" [named "number" []]]}},
  {name := "B", doc := {kind := some .constructor, supertypes := [named "P" [named "string" []]]}}]

def firstHeir : Ty := .union {objects := [.nominal ⟨⟨4⟩,[]⟩, .record {fields := [{name := "p", type := .number}]}]}

def secondHeir : Ty := .union {objects := [.nominal ⟨⟨5⟩,[]⟩,
  .record {fields := [{name := "p", type := .string},{name := "q", type := .boolean}]}]}

def numberOrString : Ty := .primitive (.union .numberOnly .stringOnly)
def commonParent : Instance := ⟨⟨3⟩,[numberOrString]⟩

def commonRecord : Record where
  fields := [{name := "p", type := numberOrString},{name := "q", type := .boolean, optional := true}]

/-- The superclass with the arguments of either class, and what both are joined to. -/
lemma heirs_join : (registry heirs).upcast ⟨⟨4⟩,[]⟩ ⟨3⟩ = some ⟨⟨3⟩,[.number]⟩ ∧
    (registry heirs).upcast ⟨⟨5⟩,[]⟩ ⟨3⟩ = some ⟨⟨3⟩,[.string]⟩ ∧
    Lattice.join {registry := registry heirs, depth := 9} firstHeir secondHeir =
      some (.union {objects := [.nominal commonParent,.record commonRecord]}) := by
  decide +kernel

lemma heirs_normal : Collects heirs ∧ (registry heirs).Normal firstHeir ∧ (registry heirs).Normal secondHeir ∧
    (registry heirs).JoinsAtOnce (.nominal ⟨⟨4⟩,[]⟩) (.nominal ⟨⟨5⟩,[]⟩) (.nominal commonParent) ∧
    (registry heirs).JoinsAtOnce (.record {fields := [{name := "p", type := .number}]})
      (.record {fields := [{name := "p", type := .string},{name := "q", type := .boolean}]})
      (.record commonRecord) := by
  have either : (registry heirs).Normal numberOrString := normal_primitive (by decide)
  have number : (registry heirs).Normal .number := normal_primitive (by decide)
  have string : (registry heirs).Normal .string := normal_primitive (by decide)
  have boolean : (registry heirs).Normal .boolean := normal_primitive (by decide)
  obtain ⟨quiet,first,second⟩ :
      (Declarations.collect (program heirs) none false).map (·.diagnostics.isEmpty) = some true ∧
      Lattice.normalize ⟨registry heirs,false,3⟩ firstHeir.objects = some firstHeir.objects ∧
      Lattice.normalize ⟨registry heirs,false,3⟩ secondHeir.objects = some secondHeir.objects := by
    decide +kernel
  refine ⟨collects_of_quiet quiet,.union (by decide) ⟨3,first⟩ (forall_mem_pair.mpr ⟨?_,?_⟩),
    .union (by decide) ⟨3,second⟩ (forall_mem_pair.mpr ⟨?_,?_⟩),
    .inl ⟨.nominal ⟨⟨3⟩,[.number]⟩,.nominal ⟨⟨3⟩,[.string]⟩,?_,⟨5,by decide +kernel⟩,?_⟩,
    .inl ⟨_,_,.record,⟨5,by decide +kernel⟩,?_⟩⟩
  · exact .nominal (by simp)
  · exact .record (by decide) (by simpa using number)
  · exact .nominal (by simp)
  · exact .record (by decide) (by simpa using ⟨string,boolean⟩)
  · exact .nominal heirs_join.1 heirs_join.2.1 (.nominal (by simpa using number)) (.nominal (by simpa using string))
  · exact .nominal (by simpa [commonParent] using either)
  · exact .record (by decide) (by simpa [commonRecord] using ⟨either,boolean⟩)

/-- Inside the join only the two arguments of the superclass are joined, and the types of the
property, which are the same. -/
lemma leads_heirs (leads : (registry heirs).Leads (.join firstHeir secondHeir) q) :
    q = .join firstHeir secondHeir ∨ q = .join .number .string := by
  induction leads with
  | refl => exact .inl rfl
  | tail _ part ih =>
    refine .inr ?_
    rcases ih with rfl | rfl
    · cases part with
      | @join _ _ t x y left right z q joins inA inB inT aligned combines _ inParts =>
        cases joins.unique ⟨9,heirs_join.2.2⟩
        simp only [firstHeir,secondHeir,Ty.objects,mem_cons,not_mem_nil,or_false] at inA inB inT
        cases aligned with
        | @nominal x y left right id viewX viewY =>
          obtain rfl : x = ⟨⟨4⟩,[]⟩ := by simpa using inA
          obtain rfl : y = ⟨⟨5⟩,[]⟩ := by simpa using inB
          obtain ⟨i,rfl,own⟩ := combines.instance (by rw [upcast_id viewX,upcast_id viewY])
          obtain rfl : id = ⟨3⟩ := by
            have eq : i = commonParent := by simpa using inT
            rw [← upcast_id viewX,← own,eq,commonParent]
          cases viewX.symm.trans heirs_join.1
          cases viewY.symm.trans heirs_join.2.1
          simpa [Obj.joinedParts,padArgs] using inParts
        | @record x y =>
          have eq : x.shared y = [(.number,.string)] := by
            simp only [reduceCtorEq,Obj.record.injEq,false_or] at inA inB
            subst inA inB
            rfl
          simpa [Obj.joinedParts,eq] using inParts
        | function => simp at inA
    · cases part with
      | join _ inA => simp [Ty.number,Ty.primitive,objects_ofUnion] at inA

lemma heirs_apart (leads : (registry heirs).Leads (.join firstHeir secondHeir) q) : (registry heirs).Apart q := by
  obtain ⟨-,-,-,instances,records⟩ := heirs_normal
  rcases leads_heirs leads with rfl | rfl
  · intro t joins z _
    cases joins.unique ⟨9,heirs_join.2.2⟩
    simp only [firstHeir,secondHeir,Ty.objects,forall_mem_cons,not_mem_nil, false_imp_iff,implies_true,and_true]
    refine ⟨⟨fun _ _ again => ?_,fun _ _ again => ?_⟩,fun _ _ again => ?_,fun _ _ again => ?_⟩
    · exact absurd ⟨_,by simp,_,by simp,instances⟩ again
    · exact absurd ⟨_,by simp,_,by simp,records⟩ again
    · exact absurd ⟨_,by simp,_,by simp,instances⟩ again
    · exact absurd ⟨_,by simp,_,by simp,records⟩ again
  · intro t _ z _
    simp [Ty.number,Ty.string,Ty.primitive,objects_ofUnion]

/-- The two classes are joined as their superclass with both arguments, and the two objects as
one that may have the second property. -/
theorem join_upperBound_heirs : ∃ decls, Declarations.collect (Outline.program heirs) none false = some decls ∧
    decls.registry.Normal firstHeir ∧ decls.registry.Normal secondHeir ∧
    ∃ t, Lattice.join {registry := decls.registry, depth := 9} firstHeir secondHeir = some t ∧
    ∀ lax depth ans, (Lattice.isSubtype ⟨decls.registry,lax,depth⟩ firstHeir t = some ans → ans = true) ∧
      (Lattice.isSubtype ⟨decls.registry,lax,depth⟩ secondHeir t = some ans → ans = true) := by
  obtain ⟨⟨decls,collected,eq,-⟩,normalA,normalB,-⟩ := heirs_normal
  obtain ⟨-,-,joined⟩ := heirs_join
  rw [← eq] at normalA normalB joined
  refine ⟨decls,collected,normalA,normalB,_,joined,?_⟩
  refine (join_upperBound_iff collected normalA normalB).2 (fun q leads => ?_) 9 _ joined
  rw [eq] at leads ⊢
  exact heirs_apart leads

open Outline in
/-- A class with a property that its superclass does not have, a class beside it, and a record
type that may have a property of that name and another type. -/
def swallowing : List Outline := [
  {name := "P", doc := {kind := some .constructor}},
  {name := "A", doc := {kind := some .constructor, supertypes := [named "P" []]},
    properties := [("x",named "string" [])]},
  {name := "B", doc := {kind := some .constructor, supertypes := [named "P" []]}},
  {name := "R", doc := {kind := some .record},
    properties := [("x",⟨.optional (named "number" []),{}⟩)]}]

def swallowed : Ty := .union {objects := [.nominal ⟨⟨4⟩,[]⟩,.nominal ⟨⟨6⟩,[]⟩]}

/-- The classes are combined to their superclass, which has the properties of the record type
as far as it has any, and so only the record type is left. -/
theorem join_swallowed_not_above : Outline.Collects swallowing ∧
    (Outline.registry swallowing).Normal swallowed ∧ (Outline.registry swallowing).Normal (.nominal ⟨5⟩ []) ∧
    Lattice.join {registry := Outline.registry swallowing, depth := 9} swallowed (.nominal ⟨5⟩ []) =
      some (.nominal ⟨6⟩ []) ∧
    Lattice.isSubtype ⟨Outline.registry swallowing,false,9⟩ swallowed (.nominal ⟨6⟩ []) = some false := by
  obtain ⟨quiet,left,right⟩ :
      (Declarations.collect (Outline.program swallowing) none false).map (·.diagnostics.isEmpty) = some true ∧
      Lattice.normalize ⟨Outline.registry swallowing,false,5⟩ swallowed.objects = some swallowed.objects ∧
      Lattice.normalize ⟨Outline.registry swallowing,false,5⟩ [.nominal ⟨⟨5⟩,[]⟩] = some [.nominal ⟨⟨5⟩,[]⟩] := by
    decide +kernel
  refine ⟨Outline.collects_of_quiet quiet,?_,?_,by decide +kernel⟩
  · exact .union (by decide) ⟨5,left⟩ (by simpa using ⟨.nominal (by simp),.nominal (by simp)⟩)
  · exact .union (by decide) ⟨5,right⟩ (by simpa using .nominal (by simp))

end Heirs

end Registry
end GradualJs
