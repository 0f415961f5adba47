import GradualJs.Proofs.Ty.Normalize
import GradualJs.Proofs.Ty.Substitute
import Mathlib.Data.List.Forall2

/-! Types that are the same but for the order of properties. They stay the same when the
variables of a function are made unknown. -/
namespace GradualJs

open Merger List

variable {left right objects : List Obj} {u v : Union} {a b : Obj} {join : Ty → Ty → Ty} {t : Ty} {f : FunctionType}

namespace Ty

mutual
/-- Every union in the type has its objects in order. -/
inductive Ordered : Ty → Prop
  | bottom : Ordered .bottom
  | top : Ordered .top
  | unknown : Ordered .unknown
  | union {u : Union} : Obj.Increasing u.objects → (∀ o ∈ u.objects, OrderedObject o) → Ordered (.union u)
inductive OrderedObject : Obj → Prop
  | nominal {i : Instance} : (∀ t ∈ i.args, Ordered t) → OrderedObject (.nominal i)
  | record {x : Record} : (∀ f ∈ x.fields, Ordered f.type) → OrderedObject (.record x)
  | function {f : FunctionType} : (∀ t ∈ f.types, Ordered t) → OrderedObject (.function f)
  | namespaceValue {id : NamespaceId} : OrderedObject (.namespaceValue id)
end

lemma sameList_iff {left right : List Ty} :
    sameList left right = true ↔ Forall₂ (fun a b => a.same b = true) left right := by
  induction left generalizing right with
  | nil => cases right <;> simp [sameList,forall₂_nil_left_iff]
  | cons a rest ih => cases right <;> simp [sameList,ih,forall₂_nil_right_iff]

lemma sameObjects_iff : sameObjects left right = true ↔ Forall₂ (fun a b => sameObject a b = true) left right := by
  induction left generalizing right with
  | nil => cases right <;> simp [sameObjects,forall₂_nil_left_iff]
  | cons a rest ih => cases right <;> simp [sameObjects,ih,forall₂_nil_right_iff]

lemma sameFields_iff : sameFields fields others = true ↔ ∀ f ∈ fields, sameField f others = true := by
  induction fields with
  | nil => simp [sameFields]
  | cons f rest ih => simp [sameFields,ih]

lemma sameUnion_iff : sameUnion u v = true ↔ u.primitives = v.primitives ∧ u.enums = v.enums ∧ u.vars = v.vars ∧
      Forall₂ (fun a b => sameObject a b = true) u.objects v.objects := by
  obtain ⟨primitives,enums,vars,objects⟩ := u
  simp [sameUnion,sameObjects_iff,and_assoc]

lemma sameObject_identity (eq : sameObject a b = true) : a.identity = b.identity := by
  cases a with
  | nominal i =>
    cases b with
    | nominal j =>
      obtain ⟨id,args⟩ := i
      simp only [sameObject,sameInstance,Bool.and_eq_true,decide_eq_true_eq] at eq
      simp [Obj.identity,eq.1]
    | _ => simp [sameObject] at eq
  | record x =>
    cases b with
    | record y => rfl
    | _ => simp [sameObject] at eq
  | function f =>
    cases b with
    | function g => rfl
    | _ => simp [sameObject] at eq
  | namespaceValue id =>
    cases b with
    | namespaceValue other => simpa [sameObject,Obj.identity] using eq
    | _ => simp [sameObject] at eq

lemma same_identities (eq : Forall₂ (fun a b => sameObject a b = true) left right) :
    left.map Obj.identity = right.map Obj.identity := by
  induction eq with
  | nil => rfl
  | cons first _ ih => simp [sameObject_identity first,ih]

/-- Objects in order are left alone by the join that knows no declarations. -/
lemma combine_plain_apart (differ : a.identity ≠ b.identity) : (plainRules join).combine a b = pure none := by
  cases a <;> cases b <;> simp_all [MergeRules.combine,plainRules,Obj.identity]

lemma normalize_plain_increasing (increasing : Obj.Increasing objects) :
    normalizeObjects (plainRules join).combine objects = pure objects :=
  normalizeObjects_apart (increasing.imp fun ordered => combine_plain_apart ordered.2) (increasing.imp And.left)

def addObjects (t : Ty) (objects : List Obj) : Ty :=
  match t with
  | .bottom => .ofUnion {objects}
  | .union u => .ofUnion {
      primitives := u.primitives.union {}
      enums := mergeSorted (fun a b => a.index ≤ b.index) u.enums []
      vars := mergeSorted (fun a b => a ≤ b) u.vars []
      objects}
  | t => t

lemma merge_objects (plain : t.objects = [])
    (nonempty : objects.isEmpty = false) (increasing : Obj.Increasing objects) :
    t.merge (.ofUnion {objects}) = t.addObjects objects := by
  have whole : Ty.ofUnion {objects} = .union {objects} := by
    simp [ofUnion,Union.isEmpty,nonempty]
  cases t with
  | bottom => rfl
  | top | unknown => rw [whole]; rfl
  | union u =>
    have empty : u.objects = [] := plain
    have normal : normalizeObjects
        (plainRules (mergeWithin (max (Ty.union u).height (Ty.union {objects}).height))).combine
        objects = pure objects := normalize_plain_increasing increasing
    rw [whole]
    simp only [merge,mergeWithin,MergeRules.joinStep,MergeRules.joinUnions,empty,
      nil_append,normal,pure_bind,addObjects]
    rfl

lemma same_addObjects (eq : Forall₂ (fun a b => sameObject a b = true) left right)
    (nonempty : left.isEmpty = false) : (t.addObjects left).same (t.addObjects right) = true := by
  have nonempty' : right.isEmpty = false := by
    cases eq with
    | nil => cases nonempty
    | cons => rfl
  cases t with
  | bottom => simp [addObjects,ofUnion,Union.isEmpty,nonempty,nonempty',Ty.same,sameUnion_iff,eq]
  | top | unknown => simp [addObjects,Ty.same]
  | union u => simp [addObjects,ofUnion,Union.isEmpty,nonempty,nonempty',Ty.same,sameUnion_iff,eq]

lemma same_ofUnion (eq : sameUnion u v = true) : (ofUnion u).same (ofUnion v) = true := by
  obtain ⟨primitives,enums,vars,objects⟩ := sameUnion_iff.mp eq
  have length := objects.length_eq
  have objectless : u.objects.isEmpty = v.objects.isEmpty := by
    rw [Bool.eq_iff_iff,isEmpty_iff_length_eq_zero,isEmpty_iff_length_eq_zero,length]
  have empty : u.isEmpty = v.isEmpty := by
    simp only [Union.isEmpty,primitives,enums,vars,objectless]
  unfold ofUnion
  rw [empty]
  split
  · simp [Ty.same]
  · simp [Ty.same,eq]

section Replacing
variable (mapping : Substitution) {g : FunctionType} {types : List Ty}

lemma substituteObjects_eq_map (objects : List Obj) : (plain.substituteObjects mapping objects).run =
      objects.map fun o => (plain.substituteObject mapping o).run := by
  induction objects with
  | nil => rfl
  | cons o rest ih => simp [substituteObjects,ih]

lemma substituteFields_eq_map (fields : List Field) : (plain.substituteFields mapping fields).run =
      fields.map fun f => {f with type := f.type.substitutePlain mapping} := by
  induction fields with
  | nil => rfl
  | cons f rest ih =>
    cases f
    simp [substituteFields,substituteField,substitutePlain,ih]

lemma substituteList_eq_map (types : List Ty) :
    (plain.substituteList mapping types).run = types.map (substitutePlain mapping) := by
  induction types with
  | nil => rfl
  | cons t rest ih => simp [substituteList,substitutePlain,ih]

lemma substituteOption_eq_map (type : Option Ty) :
    (plain.substituteOption mapping type).run = type.map (substitutePlain mapping) := by
  cases type <;> rfl

lemma substituteObjects_identity (objects : List Obj) :
    (plain.substituteObjects mapping objects).run.map Obj.identity = objects.map Obj.identity := by
  rw [substituteObjects_eq_map,map_map]
  refine map_congr_left fun o _ => ?_
  cases o with
  | nominal i => cases i; rfl
  | record x => cases x; rfl
  | function f => cases f; rfl
  | namespaceValue id => rfl

variable {mapping : Substitution}

lemma merge_unknown (notTop : t ≠ .top) : t.merge .unknown = .unknown := by
  cases t with
  | top => exact absurd rfl notTop
  | bottom | unknown | union u => rfl

lemma foldlM_join_unknown (notTop : t ≠ .top) (unknowns : ∀ s ∈ types, s = .unknown) :
    (types.foldlM plain.join t).run = if types.isEmpty then t else .unknown := by
  induction types generalizing t with
  | nil => rfl
  | cons s rest ih =>
    obtain ⟨rfl,others⟩ := forall_mem_cons.mp unknowns
    have first : (plain.join t .unknown).run = .unknown := merge_unknown notTop
    rw [foldlM_cons,Id.run_bind,first,ih (by simp) others]
    cases rest <;> rfl

/-- A union in which a variable is made unknown is unknown; otherwise its objects change. -/
lemma substituteUnion_unknown (unknowns : ∀ t ∈ mapping.values, t = .unknown)
    (increasing : Obj.Increasing u.objects) : (Merger.plain.substituteUnion mapping u).run =
      if (u.vars.filterMap mapping.get?).isEmpty then
        if u.objects.isEmpty then
          .ofUnion {u with vars := u.vars.filter (!mapping.contains ·)}
        else (Ty.ofUnion {u with vars := u.vars.filter (!mapping.contains ·), objects := []}).addObjects
          (Merger.plain.substituteObjects mapping u.objects).run
      else .unknown := by
  obtain ⟨primitives,enums,vars,objects⟩ := u
  have length := substituteObjects_length mapping objects
  have ordered : Obj.Increasing (Merger.plain.substituteObjects mapping objects).run :=
    increasing.of_identities (substituteObjects_identity mapping objects)
  have normal : normalizePlain (Merger.plain.substituteObjects mapping objects).run =
      (Merger.plain.substituteObjects mapping objects).run := normalize_plain_increasing ordered
  have notTop (w : Union) : Ty.ofUnion w ≠ .top := by
    unfold ofUnion
    split <;> simp
  have values : ∀ t ∈ vars.filterMap mapping.get?, t = .unknown := by
    intro t mem
    obtain ⟨name,-,found⟩ := mem_filterMap.mp mem
    exact unknowns t (Table.mem_values_of_get? found)
  have plain := foldlM_join_unknown (notTop {primitives, enums, vars := vars.filter (!mapping.contains ·)}) values
  have normalized : (Merger.plain.normalize (Merger.plain.substituteObjects mapping objects).run).run =
      (Merger.plain.substituteObjects mapping objects).run := normal
  simp only [Merger.substituteUnion,Id.run_bind,plain,apply_ite Id.run,Id.run_pure,normalized]
  cases objects with
  | nil => rfl
  | cons o rest =>
    have nonempty : (Merger.plain.substituteObjects mapping (o :: rest)).run.isEmpty = false := by
      rw [← Bool.not_eq_true,isEmpty_iff_length_eq_zero,length]
      simp
    cases known : (vars.filterMap mapping.get?).isEmpty with
    | true =>
      have plain : (Ty.ofUnion {primitives, enums, vars := vars.filter (!mapping.contains ·)}).objects = [] :=
        sublist_nil.mp (ofUnion_objects_sublist _)
      simp only [nonempty,if_true,if_false,Bool.false_eq_true,isEmpty_cons]
      exact merge_objects plain nonempty ordered
    | false =>
      simp only [nonempty,if_false,Bool.false_eq_true]
      exact merge_objects (show Ty.unknown.objects = [] from rfl) nonempty ordered

lemma filterKeys_unknown (unknowns : ∀ t ∈ mapping.values, t = .unknown) (kept : String → Bool) :
    ∀ t ∈ (mapping.filterKeys kept).values, t = .unknown := by
  intro t mem
  obtain ⟨entry,found,rfl⟩ := mem_map.mp mem
  exact unknowns _ (mem_map_of_mem (mem_filter.mp found).1)

/-- What is the same as the type stays so when variables are made unknown. -/
def Erasable (a : Ty) : Prop :=
  ∀ mapping : Substitution, (∀ t ∈ mapping.values, t = .unknown) → ∀ b, a.same b = true →
    (a.substitutePlain mapping).same (b.substitutePlain mapping) = true

def ErasableObject (a : Obj) : Prop :=
  ∀ mapping : Substitution, (∀ t ∈ mapping.values, t = .unknown) → ∀ b, sameObject a b = true →
    sameObject (plain.substituteObject mapping a).run (plain.substituteObject mapping b).run = true

lemma forall₂_map {α : Type} {R : α → α → Prop} {f : α → α} {left right : List α}
    (parts : ∀ a ∈ left, ∀ b, R a b → R (f a) (f b)) (related : Forall₂ R left right) :
    Forall₂ R (left.map f) (right.map f) := by
  induction related with
  | nil => exact .nil
  | cons first _ ih =>
    obtain ⟨head,tail⟩ := forall_mem_cons.mp parts
    exact .cons (head _ first) (ih tail)

lemma erasable_union (increasing : Obj.Increasing u.objects)
    (parts : ∀ o ∈ u.objects, ErasableObject o) : Erasable (.union u) := by
  intro mapping unknowns b eq
  cases b with
  | union v =>
    obtain ⟨primitives,enums,vars,objects⟩ := u
    obtain ⟨primitives',enums',vars',objects'⟩ := v
    simp only [Ty.same] at eq
    obtain ⟨rfl,rfl,rfl,eq⟩ := sameUnion_iff.mp eq
    have increasing' : Obj.Increasing objects' := increasing.of_identities (same_identities eq).symm
    have replaced := forall₂_map (fun o mem => parts o mem mapping unknowns) eq
    rw [← substituteObjects_eq_map,← substituteObjects_eq_map] at replaced
    change (plain.substituteUnion mapping _).run.same (plain.substituteUnion mapping _).run = true
    rw [substituteUnion_unknown unknowns increasing,substituteUnion_unknown unknowns increasing']
    dsimp only
    split
    · cases eq with
      | nil => simp [same_ofUnion,sameUnion_iff]
      | cons first later => exact same_addObjects replaced (by simp [substituteObjects])
    · simp [Ty.same]
  | _ => simp [Ty.same] at eq

lemma erasable_list {others : List Ty} (parts : ∀ t ∈ types, Erasable t)
    (unknowns : ∀ t ∈ mapping.values, t = .unknown) (eq : sameList types others = true) :
    sameList (types.map (substitutePlain mapping)) (others.map (substitutePlain mapping)) = true := by
  rw [sameList_iff] at eq ⊢
  exact forall₂_map (fun t mem => parts t mem mapping unknowns) eq

lemma erasable_option {type other : Option Ty} (parts : ∀ t ∈ type, Erasable t)
    (unknowns : ∀ t ∈ mapping.values, t = .unknown) (eq : sameOption type other = true) :
    sameOption (type.map (substitutePlain mapping)) (other.map (substitutePlain mapping)) = true := by
  cases type with
  | none => cases other <;> simp_all [sameOption]
  | some t =>
    cases other with
    | none => simp [sameOption] at eq
    | some u =>
      simp only [sameOption] at eq
      simpa [sameOption] using parts t rfl mapping unknowns u eq

lemma erasable_fields (parts : ∀ f ∈ fields, Erasable f.type)
    (unknowns : ∀ t ∈ mapping.values, t = .unknown) (eq : sameFields fields others = true) :
    sameFields (plain.substituteFields mapping fields).run (plain.substituteFields mapping others).run = true := by
  rw [sameFields_iff] at eq ⊢
  simp only [substituteFields_eq_map,forall_mem_map]
  intro f mem
  have eq := eq f mem
  obtain ⟨name,type,optional,declared,constant⟩ := f
  have found : Field.find? (others.map fun f => {f with type := f.type.substitutePlain mapping}) name =
      (Field.find? others name).map fun f => {f with type := f.type.substitutePlain mapping} :=
    find?_map ..
  simp only [sameField,found] at eq ⊢
  cases named : Field.find? others name with
  | none => simp [named] at eq
  | some g =>
    simp only [named,Bool.and_eq_true] at eq
    simpa [eq.1] using parts _ mem mapping unknowns g.type eq.2

lemma erasable_nominal {i : Instance} (parts : ∀ t ∈ i.args, Erasable t) : ErasableObject (.nominal i) := by
  intro mapping unknowns b eq
  cases b with
  | nominal j =>
    obtain ⟨id,args⟩ := i
    cases j
    simp only [sameObject,sameInstance,Bool.and_eq_true,decide_eq_true_eq] at eq
    have replaced := erasable_list parts unknowns eq.2
    simp [substituteObject,substituteInstance,sameObject,sameInstance,eq.1,
      substituteList_eq_map,replaced]
  | _ => simp [sameObject] at eq

lemma erasable_record {x : Record} (parts : ∀ f ∈ x.fields, Erasable f.type) : ErasableObject (.record x) := by
  intro mapping unknowns b eq
  cases b with
  | record y =>
    obtain ⟨fields,exact,loose⟩ := x
    cases y
    simp only [sameObject,sameRecord,Bool.and_eq_true,decide_eq_true_eq] at eq
    obtain ⟨⟨⟨rfl,rfl⟩,length⟩,eq⟩ := eq
    have replaced := erasable_fields parts unknowns eq
    simp only [substituteFields_eq_map] at replaced
    simp [substituteObject,substituteRecord,sameObject,sameRecord,substituteFields_eq_map,length, replaced]
  | _ => simp [sameObject] at eq

lemma erasable_function (parts : ∀ t ∈ f.types, Erasable t)
    (unknowns : ∀ t ∈ mapping.values, t = .unknown) (eq : sameFunction f g = true) :
    sameFunction (plain.substituteFunction mapping f).run (plain.substituteFunction mapping g).run = true := by
  obtain ⟨required,optional,rest,returnType,recv,constructs,typeParams,loose⟩ := f
  obtain ⟨required',optional',rest',returnType',recv',constructs',typeParams',loose'⟩ := g
  simp only [FunctionType.mem_types,or_imp,forall_and,forall_eq] at parts
  obtain ⟨inRequired,inOptional,inRest,inReturn,inReceiver,inConstructs⟩ := parts
  simp only [sameFunction,Bool.and_eq_true,decide_eq_true_eq] at eq
  obtain ⟨⟨⟨⟨⟨⟨⟨required,optional⟩,rest⟩,res⟩,recv⟩,constructs⟩,rfl⟩,rfl⟩ := eq
  have free := filterKeys_unknown unknowns (!typeParams.contains ·)
  simp only [substituteFunction,Id.run_bind,Id.run_pure,sameFunction,substituteList_eq_map,
    substituteOption_eq_map,Bool.and_eq_true,decide_true,and_true]
  exact ⟨⟨⟨⟨⟨erasable_list inRequired free required,erasable_list inOptional free optional⟩,
    erasable_option inRest free rest⟩,inReturn _ free _ res⟩,
    erasable_option inReceiver free recv⟩,erasable_option inConstructs free constructs⟩

lemma erasable_functionObject (parts : ∀ t ∈ f.types, Erasable t) : ErasableObject (.function f) := by
  intro mapping unknowns b eq
  cases b with
  | function g =>
    simp only [sameObject] at eq
    simpa [substituteObject,sameObject] using erasable_function parts unknowns eq
  | _ => simp [sameObject] at eq

mutual
lemma Ordered.erasable : {t : Ty} → Ordered t → Erasable t
  | _, .bottom | _, .top | _, .unknown => fun _ _ b eq => by
    cases b <;> simp_all [Ty.same,substitutePlain,substitute]
  | _, .union increasing parts => erasable_union increasing fun o mem => (parts o mem).erasable
lemma OrderedObject.erasable : {o : Obj} → OrderedObject o → ErasableObject o
  | _, .nominal parts => erasable_nominal fun t mem => (parts t mem).erasable
  | _, .record parts => erasable_record fun f mem => (parts f mem).erasable
  | _, .function parts => erasable_functionObject fun t mem => (parts t mem).erasable
  | _, .namespaceValue => fun _ _ b eq => by
    cases b with
    | namespaceValue other => exact eq
    | _ => simp [sameObject] at eq
end

lemma eraseTypeParams_eq (generic : f.typeParams.isEmpty = false) : f.eraseTypeParams =
      (plain.substituteFunction f.erasure {f with typeParams := []}).run := by
  obtain ⟨required,optional,rest,returnType,recv,constructs,typeParams,loose⟩ := f
  have all (mapping : Substitution) : mapping.filterKeys (!([] : List String).contains ·) = mapping := by
    simp [Table.filterKeys]
  simp only [FunctionType.eraseTypeParams,generic,Bool.false_eq_true,if_false,
    substituteFunction,all,Id.run_bind,Id.run_pure,substituteList_eq_map,
    substituteOption_eq_map]
  cases rest <;> cases recv <;> cases constructs <;>
    simp [FunctionType.mapTypes,FunctionType.erasure,substitutePlain]

lemma same_eraseTypeParams (ordered : ∀ t ∈ f.types, Ordered t)
    (eq : sameFunction f g = true) : sameFunction f.eraseTypeParams g.eraseTypeParams = true := by
  obtain ⟨params,bare⟩ : f.typeParams = g.typeParams ∧
      sameFunction {f with typeParams := []} {g with typeParams := []} = true := by
    cases f
    cases g
    simp_all [sameFunction]
  cases generic : f.typeParams.isEmpty with
  | true => simpa [FunctionType.eraseTypeParams,generic,← params] using eq
  | false =>
    have erasure : g.erasure = f.erasure := by rw [FunctionType.erasure,← params,FunctionType.erasure]
    rw [eraseTypeParams_eq generic,eraseTypeParams_eq (params ▸ generic),erasure]
    exact erasable_function (fun t mem => (ordered t mem).erasable) (fun t => FunctionType.erasure_values) bare

end Replacing

end Ty
end GradualJs
