import GradualJs.Proofs.Lattice.Joining
import GradualJs.Proofs.Ty.Same

/-! Normal types: types as joins make them, at every level of nesting. A normal type fits
itself, and it fits a type that differs from it in the order of properties only. An optional
property needs this most: it is compared with the join of its type with `undefined`, and
only objects that are left alone by normalisation come through that join unchanged. -/
namespace GradualJs

open Ty List FunctionType

variable {α β : Type} {a b c t : Ty} {objects : List Obj} {fields others : List Field} {f g : Field} {x y : Obj}

lemma forall_mem_pair {P : Obj → Prop} : (∀ o ∈ [x,y], P o) ↔ P x ∧ P y := by
  simp

lemma Ty.primitive_eq_union {set : PrimitiveSet} (members : set.isEmpty = false) :
    primitive set = .union {primitives := set} := by
  simp [primitive,ofUnion,Union.isEmpty,members]

namespace Relations

variable {above : Relations}

lemma Extends.combine (wider : above.Extends below) (r : Registry) {a b : Obj}
    (ended : (mergeRules r below).combine a b = some combined) :
    (mergeRules r above).combine a b = some combined := by
  have keep := (wider.answering.level r).rulesKeep nofun
  have held : Lifting.keeps.Holds (fun found => ∀ o ∈ found, unlimited.LightObject _ o)
      fun i => (mergeRules r (levels above below i)).combine a b :=
    Limits.holds_combine keep nofun nofun
  exact (held combined ended).1

lemma Extends.normalize (wider : above.Extends below) (r : Registry)
    (ended : normalizeObjects (mergeRules r below).combine objects = some merged) :
    normalizeObjects (mergeRules r above).combine objects = some merged := by
  have keep := (wider.answering.level r).rulesKeep nofun
  have held : Lifting.keeps.Holds (fun found => ∀ o ∈ found, unlimited.LightObject _ o)
      fun i => normalizeObjects (mergeRules r (levels above below i)).combine objects :=
    Limits.holds_normalizeObjects (fun _ _ => Limits.holds_combine keep) fun _ _ => nofun
  exact (held merged ended).1

end Relations

namespace Registry

def Unchanged (r : Registry) (objects : List Obj) : Prop :=
  ∃ depth, Lattice.normalize {registry := r, depth} objects = some objects

mutual
/-- A type whose objects are left alone by normalisation at every level of nesting, and
whose unions have members. Of a function this is asked with and without its own variables,
since functions are compared without them. -/
inductive Normal (r : Registry) : Ty → Prop
  | bottom : Normal r .bottom
  | top : Normal r .top
  | unknown : Normal r .unknown
  | union {u : Union} : u.isEmpty = false → r.Unchanged u.objects →
      (∀ o ∈ u.objects, NormalObject r o) → Normal r (.union u)
inductive NormalObject (r : Registry) : Obj → Prop
  | nominal {i : Instance} : (∀ t ∈ i.args, Normal r t) → NormalObject r (.nominal i)
  | record {x : Record} : (x.fields.map (·.name)).Nodup → (∀ f ∈ x.fields, Normal r f.type) → NormalObject r (.record x)
  | function {f : FunctionType} : (∀ t ∈ f.types, Normal r t) →
      (∀ t ∈ f.eraseTypeParams.types, Normal r t) → NormalObject r (.function f)
  | namespaceValue {id : NamespaceId} : NormalObject r (.namespaceValue id)
end

variable {r : Registry}

lemma normal_primitive {set : PrimitiveSet} (members : set.isEmpty = false) : r.Normal (.primitive set) := by
  rw [primitive_eq_union members]
  exact .union (by simp [Union.isEmpty,members]) ⟨0,rfl⟩ (by simp)

lemma Unchanged.increasing (unchanged : r.Unchanged objects) : Obj.Increasing objects := by
  obtain ⟨depth,ended⟩ := unchanged
  obtain ⟨apart,sorted⟩ := pairwise_of_normalized ended
  refine (sorted.and apart).imp fun ⟨notAfter,alone⟩ => ⟨notAfter,fun eq => ?_⟩
  exact MergeRules.combine_ne_none eq alone

lemma Unchanged.nodup (unchanged : r.Unchanged objects) : (objects.map Obj.identity).Nodup :=
  pairwise_map.mpr (unchanged.increasing.imp And.right)

mutual
lemma Normal.ordered : {t : Ty} → r.Normal t → t.Ordered
  | _, .bottom => .bottom
  | _, .top => .top
  | _, .unknown => .unknown
  | _, .union _ unchanged parts => .union unchanged.increasing fun o mem =>
      (parts o mem).ordered
lemma NormalObject.ordered : {o : Obj} → r.NormalObject o → OrderedObject o
  | _, .nominal parts => .nominal fun t mem => (parts t mem).ordered
  | _, .record _ parts => .record fun f mem => (parts f mem).ordered
  | _, .function parts _ => .function fun t mem => (parts t mem).ordered
  | _, .namespaceValue => .namespaceValue
end

/-- The second type is the first with more members, or any type at all if the first has no
values. -/
inductive Wider (r : Registry) (lax : Bool) : Ty → Ty → Prop
  | refl (t : Ty) : Wider r lax t t
  | bottom (t : Ty) : Wider r lax .bottom t
  | union {v w : Union} : r.Widens lax v w → Wider r lax (.union v) (.union w)

lemma Fits.wider (fits : r.Fits lax a b) (wider : r.Wider lax b c) : r.Fits lax a c := by
  cases wider with
  | refl => exact fits
  | union widens => exact fits.widen widens
  | bottom =>
    cases a with
    | bottom | unknown => simp
    | top | union u => exact (fits_iff.mp fits).elim

/-- Joining `undefined` to a type whose objects normalisation leaves alone adds members and
nothing else. -/
lemma Unchanged.wider_joined (backed : r.Backed) (lax : Bool)
    (unchanged : r.Unchanged t.objects) {joined : Ty} (joins : r.Joins t .undefined joined) :
    r.Wider lax t joined := by
  obtain ⟨_ | depth,ended⟩ := joins
  · cases ended
  cases t with
  | bottom => exact .bottom _
  | top | unknown =>
    cases ended
    exact .refl _
  | union u =>
    let undefined : Union := {primitives := .undefinedOnly}
    obtain ⟨objects,settled,normalized,absorbed,rfl⟩ := joinUnions_eq_some (v := undefined) ended
    obtain ⟨level,eq⟩ := unchanged
    have deeper := (Relations.within_extends r (Nat.le_max_left depth level)).normalize r normalized
    rw [append_nil] at deeper
    cases deeper.symm.trans ((Relations.within_extends r (Nat.le_max_right depth level)).normalize r eq)
    obtain ⟨widens,-,empty⟩ := widens_absorbEnums lax backed absorbed
    have whole : settled.isEmpty = false := by
      by_contra lost
      have noMembers := empty (by simpa using lost)
      simp [Union.isEmpty,Union.joined,PrimitiveSet.isEmpty,PrimitiveSet.union,PrimitiveSet.empty,
        PrimitiveSet.zipWith,PrimitiveSet.undefinedOnly,undefined] at noMembers
    have res : ofUnion settled = .union settled := by simp [ofUnion,whole]
    rw [res]
    exact .union ((widens_joined lax u undefined (Subset.refl _)).trans widens)

lemma Unchanged.joinsUndefined (plain : ∀ id, (r.enumBacking id).Plain) (lax : Bool)
    (unchanged : r.Unchanged t.objects) :
    ∃ joined, r.Joins t .undefined joined ∧ r.Wider lax t joined := by
  suffices ends : ∃ joined, r.Joins t .undefined joined by
    obtain ⟨joined,joins⟩ := ends
    have backed : r.Backed := fun id _ _ _ => fits_of_plain (plain id)
    exact ⟨joined,joins,unchanged.wider_joined backed lax joins⟩
  cases t with
  | bottom | top | unknown => exact ⟨_,1,rfl⟩
  | union u =>
    obtain ⟨depth,normalized⟩ := unchanged
    obtain ⟨settled,-,level,absorbs⟩ := settles_absorbEnums plain (u.joined {primitives := .undefinedOnly} u.objects)
    have deeper := (Relations.within_extends r (Nat.le_max_left depth level)).normalize r normalized
    refine ⟨.ofUnion settled,max depth level + 1,?_⟩
    refine Option.bind_eq_some_iff.mpr ⟨u.objects,(append_nil u.objects).symm ▸ deeper,?_⟩
    exact Option.bind_eq_some_iff.mpr ⟨settled,absorbs _ (Nat.le_max_right _ _),rfl⟩

lemma Normal.unchanged (normal : r.Normal t) : r.Unchanged t.objects := by
  cases normal with
  | union _ unchanged _ => exact unchanged
  | bottom | top | unknown => exact ⟨0,rfl⟩

/-- Normal types that are equal, or differ in the order of properties only. -/
def Alike (r : Registry) (a b : Ty) : Prop := r.Normal a ∧ r.Normal b ∧ (a = b ∨ a.same b = true ∨ b.same a = true)

def AlikeObject (r : Registry) (a b : Obj) : Prop :=
  r.NormalObject a ∧ r.NormalObject b ∧ (a = b ∨ sameObject a b = true ∨ sameObject b a = true)

lemma Alike.symm (alike : r.Alike a b) : r.Alike b a := ⟨alike.2.1,alike.1,alike.2.2.imp Eq.symm Or.symm⟩

lemma alike_list (normalLeft : ∀ t ∈ left, r.Normal t) (normalRight : ∀ t ∈ right, r.Normal t)
    (eq : left = right ∨ sameList left right = true ∨ sameList right left = true) :
    Forall₂ r.Alike left right := by
  induction left generalizing right with
  | nil =>
    cases right with
    | nil => exact .nil
    | cons => simp [sameList] at eq
  | cons a rest ih =>
    cases right with
    | nil => simp [sameList] at eq
    | cons b others =>
      obtain ⟨normalA,restLeft⟩ := forall_mem_cons.mp normalLeft
      obtain ⟨normalB,restRight⟩ := forall_mem_cons.mp normalRight
      simp only [cons.injEq,sameList,Bool.and_eq_true] at eq
      refine .cons ⟨normalA,normalB,?_⟩ (ih restLeft restRight ?_)
      · exact eq.imp And.left (Or.imp And.left And.left)
      · exact eq.imp And.right (Or.imp And.right And.right)

lemma alike_option {a b : Option Ty} (normalA : ∀ t ∈ a, r.Normal t) (normalB : ∀ t ∈ b, r.Normal t)
    (eq : a = b ∨ sameOption a b = true ∨ sameOption b a = true) : Option.Rel r.Alike a b := by
  cases a with
  | none =>
    cases b with
    | none => exact .none
    | some t => simp [sameOption] at eq
  | some s =>
    cases b with
    | none => simp [sameOption] at eq
    | some t =>
      simp only [Option.some.injEq,sameOption] at eq
      exact .some ⟨normalA s rfl,normalB t rfl,eq⟩

lemma forall₂_padArgs (related : Forall₂ R left right) : ∀ pair ∈ padArgs left right, R pair.1 pair.2 := by
  induction related with
  | nil => simp [padArgs]
  | cons first _ ih =>
    rw [padArgs]
    exact forall_mem_cons.mpr ⟨first,ih⟩

lemma forall₂_mem (related : Forall₂ R left right) : ∀ a ∈ left, ∃ b ∈ right, R a b := by
  induction related with
  | nil => simp
  | @cons a b _ _ first _ ih =>
    refine forall_mem_cons.mpr ⟨⟨b,by simp,first⟩,fun c mem => ?_⟩
    obtain ⟨d,inRight,held⟩ := ih c mem
    exact ⟨d,by simp [inRight],held⟩

lemma alike_objects (normalLeft : ∀ o ∈ left, r.NormalObject o) (normalRight : ∀ o ∈ right, r.NormalObject o)
    (eq : left = right ∨ Forall₂ (fun a b => sameObject a b = true) left right ∨
      Forall₂ (fun a b => sameObject a b = true) right left) :
    ∀ o ∈ left, ∃ p ∈ right, r.AlikeObject o p := by
  intro o mem
  rcases eq with rfl | eq | eq
  · exact ⟨o,mem,normalLeft o mem,normalRight o mem,.inl rfl⟩
  · obtain ⟨p,inRight,eq⟩ := forall₂_mem eq o mem
    exact ⟨p,inRight,normalLeft o mem,normalRight p inRight,.inr (.inl eq)⟩
  · obtain ⟨p,inRight,eq⟩ := forall₂_mem eq.flip o mem
    exact ⟨p,inRight,normalLeft o mem,normalRight p inRight,.inr (.inr eq)⟩

lemma alike_union {u : Union} (alike : r.Alike (.union u) b) :
    ∃ v, b = .union v ∧ u.primitives = v.primitives ∧ u.enums = v.enums ∧ u.vars = v.vars ∧
      ∀ o ∈ u.objects, ∃ p ∈ v.objects, r.AlikeObject o p := by
  obtain ⟨normalU,normalB,eq⟩ := alike
  cases normalU with
  | union _ _ partsU =>
    cases normalB with
    | bottom | top | unknown => simp [Ty.same] at eq
    | @union v _ _ partsV =>
      simp only [Ty.union.injEq,Ty.same,Ty.sameUnion_iff] at eq
      refine ⟨v,rfl,?_⟩
      rcases eq with rfl | ⟨primitives,enums,vars,objects⟩ | ⟨primitives,enums,vars,objects⟩
      · exact ⟨rfl,rfl,rfl,alike_objects partsU partsV (.inl rfl)⟩
      · exact ⟨primitives,enums,vars,alike_objects partsU partsV (.inr (.inl objects))⟩
      · exact ⟨primitives.symm,enums.symm,vars.symm,alike_objects partsU partsV (.inr (.inr objects))⟩

lemma find?_of_nodup (distinct : (fields.map (·.name)).Nodup)
    (mem : f ∈ fields) : Field.find? fields f.name = some f := by
  induction fields with
  | nil => cases mem
  | cons g rest ih =>
    obtain ⟨fresh,others⟩ := nodup_cons.mp distinct
    rcases mem_cons.mp mem with rfl | inRest
    · simp [Field.find?]
    · have differ : g.name ≠ f.name := fun eq => fresh (mem_map.mpr ⟨f,inRest,eq.symm⟩)
      simpa [Field.find?,differ] using ih others inRest

lemma find?_name (found : Field.find? fields name = some f) : f.name = name := by
  simpa using find?_some found

lemma sameField_iff : sameField f others = true ↔
    ∃ g, Field.find? others f.name = some g ∧ f.optional = g.optional ∧ f.declared = g.declared ∧
      f.constant = g.constant ∧ f.type.same g.type = true := by
  obtain ⟨name,type,optional,declared,constant⟩ := f
  simp only [sameField]
  cases Field.find? others name with
  | none => simp
  | some g => simp [and_assoc]

/-- As many properties with different names, each with an equal one on the other side, are all
of them. -/
lemma same_fields_back (distinct : (fields.map (·.name)).Nodup)
    (distinct' : (others.map (·.name)).Nodup) (length : fields.length = others.length)
    (eq : sameFields fields others = true) (mem : g ∈ others) :
    ∃ f, Field.find? fields g.name = some f ∧ f.optional = g.optional ∧ f.type.same g.type = true := by
  have matched := sameFields_iff.mp eq
  have subset : fields.map (·.name) ⊆ others.map (·.name) := by
    intro name inNames
    obtain ⟨f,inFields,rfl⟩ := mem_map.mp inNames
    obtain ⟨h,found,-⟩ := sameField_iff.mp (matched f inFields)
    exact mem_map.mpr ⟨h,Field.find?_mem found,find?_name found⟩
  have all : (fields.map (·.name)).Perm (others.map (·.name)) :=
    (subperm_of_subset distinct subset).perm_of_length_le (by simp [length])
  obtain ⟨f,inFields,named⟩ := mem_map.mp (all.mem_iff.mpr (mem_map_of_mem mem))
  obtain ⟨h,found,optional,-,-,types⟩ := sameField_iff.mp (matched f inFields)
  have own : Field.find? others f.name = some g := named ▸ find?_of_nodup distinct' mem
  cases found.symm.trans own
  exact ⟨f,named ▸ find?_of_nodup distinct inFields,optional,types⟩

lemma alike_fields {x y : Record} (alike : r.AlikeObject (.record x) (.record y)) (mem : g ∈ y.fields) :
    ∃ f, Field.find? x.fields g.name = some f ∧ f.optional = g.optional ∧ r.Alike f.type g.type := by
  obtain ⟨normalX,normalY,eq⟩ := alike
  cases normalX with
  | record distinctX partsX =>
    cases normalY with
    | record distinctY partsY =>
      suffices found : ∃ f, Field.find? x.fields g.name = some f ∧ f.optional = g.optional ∧
          (f.type = g.type ∨ f.type.same g.type = true ∨ g.type.same f.type = true) by
        obtain ⟨f,found,optional,types⟩ := found
        exact ⟨f,found,optional,partsX f (Field.find?_mem found),partsY g mem,types⟩
      obtain ⟨fields,exact,loose⟩ := x
      obtain ⟨others,exact',loose'⟩ := y
      simp only [Obj.record.injEq,sameObject,sameRecord,Bool.and_eq_true,decide_eq_true_eq] at eq
      rcases eq with eq | ⟨⟨-,length⟩,eq⟩ | ⟨-,eq⟩
      · cases eq
        exact ⟨g,find?_of_nodup distinctX mem,rfl,.inl rfl⟩
      · obtain ⟨f,found,optional,types⟩ := same_fields_back distinctX distinctY length eq mem
        exact ⟨f,found,optional,.inr (.inl types)⟩
      · obtain ⟨f,found,optional,-,-,types⟩ := sameField_iff.mp (sameFields_iff.mp eq g mem)
        exact ⟨f,found,optional.symm,.inr (.inr types)⟩

/-- Functions of one shape that are related place by place. -/
structure RelatedFunction (param res : Ty → Ty → Prop) (f g : FunctionType) : Prop where
  required : Forall₂ param f.required g.required
  optional : Forall₂ param f.optional g.optional
  rest : Option.Rel param f.rest g.rest
  receiver : ∀ s ∈ f.receiver, ∀ t ∈ g.receiver, param s t
  returnType : res f.returnType g.returnType
  constructs : Option.Rel res f.constructs g.constructs

lemma rel_getElem? (related : Forall₂ R left right) (index : Nat) : Option.Rel R left[index]? right[index]? := by
  induction related generalizing index with
  | nil => exact .none
  | cons first _ ih =>
    cases index with
    | zero => exact .some first
    | succ index => exact ih index

namespace RelatedFunction

variable {param : Ty → Ty → Prop} {f g : FunctionType} (related : RelatedFunction param res f g)
include related

lemma paramAt (index : Nat) : Option.Rel param (f.param index) (g.param index) := by
  have positional : Forall₂ param f.positional g.positional := rel_append related.required related.optional
  have both := rel_getElem? positional index
  unfold FunctionType.param
  generalize f.positional[index]? = a at both ⊢
  generalize g.positional[index]? = b at both ⊢
  cases both with
  | none => exact related.rest
  | some first => exact .some first

lemma arityFits : Relations.arityFits f g := by
  have required := related.required.length_eq
  have optional := related.optional.length_eq
  have rest : f.rest.isSome = g.rest.isSome := by
    have both := related.rest
    generalize f.rest = a at both ⊢
    generalize g.rest = b at both ⊢
    cases both <;> rfl
  simp only [Relations.arityFits,minArity,maxArity,positionalLength,required,optional,rest]
  split <;> simp_all

lemma fits {p : Premises} (params : ∀ s t, param s t → p.fits t s)
    (results : ∀ s t, res s t → p.fits s t) : p.PlainFunctionFits f g := by
  have optional {a b : Option Ty} (both : Option.Rel param a b) : p.OptionalParamFits a b := by
    cases both with
    | none => trivial
    | some held => exact .inl (params _ _ held)
  have constructs {a b : Option Ty} (both : Option.Rel res a b) : p.ConstructsFit a b := by
    cases both with
    | none => trivial
    | some held => exact results _ _ held
  refine ⟨constructs related.constructs,related.arityFits,
    fun index _ => optional (related.paramAt index),optional related.rest,?_,
    results _ _ related.returnType⟩
  have receiver := related.receiver
  generalize f.receiver = a at receiver ⊢
  generalize g.receiver = b at receiver ⊢
  cases a with
  | none => trivial
  | some s =>
    cases b with
    | none => trivial
    | some t => exact .inl (params _ _ (receiver s rfl t rfl))

end RelatedFunction

lemma alike_function {f g : FunctionType} (normalF : ∀ t ∈ f.types, r.Normal t)
    (normalG : ∀ t ∈ g.types, r.Normal t) (eq : f = g ∨ sameFunction f g = true ∨ sameFunction g f = true) :
    RelatedFunction r.Alike r.Alike f g := by
  obtain ⟨required,optional,rest,returnType,receiver,constructs,typeParams,loose⟩ := f
  obtain ⟨required',optional',rest',returnType',receiver',constructs',typeParams',loose'⟩ := g
  simp only [FunctionType.mem_types] at normalF normalG
  simp only [FunctionType.mk.injEq,sameFunction,Bool.and_eq_true,decide_eq_true_eq] at eq
  constructor
  · refine alike_list (fun t mem => normalF t (.inl mem)) (fun t mem => normalG t (.inl mem)) ?_
    tauto
  · refine alike_list (fun t mem => normalF t (.inr (.inl mem))) (fun t mem => normalG t (.inr (.inl mem))) ?_
    tauto
  · refine alike_option (fun t mem => normalF t (.inr (.inr (.inl mem))))
      (fun t mem => normalG t (.inr (.inr (.inl mem)))) ?_
    tauto
  · rintro s rfl t rfl
    refine ⟨normalF s (by simp),normalG t (by simp),?_⟩
    simp only [Option.some.injEq,sameOption] at eq
    tauto
  · exact ⟨normalF _ (by simp),normalG _ (by simp),by tauto⟩
  · refine alike_option (fun t mem => normalF t (.inr (.inr (.inr (.inr (.inr mem))))))
      (fun t mem => normalG t (.inr (.inr (.inr (.inr (.inr mem)))))) ?_
    tauto

section Consistent

variable {related : Ty → Ty → Prop}

lemma AlikeObject.objectFits (kinded : r.Kinded) (alike : r.AlikeObject x y)
    (held : ∀ a b c, r.Alike a b → r.Wider lax b c → related a c) :
    (r.unfolded lax related).ObjectFits r x y := by
  have straight (a b : Ty) (alike : r.Alike a b) : related a b := held a b b alike (.refl b)
  have whole := alike
  obtain ⟨normalX,normalY,eq⟩ := alike
  cases normalX with
  | @nominal i partsX =>
    cases normalY with
    | @nominal j partsY =>
      obtain ⟨id,args⟩ := i
      obtain ⟨id',args'⟩ := j
      simp only [Obj.nominal.injEq,Instance.mk.injEq,sameObject,sameInstance, Bool.and_eq_true,decide_eq_true_eq] at eq
      have ids : id = id' := by
        rcases eq with ⟨eq,-⟩ | ⟨eq,-⟩ | ⟨eq,-⟩
        · exact eq
        · exact eq
        · exact eq.symm
      have lists : args = args' ∨ sameList args args' = true ∨ sameList args' args = true :=
        eq.imp And.right (Or.imp And.right And.right)
      refine .inr ?_
      simp only [Premises.InstanceFits,upcast,ids,if_true]
      exact forall₂_padArgs ((alike_list partsX partsY lists).imp straight)
    | record | function | namespaceValue => simp [sameObject] at eq
  | @record x distinctX partsX =>
    cases normalY with
    | @record y distinctY partsY =>
      intro wanted mem
      obtain ⟨found,isFound,optional,types⟩ := alike_fields whole mem
      have fromFound : Field.find? (r.fieldsOf (.record x)).1 wanted.name = some found := isFound
      simp only [Premises.FieldFits,fromFound]
      refine ⟨fun yes => optional ▸ yes,?_⟩
      unfold Premises.Expected
      split
      · obtain ⟨joined,joins,wider⟩ := types.2.1.unchanged.joinsUndefined kinded.enumBacking lax
        exact ⟨joined,joins,held _ _ _ types wider⟩
      · exact ⟨wanted.type,rfl,straight _ _ types⟩
    | nominal | function | namespaceValue => simp [sameObject] at eq
  | @function f partsF erasedF =>
    cases normalY with
    | @function g partsG erasedG =>
      simp only [Obj.function.injEq,sameObject] at eq
      have erased : f.eraseTypeParams = g.eraseTypeParams ∨ sameFunction f.eraseTypeParams g.eraseTypeParams = true ∨
          sameFunction g.eraseTypeParams f.eraseTypeParams = true := by
        rcases eq with rfl | eq | eq
        · exact .inl rfl
        · exact .inr (.inl (same_eraseTypeParams (fun t mem => (partsF t mem).ordered) eq))
        · exact .inr (.inr (same_eraseTypeParams (fun t mem => (partsG t mem).ordered) eq))
      exact .inr ((alike_function erasedF erasedG erased).fits (fun _ _ alike => straight _ _ alike.symm) straight)
    | nominal | record | namespaceValue => simp [sameObject] at eq
  | @namespaceValue id =>
    cases normalY with
    | @namespaceValue other =>
      simp only [Obj.namespaceValue.injEq,sameObject,decide_eq_true_eq] at eq
      rcases eq with eq | eq | eq
      · exact eq
      · exact eq
      · exact eq.symm
    | nominal | record | function => simp [sameObject] at eq

lemma Alike.fits_wider (kinded : r.Kinded) (alike : r.Alike a b) (wider : r.Wider lax b c) : r.Fits lax a c := by
  refine fits_of_consistent (fun a c => ∃ b, r.Alike a b ∧ r.Wider lax b c) ?_ ⟨b,alike,wider⟩
  rintro a c ⟨b,alike,wider⟩
  cases a with
  | bottom => trivial
  | unknown => cases c <;> trivial
  | top =>
    have top : b = .top := by
      obtain ⟨-,normal,eq⟩ := alike
      cases normal <;> simp_all [Ty.same]
    subst top
    cases wider
    trivial
  | union u =>
    obtain ⟨v,rfl,primitives,enums,vars,objects⟩ := alike_union alike
    obtain ⟨w,rfl,widens⟩ : ∃ w, c = .union w ∧ r.Widens lax v w := by
      cases wider with
      | refl => exact ⟨v,rfl,.refl v⟩
      | union widens => exact ⟨_,rfl,widens⟩
    refine ⟨primitives ▸ widens.primitives,?_,fun id mem => ?_,fun o mem => ?_⟩
    · exact all_eq_true.mpr fun name mem => by simpa using widens.vars (vars ▸ mem)
    · rcases widens.enums id (enums ▸ mem) with inW | covered
      · exact .inl (by simpa using inW)
      · exact .inr (.inl covered)
    · obtain ⟨p,inV,alike⟩ := objects o mem
      refine ⟨p,widens.objects inV,alike.objectFits kinded fun a b c alike wider => ?_⟩
      exact .inr ⟨b,alike,wider⟩

end Consistent

lemma Normal.fits_self (kinded : r.Kinded) (normal : r.Normal t) : r.Fits lax t t :=
  Alike.fits_wider kinded ⟨normal,normal,.inl rfl⟩ (.refl t)

lemma AlikeObject.fits (kinded : r.Kinded) (alike : r.AlikeObject x y) : r.FitsObject lax x y :=
  alike.objectFits kinded fun _ _ _ alike wider => alike.fits_wider kinded wider

lemma NormalObject.fits_self (kinded : r.Kinded) (normal : r.NormalObject x) : r.FitsObject lax x x :=
  AlikeObject.fits kinded ⟨normal,normal,.inl rfl⟩

/-! Less is enough for a type to fit itself. It is compared with itself part by part; only an
optional property is compared with something else, the join of its type with `undefined`. So it
fits itself if normalisation leaves alone the types of optional properties, whatever the others
are. -/

mutual
/-- Properties have different names, and normalisation leaves the types of optional ones alone. -/
inductive Tame (r : Registry) : Ty → Prop
  | bottom : Tame r .bottom
  | top : Tame r .top
  | unknown : Tame r .unknown
  | union {u : Union} : (∀ o ∈ u.objects, TameObject r o) → Tame r (.union u)
inductive TameObject (r : Registry) : Obj → Prop
  | nominal {i : Instance} : (∀ t ∈ i.args, Tame r t) → TameObject r (.nominal i)
  | record {x : Record} : (x.fields.map (·.name)).Nodup → (∀ f ∈ x.fields, Tame r f.type) →
      (∀ f ∈ x.fields, f.optional = true → r.Unchanged f.type.objects) → TameObject r (.record x)
  | function {f : FunctionType} : (∀ t ∈ f.eraseTypeParams.types, Tame r t) → TameObject r (.function f)
  | namespaceValue {id : NamespaceId} : TameObject r (.namespaceValue id)
end

mutual
lemma Normal.tame : {t : Ty} → r.Normal t → r.Tame t
  | _, .bottom => .bottom
  | _, .top => .top
  | _, .unknown => .unknown
  | _, .union _ _ parts => .union fun o mem => (parts o mem).tame
lemma NormalObject.tame : {o : Obj} → r.NormalObject o → r.TameObject o
  | _, .nominal parts => .nominal fun t mem => (parts t mem).tame
  | _, .record distinct parts => .record distinct (fun f mem => (parts f mem).tame)
      fun f mem _ => (parts f mem).unchanged
  | _, .function _ erased => .function fun t mem => (erased t mem).tame
  | _, .namespaceValue => .namespaceValue
end

lemma relatedFunction_refl {f : FunctionType}
    (eq : ∀ t ∈ f.types, related t t) : RelatedFunction related related f f := by
  have list {types : List Ty} (inside : types ⊆ f.types) : Forall₂ related types types :=
    forall₂_same.mpr fun t mem => eq t (inside mem)
  have option {type : Option Ty} (inside : type.toList ⊆ f.types) : Option.Rel related type type := by
    cases type with
    | none => exact .none
    | some t => exact .some (eq t (inside (by simp)))
  constructor
  · exact list fun t mem => mem_types.mpr (.inl mem)
  · exact list fun t mem => mem_types.mpr (.inr (.inl mem))
  · exact option f.rest_subset
  · intro s isReceiver t isReceiver'
    cases isReceiver.symm.trans isReceiver'
    exact eq s (f.receiver_subset (by simpa using isReceiver))
  · exact eq _ f.returnType_mem
  · exact option f.constructs_subset

section Premises

variable {p : Premises} (straight : ∀ t, r.Tame t → p.fits t t)
  (joined : ∀ t, r.Tame t → r.Unchanged t.objects → ∃ joined, p.joins t .undefined joined ∧ p.fits t joined)
include straight joined

lemma TameObject.objectFits (tame : r.TameObject x) : p.ObjectFits r x x := by
  cases tame with
  | @nominal i parts =>
    refine .inr ?_
    simp only [Premises.InstanceFits,upcast,if_true]
    exact forall₂_padArgs (forall₂_same.mpr fun t mem => straight t (parts t mem))
  | @record x distinct parts optional =>
    intro wanted mem
    have found : Field.find? (r.fieldsOf (.record x)).1 wanted.name = some wanted := find?_of_nodup distinct mem
    simp only [Premises.FieldFits,found]
    refine ⟨id,?_⟩
    unfold Premises.Expected
    split
    · rename_i isOptional
      exact joined _ (parts wanted mem) (optional wanted mem isOptional)
    · exact ⟨wanted.type,rfl,straight _ (parts wanted mem)⟩
  | @function f parts =>
    have itself : RelatedFunction (fun s t => s = t ∧ r.Tame s) (fun s t => s = t ∧ r.Tame s)
        f.eraseTypeParams f.eraseTypeParams :=
      relatedFunction_refl fun t mem => ⟨rfl,parts t mem⟩
    exact .inr (itself.fits (fun s t eq => eq.1 ▸ straight s eq.2) fun s t eq => eq.1 ▸ straight s eq.2)
  | namespaceValue => rfl

lemma Tame.typeFits (covered : ∀ a b, r.Fits p.lax a b → p.fits a b) (tame : r.Tame t)
    (wider : r.Wider p.lax t c) : p.TypeFits r t c := by
  cases t with
  | bottom => trivial
  | unknown => cases c <;> trivial
  | top =>
    cases wider
    trivial
  | union u =>
    obtain ⟨w,rfl,widens⟩ : ∃ w, c = .union w ∧ r.Widens p.lax u w := by
      cases wider with
      | refl => exact ⟨u,rfl,.refl u⟩
      | union widens => exact ⟨_,rfl,widens⟩
    cases tame with
    | union parts =>
      refine ⟨widens.primitives,?_,fun id mem => ?_,fun o mem => ?_⟩
      · exact all_eq_true.mpr fun name mem => by simpa using widens.vars mem
      · rcases widens.enums id mem with inW | backs
        · exact .inl (by simpa using inW)
        · exact .inr (covered _ _ backs)
      · exact ⟨o,widens.objects mem,(parts o mem).objectFits straight joined⟩

end Premises

lemma Tame.fits_self (plain : ∀ id, (r.enumBacking id).Plain) (tame : r.Tame t) : r.Fits lax t t := by
  refine fits_of_consistent (fun t c => r.Tame t ∧ r.Wider lax t c) ?_ ⟨tame,.refl t⟩
  rintro t c ⟨tame,wider⟩
  refine tame.typeFits (fun t tame => .inr ⟨tame,.refl t⟩) (fun t tame unchanged => ?_) (fun _ _ => .inl) wider
  obtain ⟨joined,joins,wider⟩ := unchanged.joinsUndefined plain lax
  exact ⟨joined,joins,.inr ⟨tame,wider⟩⟩

end Registry
end GradualJs
