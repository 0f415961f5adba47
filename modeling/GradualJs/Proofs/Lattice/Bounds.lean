import GradualJs.Proofs.Lattice.Normal
import GradualJs.Proofs.Lattice.Recursion

/-! Bounds. Objects of one kind are joined and meet part by part, so whether a join is above and a
meet below its types rests on what is joined and meets inside them, and on objects that are combined
again after that. -/
namespace GradualJs

open List

variable {α β : Type} {left right : List Ty} {Q : Ty → Ty → Prop} {x y o : Obj} {s t : Ty} {pair : Ty × Ty}

def Record.shared (x y : Record) : List (Ty × Ty) :=
  x.fields.filterMap fun f => (Field.find? y.fields f.name).map fun g => (f.type,g.type)

lemma forall₂_of_mapM {list : List α}
    (ended : list.mapM f = some res) : Forall₂ (fun a b => f a = some b) list res := by
  induction list generalizing res with
  | nil =>
    cases ended
    exact .nil
  | cons a rest ih =>
    simp only [mapM_cons,Option.bind_eq_bind,Option.bind_eq_some_iff] at ended
    obtain ⟨b,first,others,later,eq⟩ := ended
    cases eq
    exact .cons first (ih later)

lemma forall₂_members {R : α → β → Prop} {left : List α} {right : List β} (related : Forall₂ R left right) :
    Forall₂ (fun a b => a ∈ left ∧ b ∈ right ∧ R a b) left right := by
  induction related with
  | nil => exact .nil
  | cons first _ ih =>
    refine .cons ⟨by simp,by simp,first⟩ (ih.imp fun _ _ held => ?_)
    exact ⟨mem_cons_of_mem _ held.1,mem_cons_of_mem _ held.2.1,held.2.2⟩

lemma padArgs_nil (left : List Ty) : padArgs left [] = left.map fun a => (a,.unknown) := by
  induction left with
  | nil => rfl
  | cons a as ih => rw [padArgs,ih,map_cons]

lemma padArgs_swap (left right : List Ty) : padArgs right left = (padArgs left right).map Prod.swap := by
  induction left generalizing right with
  | nil => simp [padArgs,padArgs_nil]
  | cons a as ih =>
    cases right with
    | nil => simp [padArgs,padArgs_nil]
    | cons b bs => simp [padArgs,ih]

/-- What is related to the first of two paired arguments is so place by place; a missing
argument is unknown. -/
lemma padArgs_left (related : Forall₂ R (padArgs left right) args)
    (first : ∀ pair arg, R pair arg → Q arg pair.1) (unknown : ∀ arg, Q arg .unknown) :
    ∀ pair ∈ padArgs args left, Q pair.1 pair.2 := by
  fun_induction padArgs left right generalizing args with
  | case1 bs => simp [padArgs_nil,unknown]
  | case2 a as ih | case3 a as b bs ih =>
    cases related with
    | cons held others =>
      rw [padArgs]
      exact forall_mem_cons.mpr ⟨first _ _ held,ih others⟩

lemma padArgs_right (related : Forall₂ R (padArgs left right) args)
    (second : ∀ pair arg, R pair arg → Q arg pair.2) (unknown : ∀ arg, Q arg .unknown) :
    ∀ pair ∈ padArgs args right, Q pair.1 pair.2 := by
  have swapped : Forall₂ (fun pair arg => R pair.swap arg) (padArgs right left) args := by
    rw [padArgs_swap,forall₂_map_left_iff]
    simpa using related
  exact padArgs_left swapped (fun pair arg held => second pair.swap arg held) unknown

lemma find?_forall₂ {R : Field → Field → Prop}
    (related : Forall₂ R fields others) (names : ∀ f h, R f h → h.name = f.name)
    (name : String) : Option.Rel R (Field.find? fields name) (Field.find? others name) := by
  induction related with
  | nil => exact .none
  | @cons f h _ _ first _ ih =>
    have eq := names f h first
    by_cases named : f.name = name
    · simpa [Field.find?,named,eq] using Option.Rel.some first
    · simpa [Field.find?,named,eq] using ih

lemma find?_append (left right : List Field) (name : String) :
    Field.find? (left ++ right) name = (Field.find? left name).or (Field.find? right name) :=
  List.find?_append

lemma mem_shared {x y : Record} {f g : Field} (mem : f ∈ x.fields)
    (found : Field.find? y.fields f.name = some g) : (f.type,g.type) ∈ x.shared y :=
  mem_filterMap.mpr ⟨f,mem,by simp [found]⟩

namespace FunctionType

/-- The parameters that meet when two functions are joined. -/
def meetingParts (f g : FunctionType) : List (Ty × Ty) :=
  f.required.zip g.required ++ f.optional.zip g.optional ++
    (f.rest.toList.zip g.rest.toList ++ f.receiver.toList.zip g.receiver.toList)

def joiningParts (f g : FunctionType) : List (Ty × Ty) :=
  (f.returnType,g.returnType) :: f.constructs.toList.zip g.constructs.toList

end FunctionType

namespace Obj

def parts : Obj → List Ty
  | .nominal i => i.args
  | .record x => x.fields.map (·.type)
  | .function f => f.types
  | .namespaceValue _ => []

lemma sizeOf_part (mem : o ∈ t.objects) (part : s ∈ o.parts) : sizeOf s < sizeOf t := by
  cases t with
  | union u =>
    obtain ⟨primitives,enums,vars,objects⟩ := u
    have inUnion : sizeOf o < sizeOf objects := sizeOf_lt_of_mem mem
    have inObject : sizeOf s < sizeOf o := by
      cases o with
      | nominal i =>
        obtain ⟨id,args⟩ := i
        have := sizeOf_lt_of_mem (show s ∈ args from part)
        simp only [Obj.nominal.sizeOf_spec,Instance.mk.sizeOf_spec]
        omega
      | record x =>
        obtain ⟨fields,exact,loose⟩ := x
        obtain ⟨f,inFields,rfl⟩ := mem_map.mp part
        have := sizeOf_lt_of_mem (show f ∈ fields from inFields)
        have : sizeOf f.type < sizeOf f := by
          cases f
          simp only [Field.mk.sizeOf_spec]
          omega
        simp only [Obj.record.sizeOf_spec,Record.mk.sizeOf_spec]
        omega
      | function f =>
        obtain ⟨required,optional,rest,returnType,recv,constructs,typeParams,loose⟩ := f
        have inOption {type : Option Ty} (eq : type = some s) : sizeOf s < sizeOf type := by
          rw [eq,Option.some.sizeOf_spec]
          omega
        simp only [Obj.function.sizeOf_spec,FunctionType.mk.sizeOf_spec]
        have places := FunctionType.mem_types.mp part
        dsimp only at places
        rcases places with inPlace | inPlace | inPlace | rfl | inPlace | inPlace
        · have := sizeOf_lt_of_mem inPlace
          omega
        · have := sizeOf_lt_of_mem inPlace
          omega
        · have := inOption inPlace
          omega
        · omega
        · have := inOption inPlace
          omega
        · have := inOption inPlace
          omega
      | namespaceValue id => cases part
    simp only [Ty.union.sizeOf_spec,Union.mk.sizeOf_spec]
    omega
  | _ => simp [Ty.objects] at mem

/-- Objects that meet part by part; all others are compared. -/
def kindred : Obj → Obj → Bool
  | .nominal x, .nominal y => x.id = y.id
  | .record _, .record _ => true
  | .function f, .function g => Ty.sameFunction f g
  | .namespaceValue x, .namespaceValue y => x = y
  | _, _ => false

def metParts : Obj → Obj → List (Ty × Ty)
  | .nominal x, .nominal y => padArgs x.args y.args
  | .record x, .record y => x.shared y
  | _, _ => []

/-- What is asked when two objects of one kind are joined. Parameters of functions meet. -/
def joinedParts : Obj → Obj → List Question
  | .nominal x, .nominal y => (padArgs x.args y.args).map fun (a,b) => .join a b
  | .record x, .record y => (x.shared y).map fun (a,b) => .join a b
  | .function f, .function g =>
    if Ty.sameFunction f g || f.loose || g.loose || !MergeRules.sameShape f g then []
    else (f.meetingParts g).map (fun (a,b) => .meet false a b) ++ (f.joiningParts g).map fun (a,b) => .join a b
  | _, _ => []

end Obj

namespace Registry

section Definitions

variable (r : Registry)

def Meets (lax : Bool) (a b t : Ty) : Prop := ∃ depth, Lattice.meet ⟨r,lax,depth⟩ a b = some t

def MeetsObject (lax : Bool) (x y z : Obj) : Prop :=
  ∃ depth, Relations.meetObjects r (.within r depth) lax x y = some (some z)

/-- One object stands for two when they are in a union. -/
def Combines (x y z : Obj) : Prop := ∃ depth, (Relations.mergeRules r (.within r depth)).combine x y = some (some z)

/-- Combined with others, possibly more than once, the first object becomes the second. -/
def Becomes : Obj → Obj → Prop := Relation.ReflTransGen fun w z => ∃ p, r.Combines w p z ∨ r.Combines p w z

/-- The first object was found to fit the second without comparing anything by structure. -/
def FitsPlainly (lax : Bool) (x y : Obj) : Prop := r.Ends lax (.object x) (.object y) [] (true,[])

/-- What two objects of one kind are joined as: instances as instances of a type that both
inherit, all others as they are. -/
inductive Aligned : Obj → Obj → Obj → Obj → Prop
  | nominal {x y left right : Instance} {id : NominalId} : r.upcast x id = some left →
      r.upcast y id = some right → r.NormalObject (.nominal left) → r.NormalObject (.nominal right) →
      Aligned (.nominal x) (.nominal y) (.nominal left) (.nominal right)
  | record {x y : Record} : Aligned (.record x) (.record y) (.record x) (.record y)
  | function {f g : FunctionType} : Aligned (.function f) (.function g) (.function f) (.function g)

/-- The third object comes from the other two in one step: they meet part by part, or one of
them plainly fits the other. -/
def MeetsAtOnce (lax : Bool) (x y z : Obj) : Prop :=
  (x.kindred y ∧ r.MeetsObject lax x y z) ∨ (z = x ∧ r.FitsPlainly lax x y) ∨ (z = y ∧ r.FitsPlainly lax y x)

def JoinsAtOnce (x y z : Obj) : Prop :=
  (∃ left right, r.Aligned x y left right ∧ r.Combines left right z ∧ r.NormalObject z) ∨
    (z = y ∧ r.FitsPlainly false x y) ∨ (z = x ∧ r.FitsPlainly false y x)

/-- The second question is about parts of objects that the first has made into an object of its
answer. -/
inductive Part : Question → Question → Prop
  | meet {lax : Bool} {a b t : Ty} {x y z : Obj} {pair : Ty × Ty} :
      r.Meets lax a b t → x ∈ a.objects → y ∈ b.objects → z ∈ t.objects → x.kindred y →
      r.MeetsObject lax x y z → pair ∈ x.metParts y →
      Part (.meet lax a b) (.meet lax pair.1 pair.2)
  | join {a b t : Ty} {x y left right z : Obj} {q : Question} :
      r.Joins a b t → x ∈ a.objects → y ∈ b.objects → z ∈ t.objects → r.Aligned x y left right →
      r.Combines left right z → r.NormalObject z → q ∈ left.joinedParts right → Part (.join a b) q

def Leads : Question → Question → Prop := Relation.ReflTransGen r.Part

/-- As the answer to a question, the type is a bound: a meet is below the types that meet, and
a join is above the types that are joined. -/
def BoundedBy : Question → Ty → Prop
  | .meet lax a b, t => r.Meets lax a b t → r.Fits lax t a ∧ r.Fits lax t b
  | .join a b, t => r.Joins a b t → r.Fits false a t ∧ r.Fits false b t
  | .subtype .., _ => True

def Bounded (q : Question) : Prop := ∀ t, r.BoundedBy q t

/-- No object is combined again in a way that does harm. In a meet, every object that was
combined from others that met fits on both sides. In a join, every object that was combined
more than once fits the result. -/
def Apart : Question → Prop
  | .meet lax a b => ∀ t, r.Meets lax a b t → ∀ z ∈ t.objects,
      ∀ x ∈ a.objects, ∀ y ∈ b.objects, ∀ m, r.MeetsObject lax x y m → r.Becomes m z →
      (¬∃ x ∈ a.objects, ∃ y ∈ b.objects, r.MeetsAtOnce lax x y z) →
      r.Fits lax (.object z) a ∧ r.Fits lax (.object z) b
  | .join a b => ∀ t, r.Joins a b t → ∀ z ∈ t.objects, (∀ x ∈ a.objects, r.Becomes x z → x ∉ t.objects →
        (¬∃ y ∈ b.objects, ∃ z ∈ t.objects, r.JoinsAtOnce x y z) → r.Fits false (.object x) t) ∧
      ∀ y ∈ b.objects, r.Becomes y z → y ∉ t.objects →
        (¬∃ x ∈ a.objects, ∃ z ∈ t.objects, r.JoinsAtOnce x y z) → r.Fits false (.object y) t
  | .subtype .. => True

end Definitions

variable {r : Registry}

lemma FitsPlainly.fits (plainly : r.FitsPlainly lax x y) : r.FitsObject lax x y := fits_object.mp (fits_of_ends plainly)

lemma FitsObject.fits (fits : r.FitsObject lax x z) (mem : z ∈ t.objects) : r.Fits lax (.object x) t := by
  cases t with
  | union v => exact fits_of_object mem fits
  | _ => simp [Ty.objects] at mem

lemma Normal.objects (normal : r.Normal t) : ∀ o ∈ t.objects, r.NormalObject o := by
  cases normal with
  | union _ _ parts => exact parts
  | _ => simp [Ty.objects]

lemma objects_ofUnion (w : Union) : (Ty.ofUnion w).objects = w.objects := by
  unfold Ty.ofUnion
  split
  · rename_i empty
    simp_all [Union.isEmpty,Ty.objects]
  · rfl

/-- A record fits one of normal types that asks of its properties what they have. -/
lemma fits_of_fields (kinded : r.Kinded) {x z : Record} (normal : r.NormalObject (.record z))
    (held : ∀ h ∈ z.fields, match Field.find? x.fields h.name with
      | some f => (f.optional → h.optional) ∧ r.Fits lax f.type h.type
      | none => h.optional ∨ x.loose) : r.FitsObject lax (.record x) (.record z) := by
  cases normal with
  | record _ parts =>
  intro h mem
  have held := held h mem
  cases found : Field.find? x.fields h.name with
  | none =>
    rw [found] at held
    simpa only [Premises.FieldFits,fieldsOf,found] using held.imp_right .inl
  | some f =>
    rw [found] at held
    simp only [Premises.FieldFits,fieldsOf,found]
    refine ⟨held.1,?_⟩
    unfold Premises.Expected
    split
    · obtain ⟨joined,joins,wider⟩ := (parts h mem).unchanged.joinsUndefined kinded.enumBacking lax
      exact ⟨joined,joins,held.2.wider wider⟩
    · exact ⟨h.type,rfl,held.2⟩

lemma becomes_normalized
    (ended : normalizeObjects (Relations.mergeRules r (.within r depth)).combine objects = some res) :
    Carries (fun w z => ∃ p, r.Combines w p z ∨ r.Combines p w z) objects res := by
  have stepwise : Stepwise (Relations.mergeRules r (.within r depth)).combine (fun _ _ => True)
      fun w z => ∃ p, r.Combines w p z ∨ r.Combines p w z :=
    ⟨fun {w p z} _ combined => ⟨⟨p,.inl ⟨depth,combined⟩⟩,⟨w,.inr ⟨depth,combined⟩⟩⟩,
      fun _ _ _ _ => trivial,fun _ _ _ _ => trivial⟩
  exact normalizeObjects_carries stepwise (pairwise_of_forall fun _ _ => trivial) ended

lemma NormalObject.metParts (normalX : r.NormalObject x) (normalY : r.NormalObject y)
    (mem : pair ∈ x.metParts y) : r.Normal pair.1 ∧ r.Normal pair.2 := by
  cases normalX with
  | nominal argsX =>
    cases normalY with
    | nominal argsY =>
      obtain ⟨first,second⟩ := padArgs_mem mem
      refine ⟨?_,?_⟩
      · rcases first with unknown | own
        · exact unknown ▸ .unknown
        · exact argsX _ own
      · rcases second with unknown | own
        · exact unknown ▸ .unknown
        · exact argsY _ own
    | record _ _ | function _ _ | namespaceValue => cases mem
  | record _ fieldsX =>
    cases normalY with
    | record _ fieldsY =>
      obtain ⟨f,inX,both⟩ := mem_filterMap.mp mem
      obtain ⟨g,found,rfl⟩ := Option.map_eq_some_iff.mp both
      exact ⟨fieldsX f inX,fieldsY g (Field.find?_mem found)⟩
    | nominal _ | function _ _ | namespaceValue => cases mem
  | function _ _ | namespaceValue => cases normalY <;> cases mem

lemma Fits.member (fits : r.Fits lax s t) (mem : o ∈ s.objects) : r.Fits lax (.object o) t := by
  cases s with
  | union u =>
    cases t with
    | bottom => exact (fits_iff.mp fits).elim
    | top | unknown => simp
    | union v =>
      obtain ⟨p,inV,below⟩ := (fits_union.mp fits).objects o mem
      exact fits_of_object inV below
  | _ => simp [Ty.objects] at mem

lemma Bounded.apart (bounded : r.Bounded q) : r.Apart q := by
  cases q with
  | subtype lax a b assumed => trivial
  | meet lax a b =>
    intro t meets z mem x _ y _ m _ _ _
    obtain ⟨left,right⟩ := bounded t meets
    exact ⟨left.member mem,right.member mem⟩
  | join a b =>
    intro t joins z _
    obtain ⟨left,right⟩ := bounded t joins
    exact ⟨fun x mem _ _ _ => left.member mem,fun y mem _ _ _ => right.member mem⟩

def Regular (r : Registry) : Question → Prop
  | .meet _ a b | .join a b => r.Normal a ∧ r.Normal b
  | .subtype .. => True

lemma Aligned.normal {left right : Obj} (aligned : r.Aligned x y left right)
    (normalX : r.NormalObject x) (normalY : r.NormalObject y) :
    r.NormalObject left ∧ r.NormalObject right := by
  cases aligned with
  | nominal _ _ normalLeft normalRight => exact ⟨normalLeft,normalRight⟩
  | record | function => exact ⟨normalX,normalY⟩

lemma mem_meetingParts {f g : FunctionType} (mem : pair ∈ f.meetingParts g) : pair.1 ∈ f.types ∧ pair.2 ∈ g.types := by
  simp only [FunctionType.meetingParts,mem_append] at mem
  simp only [FunctionType.mem_types]
  rcases mem with (required | optional) | rest | recv
  · obtain ⟨inF,inG⟩ := of_mem_zip required
    exact ⟨.inl inF,.inl inG⟩
  · obtain ⟨inF,inG⟩ := of_mem_zip optional
    exact ⟨.inr (.inl inF),.inr (.inl inG)⟩
  · obtain ⟨inF,inG⟩ := of_mem_zip rest
    simp_all
  · obtain ⟨inF,inG⟩ := of_mem_zip recv
    simp_all

lemma mem_joiningParts {f g : FunctionType} (mem : pair ∈ f.joiningParts g) : pair.1 ∈ f.types ∧ pair.2 ∈ g.types := by
  rcases mem_cons.mp mem with rfl | constructs
  · exact ⟨f.returnType_mem,g.returnType_mem⟩
  · obtain ⟨inF,inG⟩ := of_mem_zip constructs
    exact ⟨f.constructs_subset inF,g.constructs_subset inG⟩

lemma NormalObject.joinedParts (normalX : r.NormalObject x) (normalY : r.NormalObject y)
    (mem : q ∈ x.joinedParts y) : r.Regular q := by
  have inside (pair : Ty × Ty) (inPairs : pair ∈ x.metParts y) : r.Normal pair.1 ∧ r.Normal pair.2 :=
    normalX.metParts normalY inPairs
  cases normalX with
  | nominal _ =>
    cases normalY with
    | nominal _ =>
      obtain ⟨pair,inPairs,rfl⟩ := mem_map.mp mem
      exact inside pair inPairs
    | _ => cases mem
  | record _ _ =>
    cases normalY with
    | record _ _ =>
      obtain ⟨pair,inPairs,rfl⟩ := mem_map.mp mem
      exact inside pair inPairs
    | _ => cases mem
  | function partsF _ =>
    cases normalY with
    | function partsG _ =>
      simp only [Obj.joinedParts] at mem
      split at mem
      · cases mem
      · rcases mem_append.mp mem with meeting | joining
        · obtain ⟨pair,inPairs,rfl⟩ := mem_map.mp meeting
          obtain ⟨inF,inG⟩ := mem_meetingParts inPairs
          exact ⟨partsF _ inF,partsG _ inG⟩
        · obtain ⟨pair,inPairs,rfl⟩ := mem_map.mp joining
          obtain ⟨inF,inG⟩ := mem_joiningParts inPairs
          exact ⟨partsF _ inF,partsG _ inG⟩
    | _ => cases mem
  | namespaceValue => cases normalY <;> cases mem

lemma Part.regular (part : r.Part q further) (regular : r.Regular q) : r.Regular further := by
  cases part with
  | meet _ inA inB _ _ _ inParts =>
    exact (regular.1.objects _ inA).metParts (regular.2.objects _ inB) inParts
  | join _ inA inB _ aligned _ _ inParts =>
    obtain ⟨normalLeft,normalRight⟩ := aligned.normal (regular.1.objects _ inA) (regular.2.objects _ inB)
    exact normalLeft.joinedParts normalRight inParts

lemma Leads.regular (leads : r.Leads q further) (regular : r.Regular q) : r.Regular further := by
  induction leads with
  | refl => exact regular
  | tail _ part ih => exact part.regular ih

end Registry
end GradualJs
