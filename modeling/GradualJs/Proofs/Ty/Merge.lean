import GradualJs.Proofs.Lifting
import GradualJs.Proofs.Ty.Weight
import GradualJs.Ty.Merge

/-! Joins stay within limits. Whatever the rules do with instances of different types, a
join is put together from joins and meets of parts, so it weighs no more than the heavier
of the two types. -/
namespace GradualJs

open List MergeRules FunctionType Weights

variable {α I : Type} {t a b : Ty} {u : Union} {f g : FunctionType} {left : List Ty} {y : Record} {objects : List Obj}

def Lifting.Keeps {I : Type} {m : Type → Type} [Monad m] (L : Lifting I m) (P : Ty → Prop)
    (operation : I → Ty → Ty → m Ty) : Prop :=
  ∀ a b, P a → P b → L.Holds P fun i => operation i a b

/-- Several weights at once, each with a bound. -/
structure Limits (ι : Type) where
  weights : ι → Weights
  bound : ι → Nat

namespace Limits

variable {ι : Type} (l : Limits ι) (cost : ι → Nat)

/-- The type stays within the bounds when `cost` has already been spent around it. -/
def Light (t : Ty) : Prop := ∀ k, cost k + (l.weights k).weigh t ≤ l.bound k
def LightObject (o : Obj) : Prop := ∀ k, cost k + (l.weights k).weighObject o ≤ l.bound k
def Affords : Prop := ∀ k, cost k ≤ l.bound k
def inUnion : ι → Nat := fun k => cost k + (l.weights k).union
def inInstance (id : NominalId) : ι → Nat := fun k => cost k + (l.weights k).nominal id
def inRecord : ι → Nat := fun k => cost k + (l.weights k).record
def inFunction : ι → Nat := fun k => cost k + (l.weights k).function

variable {l cost}

lemma Light.affords (light : l.Light cost t) : l.Affords cost := fun k => Nat.le_trans (Nat.le_add_right _ _) (light k)

@[simp] lemma light_bottom : l.Light cost .bottom ↔ l.Affords cost := by
  simp [Light,Affords,weigh]

@[simp] lemma light_top : l.Light cost .top ↔ l.Affords cost := by
  simp [Light,Affords,weigh]

@[simp] lemma light_unknown : l.Light cost .unknown ↔ l.Affords cost := by
  simp [Light,Affords,weigh]

/-- What every weight says of every part, the parts say for every weight. -/
lemma affords_and_forall {list : List α} {light : ι → α → Prop} :
    (∀ k, cost k ≤ l.bound k ∧ ∀ a ∈ list, light k a) ↔ l.Affords cost ∧ ∀ a ∈ list, ∀ k, light k a := by
  constructor
  · intro held
    exact ⟨fun k => (held k).1,fun a mem k => (held k).2 a mem⟩
  · rintro ⟨affords,parts⟩ k
    exact ⟨affords k,fun a mem => parts a mem k⟩

lemma light_union : l.Light cost (.union u) ↔ l.Affords cost ∧ ∀ o ∈ u.objects, l.LightObject (l.inUnion cost) o := by
  have each (k : ι) := add_le_iff (cost k) (l.bound k) fun _ => (l.weights k).weigh_union_le (u := u)
  simp only [Light,each,← Nat.add_assoc]
  exact affords_and_forall

lemma lightObject_nominal {i : Instance} : l.LightObject cost (.nominal i) ↔
    l.Affords (l.inInstance cost i.id) ∧ ∀ a ∈ i.args, l.Light (l.inInstance cost i.id) a := by
  have heavy (k : ι) (bound : Nat) : (l.weights k).weighList i.args ≤ bound ↔
      ∀ a ∈ i.args, (l.weights k).weigh a ≤ bound := (l.weights k).weighList_le
  have each (k : ι) := add_le_iff (cost k + (l.weights k).nominal i.id) (l.bound k) (heavy k)
  cases i
  simp only [LightObject,weighObject,weighInstance,← Nat.add_assoc,each]
  exact affords_and_forall

lemma lightObject_record {r : Record} : l.LightObject cost (.record r) ↔
    l.Affords cost ∧ ∀ f ∈ r.fields, l.Light (l.inRecord cost) f.type := by
  have each (k : ι) := add_le_iff (cost k) (l.bound k) fun _ => (l.weights k).weighRecord_le (r := r)
  simp only [LightObject,weighObject,each,← Nat.add_assoc]
  exact affords_and_forall

lemma lightObject_function : l.LightObject cost (.function f) ↔ ∀ t ∈ f.types, l.Light (l.inFunction cost) t := by
  have each (k : ι) := add_le_iff (cost k) (l.bound k) fun _ => (l.weights k).weighFunction_le (f := f)
  simp only [LightObject,weighObject,each,← Nat.add_assoc]
  refine affords_and_forall.trans ⟨And.right,fun light => ⟨fun k => ?_,light⟩⟩
  exact Nat.le_trans (Nat.le_add_right _ _) ((light f.returnType f.returnType_mem).affords k)

lemma light_ofUnion (affords : l.Affords cost)
    (objects : ∀ o ∈ u.objects, l.LightObject (l.inUnion cost) o) : l.Light cost (.ofUnion u) := by
  unfold Ty.ofUnion
  split
  · exact light_bottom.mpr affords
  · exact light_union.mpr ⟨affords,objects⟩

end Limits

namespace Limits

variable {ι I : Type} {m : Type → Type} [Monad m] (l : Limits ι) (L : Lifting I m)

abbrev Keeps (cost : ι → Nat) (operation : I → Ty → Ty → m Ty) : Prop := L.Keeps (l.Light cost) operation

/-- The cost of a place somewhere inside a union. -/
def Inside (cost further : ι → Nat) : Prop := ∀ k, l.inUnion cost k ≤ further k

structure RulesKeep (cost : ι → Nat) (rules : I → MergeRules m) : Prop where
  join : ∀ further, l.Inside cost further → l.Keeps L further fun i => (rules i).join
  meet : ∀ further, l.Inside cost further → l.Keeps L further fun i => (rules i).meet
  distinct : ∀ x y, l.LightObject (l.inUnion cost) (.nominal x) → l.LightObject (l.inUnion cost) (.nominal y) →
    L.Holds (fun found => ∀ o ∈ found, l.LightObject (l.inUnion cost) o) fun i => (rules i).distinct x y
  settle : ∀ u, (∀ o ∈ u.objects, l.LightObject (l.inUnion cost) o) →
    L.Holds (fun settled => settled.objects ⊆ u.objects) fun i => (rules i).settle u

end Limits

lemma padArgs_mem (mem : pair ∈ padArgs left right) :
    (pair.1 = .unknown ∨ pair.1 ∈ left) ∧ (pair.2 = .unknown ∨ pair.2 ∈ right) := by
  fun_induction padArgs left right with
  | case1 bs =>
    obtain ⟨b,inRight,rfl⟩ := mem_map.mp mem
    simp [inRight]
  | case2 a as ih =>
    rcases mem_cons.mp mem with rfl | later
    · simp
    · obtain ⟨first,second⟩ := ih later
      exact ⟨first.imp_right (mem_cons_of_mem _),second⟩
  | case3 a as b bs ih =>
    rcases mem_cons.mp mem with rfl | later
    · simp
    · obtain ⟨first,second⟩ := ih later
      exact ⟨first.imp_right (mem_cons_of_mem _),second.imp_right (mem_cons_of_mem _)⟩

lemma padArgs_forall {P : Ty → Prop} (unknown : P .unknown) (lefts : ∀ t ∈ left, P t) (rights : ∀ t ∈ right, P t) :
    ∀ pair ∈ padArgs left right, P pair.1 ∧ P pair.2 := by
  intro pair mem
  obtain ⟨first,second⟩ := padArgs_mem mem
  constructor
  · rcases first with missing | inLeft
    · exact missing ▸ unknown
    · exact lefts _ inLeft
  · rcases second with missing | inRight
    · exact missing ▸ unknown
    · exact rights _ inRight

lemma FunctionType.types_any (mem : t ∈ any.types) : t = .unknown := by
  simpa [any,mem_types,eq_comm] using mem

lemma Field.find?_mem {name : String} (found : Field.find? fields name = some field) : field ∈ fields :=
  mem_of_find?_eq_some found

lemma Field.mem_put {f : Field} (mem : f ∈ Field.put field fields) : f = field ∨ f ∈ fields := by
  induction fields with
  | nil => exact .inl (mem_singleton.mp mem)
  | cons other rest ih =>
    simp only [Field.put] at mem
    split at mem
    · rcases mem_cons.mp mem with eq | inRest
      · exact .inl eq
      · exact .inr (mem_cons_of_mem _ inRest)
    · rcases mem_cons.mp mem with eq | later
      · exact .inr (eq ▸ mem_cons_self)
      · exact (ih later).imp_right (mem_cons_of_mem _)

namespace MergeRules

variable {I : Type} {m : Type → Type} [Monad m] {L : Lifting I m} {rules : I → MergeRules m}

lemma holds_joinField {f : Field} (keeps : L.Keeps P fun i => (rules i).join)
    (goodF : P f.type) (goodY : ∀ g ∈ y.fields, P g.type) :
    L.Holds (fun joined => P joined.type) fun i => (rules i).joinField y f := by
  unfold joinField
  cases found : Field.find? y.fields f.name with
  | none =>
    refine L.value ?_
    split <;> exact goodF
  | some g =>
    refine L.sequence (keeps f.type g.type goodF (goodY g (Field.find?_mem found))) ?_
    exact fun type good => L.value good

/-- A join takes one of two types as it is, unless both are unions. -/
lemma holds_joinStep (goodA : P a) (goodB : P b)
    (unions : ∀ u v, a = .union u → b = .union v → L.Holds P fun i => (rules i).joinUnions u v) :
    L.Holds P fun i => (rules i).joinStep a b := by
  cases a with
  | bottom => exact L.value goodB
  | top => cases b <;> exact L.value goodA
  | unknown =>
    cases b with
    | top => exact L.value goodB
    | bottom | unknown | union => exact L.value goodA
  | union u =>
    cases b with
    | bottom => exact L.value goodA
    | top | unknown => exact L.value goodB
    | union v => exact unions u v rfl rfl

variable [LawfulMonad m]

/-- Joining instances keeps what holds of their arguments and of the unknown type, which
stands for a missing one. -/
lemma holds_joinInstances {join : I → Ty → Ty → m Ty} {x y : Instance} (keeps : L.Keeps P join)
    (pairs : ∀ pair ∈ padArgs x.args y.args, P pair.1 ∧ P pair.2) :
    L.Holds (fun joined => joined.id = x.id ∧ ∀ a ∈ joined.args, P a) fun i => joinInstances (join i) x y := by
  refine L.sequence (p := fun args => ∀ a ∈ args, P a) (L.mapM fun pair mem => ?_) fun args good => ?_
  · obtain ⟨first,second⟩ := pairs pair mem
    exact keeps pair.1 pair.2 first second
  · exact L.value ⟨rfl,good⟩

lemma holds_joinRecords {x : Record} (keeps : L.Keeps P fun i => (rules i).join)
    (fieldsX : ∀ f ∈ x.fields, P f.type) (fieldsY : ∀ g ∈ y.fields, P g.type) :
    L.Holds (fun joined => ∀ f ∈ joined.fields, P f.type) fun i => (rules i).joinRecords x y := by
  refine L.sequence (p := fun left => ∀ f ∈ left, P f.type)
    (L.mapM fun f mem => holds_joinField keeps (fieldsX f mem) fieldsY) fun left good => ?_
  refine L.value fun f mem => ?_
  rcases mem_append.mp mem with inLeft | inRight
  · exact good f inLeft
  · obtain ⟨g,inY,rfl⟩ := mem_map.mp inRight
    have := fieldsY g (mem_filter.mp inY).1
    split <;> exact this

lemma holds_bothOr {combine : I → Ty → Ty → m Ty} {a b : Option Ty} (keeps : L.Keeps P combine)
    (goodA : ∀ t ∈ a, P t) (goodB : ∀ t ∈ b, P t) :
    L.Holds (fun both => ∀ t ∈ both, P t) fun i => bothOr (combine i) a b := by
  cases a with
  | none => exact L.value (by simp)
  | some s =>
    cases b with
    | none => exact L.value (by simp)
    | some t => exact L.map (keeps s t (goodA s rfl) (goodB t rfl)) (by simp)

lemma holds_zip {combine : I → Ty → Ty → m Ty} (keeps : L.Keeps P combine)
    (lefts : ∀ t ∈ left, P t) (rights : ∀ t ∈ right, P t) : L.Holds (fun types => ∀ t ∈ types, P t)
      fun i => (left.zip right).mapM fun pair => combine i pair.1 pair.2 := by
  refine L.mapM fun pair mem => ?_
  obtain ⟨inLeft,inRight⟩ := of_mem_zip (a := pair.1) (b := pair.2) mem
  exact keeps pair.1 pair.2 (lefts _ inLeft) (rights _ inRight)

/-- Only functions that bind no variables are joined part by part. -/
lemma holds_joinFunctions (joins : L.Keeps P fun i => (rules i).join)
    (meets : L.Keeps P fun i => (rules i).meet) (typesF : f.typeParams = [] → ∀ t ∈ f.types, P t)
    (typesG : g.typeParams = [] → ∀ t ∈ g.types, P t) : L.Holds (fun joined => joined = f ∨ joined = .any ∨
      f.typeParams = [] ∧ joined.typeParams = [] ∧ ∀ t ∈ joined.types, P t)
      fun i => (rules i).joinFunctions f g := by
  unfold joinFunctions
  by_cases eq : Ty.sameFunction f g
  · simp only [eq,if_true]
    exact L.value (.inl rfl)
  simp only [eq]
  by_cases apart : f.loose || g.loose || !sameShape f g
  · simp only [apart,if_true]
    exact L.value (.inr (.inl rfl))
  simp only [apart]
  have plain : f.typeParams = [] ∧ g.typeParams = [] := by
    simp only [sameShape] at apart
    simp_all
  replace typesF := typesF plain.1
  replace typesG := typesG plain.2
  refine L.sequence (holds_zip meets (fun t mem => typesF t ?_) fun t mem => typesG t ?_)
    fun required goodRequired => ?_
  · exact mem_types.mpr (.inl mem)
  · exact mem_types.mpr (.inl mem)
  refine L.sequence (holds_zip meets (fun t mem => typesF t ?_) fun t mem => typesG t ?_)
    fun optional goodOptional => ?_
  · exact mem_types.mpr (.inr (.inl mem))
  · exact mem_types.mpr (.inr (.inl mem))
  refine L.sequence (holds_bothOr meets (fun t mem => typesF t (f.rest_subset (by simpa using mem)))
    fun t mem => typesG t (g.rest_subset (by simpa using mem))) fun rest goodRest => ?_
  refine L.sequence (joins f.returnType g.returnType (typesF _ f.returnType_mem)
    (typesG _ g.returnType_mem)) fun returnType goodReturn => ?_
  refine L.sequence (holds_bothOr meets (fun t mem => typesF t (f.receiver_subset (by simpa using mem)))
    fun t mem => typesG t (g.receiver_subset (by simpa using mem))) fun recv goodReceiver => ?_
  refine L.sequence (holds_bothOr joins (fun t mem => typesF t (f.constructs_subset (by simpa using mem)))
    fun t mem => typesG t (g.constructs_subset (by simpa using mem))) fun constructs goodConstructs => ?_
  refine L.value (.inr (.inr ⟨plain.1,rfl,fun t mem => ?_⟩))
  rcases mem_types.mp mem with h | h | h | h | h | h
  · exact goodRequired t h
  · exact goodOptional t h
  · exact goodRest t h
  · exact h ▸ goodReturn
  · exact goodReceiver t h
  · exact goodConstructs t h

/-- What joining keeps for each kind of object, combining keeps for all. Objects that are the same
thing always combine. -/
lemma holds_combine {Q : Obj → Prop} {a b : Obj} (goodA : Q a) (goodB : Q b)
    (instances : ∀ x y, x.id = y.id → Q (.nominal x) → Q (.nominal y) →
      L.Holds (fun joined => Q (.nominal joined)) fun i => joinInstances (rules i).join x y)
    (distinct : ∀ x y, Q (.nominal x) → Q (.nominal y) →
      L.Holds (fun found => ∀ o ∈ found, Q o) fun i => (rules i).distinct x y)
    (records : ∀ x y, Q (.record x) → Q (.record y) →
      L.Holds (fun joined => Q (.record joined)) fun i => (rules i).joinRecords x y)
    (functions : ∀ f g, Q (.function f) → Q (.function g) →
      L.Holds (fun joined => Q (.function joined)) fun i => (rules i).joinFunctions f g) :
    L.Holds (fun combined => (∀ o ∈ combined, Q o) ∧ (combined = none → a.identity ≠ b.identity))
      fun i => (rules i).combine a b := by
  have nothing (differ : a.identity ≠ b.identity) : L.Holds (fun combined : Option Obj => (∀ o ∈ combined, Q o) ∧
        (combined = none → a.identity ≠ b.identity)) fun _ => pure none :=
    L.value ⟨by simp,fun _ => differ⟩
  cases a with
  | nominal x =>
    cases b with
    | nominal y =>
      simp only [combine]
      by_cases eq : x.id = y.id
      · simp only [eq,if_true]
        exact L.map (instances x y eq goodA goodB) (by simp)
      · simp only [eq,if_false]
        refine L.mono (distinct x y goodA goodB) fun _ good => ⟨good,fun _ => ?_⟩
        simpa [Obj.identity] using eq
    | record _ | function _ | namespaceValue _ => exact nothing (by simp [Obj.identity])
  | record x =>
    cases b with
    | record y => exact L.map (records x y goodA goodB) (by simp)
    | nominal _ | function _ | namespaceValue _ => exact nothing (by simp [Obj.identity])
  | function f =>
    cases b with
    | function g => exact L.map (functions f g goodA goodB) (by simp)
    | nominal _ | record _ | namespaceValue _ => exact nothing (by simp [Obj.identity])
  | namespaceValue x =>
    cases b with
    | namespaceValue y =>
      by_cases eq : x = y
      · simp only [combine,eq,if_true]
        exact L.value ⟨by simpa [eq] using goodA,by simp⟩
      · simp only [combine,eq,if_false]
        exact nothing (by simpa [Obj.identity] using eq)
    | nominal _ | record _ | function _ => exact nothing (by simp [Obj.identity])

end MergeRules

namespace Limits

variable {ι I : Type} {m : Type → Type} [Monad m] {l : Limits ι} {L : Lifting I m} {rules : I → MergeRules m}

lemma light_padArgs {x y : Instance} (eq : x.id = y.id)
    (lightX : l.LightObject cost (.nominal x)) (lightY : l.LightObject cost (.nominal y)) :
    ∀ pair ∈ padArgs x.args y.args,
      l.Light (l.inInstance cost x.id) pair.1 ∧ l.Light (l.inInstance cost x.id) pair.2 := by
  obtain ⟨affords,argsX⟩ := lightObject_nominal.mp lightX
  obtain ⟨-,argsY⟩ := lightObject_nominal.mp lightY
  rw [← eq] at argsY
  exact padArgs_forall (light_unknown.mpr affords) argsX argsY

section Lawful

variable [LawfulMonad m]

lemma holds_joinInstances {join : I → Ty → Ty → m Ty} {x y : Instance}
    (keeps : l.Keeps L (l.inInstance cost x.id) join) (eq : x.id = y.id)
    (lightX : l.LightObject cost (.nominal x)) (lightY : l.LightObject cost (.nominal y)) :
    L.Holds (fun joined => l.LightObject cost (.nominal joined)) fun i => joinInstances (join i) x y := by
  obtain ⟨affords,-⟩ := lightObject_nominal.mp lightX
  refine L.mono (MergeRules.holds_joinInstances keeps (light_padArgs eq lightX lightY)) ?_
  rintro joined ⟨ids,light⟩
  rw [← ids] at affords light
  exact lightObject_nominal.mpr ⟨affords,light⟩

lemma holds_joinRecords (keeps : l.Keeps L (l.inRecord cost) fun i => (rules i).join)
    (lightX : l.LightObject cost (.record x)) (lightY : l.LightObject cost (.record y)) :
    L.Holds (fun joined => l.LightObject cost (.record joined)) fun i => (rules i).joinRecords x y := by
  obtain ⟨affords,fieldsX⟩ := lightObject_record.mp lightX
  obtain ⟨-,fieldsY⟩ := lightObject_record.mp lightY
  refine L.mono (MergeRules.holds_joinRecords keeps fieldsX fieldsY) fun joined light => ?_
  exact lightObject_record.mpr ⟨affords,light⟩

lemma light_any (affords : l.Affords (l.inFunction cost)) : l.LightObject cost (.function .any) := by
  refine lightObject_function.mpr fun t mem => ?_
  rw [types_any mem]
  exact light_unknown.mpr affords

lemma holds_joinFunctions (joins : l.Keeps L (l.inFunction cost) fun i => (rules i).join)
    (meets : l.Keeps L (l.inFunction cost) fun i => (rules i).meet)
    (lightF : l.LightObject cost (.function f)) (lightG : l.LightObject cost (.function g)) :
    L.Holds (fun joined => l.LightObject cost (.function joined)) fun i => (rules i).joinFunctions f g := by
  have typesF := lightObject_function.mp lightF
  have typesG := lightObject_function.mp lightG
  refine L.mono (MergeRules.holds_joinFunctions joins meets (fun _ => typesF) fun _ => typesG) ?_
  rintro joined (rfl | rfl | ⟨-,-,light⟩)
  · exact lightF
  · exact light_any (typesF f.returnType f.returnType_mem).affords
  · exact lightObject_function.mpr light

lemma holds_combine {a b : Obj} (keep : l.RulesKeep L cost rules)
    (lightA : l.LightObject (l.inUnion cost) a) (lightB : l.LightObject (l.inUnion cost) b) :
    L.Holds (fun combined => ∀ o ∈ combined, l.LightObject (l.inUnion cost) o) fun i => (rules i).combine a b := by
  refine L.mono (MergeRules.holds_combine lightA lightB ?_ keep.distinct ?_ ?_) fun _ held => held.1
  · intro x y
    exact holds_joinInstances (keep.join _ fun k => Nat.le_add_right _ _)
  · intro x y
    exact holds_joinRecords (keep.join _ fun k => Nat.le_add_right _ _)
  · intro f g
    exact holds_joinFunctions (keep.join _ fun k => Nat.le_add_right _ _) (keep.meet _ fun k => Nat.le_add_right _ _)

end Lawful

section Normalizing

variable {P : Obj → Prop} {R : Obj → Obj → Prop} {combine : I → Obj → Obj → m (Option Obj)}

section Apart

variable (combines : ∀ a b, P a → P b → L.Holds
  (fun combined => (∀ o ∈ combined, P o) ∧ (combined = none → R a b)) fun i => combine i a b)
include combines

lemma holds_takeCombined (goodPending : P pending) (good : ∀ o ∈ objects, P o) :
    L.Holds (fun taken => (∀ pair ∈ taken, P pair.2 ∧ pair.1.Sublist objects ∧
        pair.1.length < objects.length) ∧ (taken = none → ∀ o ∈ objects, R o pending))
      fun i => takeCombined (combine i) pending objects := by
  induction objects with
  | nil => exact L.value (by simp)
  | cons o rest ih =>
    simp only [takeCombined]
    refine L.sequence (combines o pending (good o (by simp)) goodPending) fun combined ⟨light,apart⟩ => ?_
    cases combined with
    | some whole =>
      refine L.value ⟨?_,nofun⟩
      rintro pair ⟨⟩
      exact ⟨light whole rfl,sublist_cons_self o rest,by simp⟩
    | none =>
      refine L.sequence (ih fun p mem => good p (by simp [mem])) fun taken ⟨found,alone⟩ => ?_
      cases taken with
      | none => exact L.value ⟨nofun,fun _ => forall_mem_cons.mpr ⟨apart rfl,alone rfl⟩⟩
      | some pair =>
        obtain ⟨others,whole⟩ := pair
        obtain ⟨lightWhole,sublist,shorter⟩ := found _ rfl
        refine L.value ⟨?_,nofun⟩
        rintro pair ⟨⟩
        exact ⟨lightWhole,sublist.cons_cons o,by simpa using shorter⟩

/-- After as many rounds as there are objects, the one that is added combines with none of them. -/
lemma holds_absorb {done : List Obj} (enough : done.length ≤ rounds) (goodPending : P pending) (good : ∀ o ∈ done, P o)
    (apart : done.Pairwise R) : L.Holds (fun objects => (∀ o ∈ objects, P o) ∧ objects.Pairwise R)
      fun i => absorb (combine i) rounds done pending := by
  have added {done : List Obj} {pending : Obj} (goodPending : P pending) (good : ∀ o ∈ done, P o)
      (apart : done.Pairwise R) (alone : ∀ o ∈ done, R o pending) :
      (∀ o ∈ done ++ [pending], P o) ∧ (done ++ [pending]).Pairwise R :=
    ⟨by simpa [or_imp,forall_and] using ⟨good,goodPending⟩,
      pairwise_append.mpr ⟨apart,pairwise_singleton _ _,by simpa using alone⟩⟩
  induction rounds generalizing done pending with
  | zero =>
    have empty : done = [] := length_eq_zero_iff.mp (Nat.le_zero.mp enough)
    exact L.value (added goodPending good apart (by simp [empty]))
  | succ rounds ih =>
    simp only [absorb]
    refine L.sequence (holds_takeCombined combines goodPending good) fun taken ⟨found,alone⟩ => ?_
    cases taken with
    | none => exact L.value (added goodPending good apart (alone rfl))
    | some pair =>
      obtain ⟨lightWhole,sublist,shorter⟩ := found _ rfl
      exact ih (by omega) lightWhole (fun o mem => good o (sublist.subset mem)) (apart.sublist sublist)

lemma holds_normalizeObjects_apart (good : ∀ o ∈ objects, P o) :
    L.Holds (fun sorted => ∃ merged, (∀ o ∈ merged, P o) ∧ merged.Pairwise R ∧
        sorted = stableSort (fun a b => a.identity.notAfter b.identity) merged)
      fun i => normalizeObjects (combine i) objects := by
  have folded : L.Holds (fun merged => (∀ o ∈ merged, P o) ∧ merged.Pairwise R) fun i =>
      objects.foldlM (fun done o => absorb (combine i) done.length done o) [] :=
    L.foldlM (by simp) fun o mem done ⟨light,apart⟩ =>
      holds_absorb combines (Nat.le_refl _) (good o mem) light apart
  exact L.sequence folded fun merged ⟨light,apart⟩ => L.value ⟨merged,light,apart,rfl⟩

end Apart

variable [LawfulMonad m]

lemma holds_normalizeObjects (combines : ∀ a b, P a → P b → L.Holds (fun combined => ∀ o ∈ combined, P o)
      fun i => combine i a b) (good : ∀ o ∈ objects, P o) :
    L.Holds (fun merged => ∀ o ∈ merged, P o) fun i => normalizeObjects (combine i) objects := by
  have kept (a b : Obj) (goodA : P a) (goodB : P b) :=
    L.mono (combines a b goodA goodB)
      (q := fun combined => (∀ o ∈ combined, P o) ∧ (combined = none → True)) fun _ light =>
        ⟨light,fun _ => trivial⟩
  refine L.mono (holds_normalizeObjects_apart (R := fun _ _ => True) kept good) ?_
  rintro sorted ⟨merged,light,-,rfl⟩ o mem
  exact light o (mem_stableSort.mp mem)

end Normalizing

lemma keeps_joinStep [LawfulMonad m] (keep : l.RulesKeep L cost rules) :
    l.Keeps L cost fun i => (rules i).joinStep := by
  intro a b lightA lightB
  refine MergeRules.holds_joinStep lightA lightB ?_
  rintro u v rfl rfl
  have objects : ∀ o ∈ u.objects ++ v.objects, l.LightObject (l.inUnion cost) o :=
    forall_mem_append.mpr ⟨(light_union.mp lightA).2,(light_union.mp lightB).2⟩
  refine L.sequence (holds_normalizeObjects (fun a b => holds_combine keep) objects) fun merged light => ?_
  refine L.sequence (keep.settle _ light) fun settled subset => ?_
  exact L.value (light_ofUnion lightA.affords fun o mem => light o (subset mem))

end Limits

section Few

variable {m : Type → Type} [Monad m] [LawfulMonad m]

lemma normalizeObjects_few (combine : Obj → Obj → m (Option Obj))
    (few : objects.length ≤ 1) : normalizeObjects combine objects = pure objects := by
  match objects, few with
  | [], _ => simp [normalizeObjects,stableSort]
  | [o], _ => simp [normalizeObjects,absorb,stableSort,insertSorted]

/-- The join of two types with at most one object between them asks nothing about objects. -/
lemma joinStep_few {L : Lifting I m} {rules : I → MergeRules m} (few : (a.objects ++ b.objects).length ≤ 1)
    (settle : ∀ u : Union, L.Holds (fun settled => settled.objects = u.objects)
      fun i => (rules i).settle u) : L.Holds (fun t => t.objects.Sublist (a.objects ++ b.objects))
      fun i => (rules i).joinStep a b := by
  refine holds_joinStep (sublist_append_left _ _) (sublist_append_right _ _) ?_
  rintro u v rfl rfl
  have few : (u.objects ++ v.objects).length ≤ 1 := few
  simp only [joinUnions,normalizeObjects_few _ few,pure_bind]
  refine L.sequence (settle _) fun settled eq => L.value ?_
  unfold Ty.ofUnion
  split
  · exact nil_sublist _
  · simp [Ty.objects,eq]

end Few

end GradualJs
