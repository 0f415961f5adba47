import GradualJs.Proofs.Lattice.Depth
import GradualJs.Proofs.Registry.Ranks
import Mathlib.Data.List.ProdSigma

/-! Questions come to an end over ranked declarations. A comparison by structure uses up a pair of
types, and the ranks see to it that nothing that was used up comes back by another step. -/
namespace GradualJs

open Lifting Relations List

variable {α : Type} {a b type : Ty} {tgt : Instance} {w : Weights} {expected : Field}

lemma Lifting.settles_shift (held : settles.Holds p fun i => x (i + 1)) : settles.Holds p x := by
  obtain ⟨a,good,level,reached⟩ := held
  refine ⟨a,good,level + 1,fun deeper beyond => ?_⟩
  obtain ⟨below,rfl⟩ : ∃ below, deeper = below + 1 := ⟨deeper - 1,by omega⟩
  exact reached below (by omega)

namespace Registry

/-- Questions at all depths, of which the answers are looked at that no longer change. -/
def asked (r : Registry) (lax : Bool) : Survey Nat := .plain .settles (within r) lax

/-- From some depth on the question is answered, whatever is assumed beyond what is known. -/
def Ending (r : Registry) (lax : Bool) (known : Assumptions) (a b : Ty) : Prop :=
  Survey.Answered .settles known fun depth => (within r depth).subtype lax a b

variable {r : Registry}

lemma Ending.asks (ending : r.Ending lax known a b) : (r.asked lax).AsksType known a b := Survey.asksType_plain ending

lemma Ending.isSubtype (ending : r.Ending lax [] a b) : settles.Holds (fun _ => True)
      fun depth => (within r depth).isSubtype lax a b :=
  settles.map (ending [] (List.Subset.refl _)) fun _ _ => trivial

lemma ending_of_asks (parts : ∀ u v, a = .union u → b = .union v → (r.asked lax).AsksUnion r known u v) :
    r.Ending lax known a b := by
  intro assumed subset
  exact settles_shift ((Survey.asks_step parts).answered assumed subset)

lemma ending_plain (plain : a.Plain) : r.Ending lax known a b := by
  refine ending_of_asks fun u v eq _ => ?_
  subst eq
  obtain ⟨enums,objects⟩ := plain
  constructor <;> simp [enums,objects]

lemma countP_lt {list : List α} {a : α} (weaker : ∀ b, p b = true → q b = true) (mem : a ∈ list) (extra : q a = true)
    (missing : p a = false) : list.countP p < list.countP q := by
  have kept := monotone_filter_right list weaker
  rw [countP_eq_length_filter,countP_eq_length_filter]
  refine Nat.lt_of_not_le fun fewer => ?_
  have inBoth : a ∈ list.filter p := kept.eq_of_length_le fewer ▸ mem_filter.mpr ⟨mem,extra⟩
  simp [missing] at inBoth

def unseen (r : Registry) (known : Assumptions) : Nat := (r.nominalIds ×ˢ r.nominalIds).countP fun pair => pair ∉ known

lemma unseen_lt {src tgt : NominalId} (declaredSource : src ∈ r.nominalIds)
    (declaredTarget : tgt ∈ r.nominalIds) (new : (src,tgt) ∉ known) :
    r.unseen ((src,tgt) :: known) < r.unseen known := by
  refine countP_lt (a := (src,tgt)) (fun pair unseen => ?_) ?_ (by simpa using new) (by simp)
  · simp only [decide_eq_true_eq] at unseen ⊢
    exact fun old => unseen (mem_cons_of_mem _ old)
  · exact mem_product.mpr ⟨declaredSource,declaredTarget⟩

section Joins

/-- From some depth on the type can be joined with `undefined`, and gets no heavier. -/
def JoinsUndefined (r : Registry) (k : Ranks) (type : Ty) : Prop :=
  settles.Holds (fun t => k.nesting.weigh t ≤ k.nesting.weigh type) fun depth => (within r depth).join type .undefined

variable {k : Ranks}

lemma weigh_le_of_objects (subset : a.objects ⊆ b.objects) : w.weigh a ≤ w.weigh b := by
  cases a with
  | union u =>
    refine w.weigh_union_le.mpr fun o mem => ?_
    cases b with
    | union v => exact w.weigh_union_le.mp (Nat.le_refl _) o (subset mem)
    | bottom | top | unknown => cases subset mem
  | bottom | top | unknown => exact Nat.zero_le _

lemma settles_absorbEnums (plain : ∀ id, (r.enumBacking id).Plain) (u : Union) :
    settles.Holds (fun settled => settled.objects = u.objects) fun depth => absorbEnums r (.within r depth) u := by
  unfold absorbEnums
  dsimp only
  split
  · exact settles.value rfl
  · refine settles.sequence (settles.filterM (q := fun _ _ => True) fun id _ => ?_) fun enums _ => settles.value rfl
    exact settles.sequence (ending_plain (plain id)).isSubtype fun _ _ => settles.value trivial

lemma joinsUndefined_few (kinded : r.Kinded) (few : type.objects.length ≤ 1) : r.JoinsUndefined k type := by
  have none : Ty.undefined.objects = [] := rfl
  refine settles_shift (settles.mono (joinStep_few (by simpa [none] using few) (settles_absorbEnums kinded.enumBacking))
    fun t sublist => weigh_le_of_objects ?_)
  simpa [none] using sublist.subset

lemma asksField (joins : expected.optional = true → r.JoinsUndefined k expected.type)
    (question : ∀ found ∈ src, ∀ t, k.nesting.weigh t ≤ k.nesting.weigh expected.type →
      r.Ending lax known found.type t) : (r.asked lax).AsksField known src expected := by
  intro found eq
  have inSource := Field.find?_mem eq
  unfold Premises.Expected
  cases optional : expected.optional with
  | false =>
    refine settles.value ⟨by simp,by simp,?_⟩
    exact (question found inSource _ (Nat.le_refl _)).asks
  | true =>
    refine settles.mono (joins optional) fun t light => ⟨trivial,nofun,?_⟩
    exact (question found inSource t light).asks

end Joins

/-- What a question has left: pairs to put in the table, object types and functions to go
through, and the height of the type compared with. -/
def size (r : Registry) (k : Ranks) (known : Assumptions) (a b : Ty) : Nat × Nat × Nat × Nat :=
  (r.unseen known,k.nesting.weigh a + k.nesting.weigh b,k.calling.weigh a + k.calling.weigh b, k.height.weigh b)

def Smaller (x y : Nat × Nat × Nat × Nat) : Prop :=
  x.1 < y.1 ∨ x.1 ≤ y.1 ∧ (x.2.1 < y.2.1 ∨ x.2.1 ≤ y.2.1 ∧ (x.2.2.1 < y.2.2.1 ∨ x.2.2.1 ≤ y.2.2.1 ∧ x.2.2.2 < y.2.2.2))

lemma smaller_wellFounded : WellFounded Smaller := by
  have lex : WellFounded (Prod.Lex (· < ·) (Prod.Lex (· < ·) (Prod.Lex (· < ·) (· < ·))) :
      Nat × Nat × Nat × Nat → Nat × Nat × Nat × Nat → Prop) :=
    (Prod.lex Nat.lt_wfRel (Prod.lex Nat.lt_wfRel (Prod.lex Nat.lt_wfRel Nat.lt_wfRel))).wf
  refine Subrelation.wf (fun {x y} smaller => ?_) lex
  simp only [Smaller] at smaller
  simp only [Prod.lex_def]
  omega

/-- The objects are light, and comparing them uses up no more than is left. -/
structure Room (r : Registry) (k : Ranks) (limit : Nat) (left : Nat × Nat × Nat × Nat)
    (known : Assumptions) (a b : Obj) : Prop where
  lightA : k.nesting.weighObject a ≤ limit
  lightB : k.nesting.weighObject b ≤ limit
  pairs : r.unseen known ≤ left.1
  nesting : k.nesting.weighObject a + k.nesting.weighObject b ≤ left.2.1
  calling : k.calling.weighObject a + k.calling.weighObject b ≤ left.2.2.1
  height : k.height.weighObject b < left.2.2.2

lemma Room.ofUnions {k : Ranks} {u v : Union} {a b : Obj}
    (lightU : k.nesting.weigh (.union u) ≤ limit) (lightV : k.nesting.weigh (.union v) ≤ limit)
    (inU : a ∈ u.objects) (inV : b ∈ v.objects) :
    r.Room k limit (r.size k known (.union u) (.union v)) known a b := by
  have weighA (w : Weights) : w.union + w.weighObject a ≤ w.weigh (.union u) :=
    w.weigh_union_le.mp (Nat.le_refl _) a inU
  have weighB (w : Weights) : w.union + w.weighObject b ≤ w.weigh (.union v) :=
    w.weigh_union_le.mp (Nat.le_refl _) b inV
  have nestingA : k.nesting.weighObject a ≤ k.nesting.weigh (.union u) := by
    simpa [Ranks.nesting] using weighA k.nesting
  have nestingB : k.nesting.weighObject b ≤ k.nesting.weigh (.union v) := by
    simpa [Ranks.nesting] using weighB k.nesting
  have callingA : k.calling.weighObject a ≤ k.calling.weigh (.union u) := by
    simpa [Ranks.calling] using weighA k.calling
  have callingB : k.calling.weighObject b ≤ k.calling.weigh (.union v) := by
    simpa [Ranks.calling] using weighB k.calling
  have heightB : 1 + k.height.weighObject b ≤ k.height.weigh (.union v) := weighB k.height
  refine ⟨Nat.le_trans nestingA lightU,Nat.le_trans nestingB lightV,Nat.le_refl _,?_,?_,?_⟩
  · exact Nat.add_le_add nestingA nestingB
  · exact Nat.add_le_add callingA callingB
  · simp only [size]
    omega

lemma weigh_padArgs_le (mem : pair ∈ padArgs lefts rights) :
    w.weigh pair.1 ≤ w.weighList lefts ∧ w.weigh pair.2 ≤ w.weighList rights := by
  obtain ⟨first,second⟩ := padArgs_mem mem
  constructor
  · rcases first with unknown | inArgs
    · simp [unknown,Weights.weigh]
    · exact w.weighList_le.mp (Nat.le_refl _) _ inArgs
  · rcases second with unknown | inArgs
    · simp [unknown,Weights.weigh]
    · exact w.weighList_le.mp (Nat.le_refl _) _ inArgs

section Parts

variable {k : Ranks} (ranked : r.Ranked k)
  (joins : ∀ type, type.objects.length ≤ 1 ∨ k.nesting.weigh type < limit → r.JoinsUndefined k type)
  (next : ∀ known a b, Smaller (r.size k known a b) left → k.nesting.weigh a ≤ limit →
    k.nesting.weigh b ≤ limit → r.Ending lax known a b)

include ranked next in
lemma asks_args {viewed : Instance} (room : r.Room k limit left known (.nominal src) (.nominal tgt))
    (found : r.upcast src tgt.id = some viewed) : ∀ pair ∈ padArgs viewed.args tgt.args,
      (r.asked lax).AsksType known pair.1 pair.2 := by
  intro pair mem
  obtain ⟨lightA,lightB,pairs,nesting,calling,height⟩ := room
  have nestingPair := weigh_padArgs_le (w := k.nesting) mem
  have callingPair := weigh_padArgs_le (w := k.calling) mem
  have heightPair := weigh_padArgs_le (w := k.height) mem
  obtain ⟨nestingView,callingView⟩ := ranked.upcast_le found
  simp only [Weights.weighObject,Weights.weighInstance_eq] at *
  refine (next known pair.1 pair.2 ?_ ?_ ?_).asks
  · simp only [Smaller,size]
    omega
  · omega
  · omega

lemma weigh_erased_le {f : FunctionType}
    (mem : type ∈ f.eraseTypeParams.types) : w.function + w.weigh type ≤ w.weighFunction f :=
  Nat.le_trans (w.weighFunction_le.mp (Nat.le_refl _) type mem) (w.weighFunction_eraseTypeParams_le f)

include next in
/-- Two functions are compared both ways, so only what they weigh together goes down. -/
lemma asks_functions {a : Obj} {f g : FunctionType} (room : r.Room k limit left known a (.function g))
    (lighter : k.nesting.weighFunction f ≤ k.nesting.weighObject a)
    (fewer : k.nesting.weighFunction f < k.nesting.weighObject a ∨
      k.calling.weighFunction f ≤ k.calling.weighObject a) :
    (r.asked lax).AsksBoth known f.eraseTypeParams.types g.eraseTypeParams.types := by
  intro s inF t inG
  obtain ⟨lightA,lightB,pairs,nesting,calling,height⟩ := room
  have nestingS := weigh_erased_le (w := k.nesting) inF
  have nestingT := weigh_erased_le (w := k.nesting) inG
  have callingS := weigh_erased_le (w := k.calling) inF
  have callingT := weigh_erased_le (w := k.calling) inG
  have counted : k.calling.function = 1 := rfl
  simp only [Weights.weighObject] at lightB nesting calling
  constructor
  · refine (next known s t ?_ (by omega) (by omega)).asks
    simp only [Smaller,size]
    omega
  · refine (next known t s ?_ (by omega) (by omega)).asks
    simp only [Smaller,size]
    omega

include joins next in
/-- Either side gets lighter when a property of an object type without a name is reached. -/
lemma asks_property {a b : Obj} (room : r.Room k limit left known a b)
    (found : ∀ f ∈ src, k.nesting.weigh f.type ≤ k.nesting.weighObject a)
    (wanted : k.nesting.weigh expected.type ≤ k.nesting.weighObject b)
    (optional : expected.optional = true → 1 < expected.type.objects.length →
      k.nesting.weigh expected.type < k.nesting.weighObject b)
    (lighter : (∀ f ∈ src, k.nesting.weigh f.type < k.nesting.weighObject a) ∨
      k.nesting.weigh expected.type < k.nesting.weighObject b) :
    (r.asked lax).AsksField known src expected := by
  obtain ⟨lightA,lightB,pairs,nesting,calling,height⟩ := room
  refine asksField (k := k) (fun isOptional => joins _ ?_) fun f mem t light => ?_
  · have := optional isOptional
    omega
  · have foundF := found f mem
    have lighterF : k.nesting.weigh f.type < k.nesting.weighObject a ∨
        k.nesting.weigh expected.type < k.nesting.weighObject b := lighter.imp_left (· f mem)
    refine next known f.type t ?_ (by omega) (by omega)
    simp only [Smaller,size]
    omega

include ranked joins next in
lemma asks_guarded (room : r.Room k limit left known (.nominal src) (.nominal tgt))
    (record : (r.nominal tgt.id).kind = .record) : (r.asked lax).Asks known
      (fun depth => guarded r (.within r depth) lax src tgt) True False := by
  obtain ⟨lightA,lightB,pairs,-,-,-⟩ := room
  refine Survey.asks_guarded (fun _ => trivial) False.elim fun new expected mem => ?_
  have light := ranked.nesting_instanceFields_le expected mem
  simp only [Weights.weighObject] at lightA lightB
  refine asksField (k := k) (fun optional => joins _ ?_) fun f found t lightT => ?_
  · have := ranked.nesting_optional_lt expected mem optional
    omega
  · have declaredSource : src.id ∈ r.nominalIds := by
      by_contra absent
      simp [instanceFields_of_notMem absent] at found
    have declaredTarget : tgt.id ∈ r.nominalIds := by
      by_contra absent
      simp [nominal_of_notMem absent] at record
    have lightF := ranked.nesting_instanceFields_le f found
    have fewer := unseen_lt declaredSource declaredTarget new
    refine next _ f.type t (.inl ?_) (by omega) (by omega)
    simp only [size]
    omega

include ranked joins next in
lemma asks_instance (room : r.Room k limit left known (.nominal src) (.nominal tgt)) :
    (r.asked lax).AsksInstance r known src tgt := by
  unfold Survey.AsksInstance
  split
  · exact asks_args ranked next room ‹_›
  · exact asks_guarded ranked joins next room

include ranked joins next in
lemma asks_object {a b : Obj} (room : r.Room k limit left known a b) : (r.asked lax).AsksObject r known a b := by
  have properties {a : Obj} {tgt : Instance} (room : r.Room k limit left known a (.nominal tgt))
      (unnamed : ∀ i, a ≠ .nominal i) : ∀ expected ∈ r.instanceFields tgt,
      (r.asked lax).AsksField known (r.fieldsOf a).1 expected := by
    intro expected mem
    have found : ∀ f ∈ (r.fieldsOf a).1, k.nesting.weigh f.type < k.nesting.weighObject a :=
      fun f inSource => (ranked.nesting_fieldsOf f inSource).resolve_right fun ⟨_,i,eq⟩ => unnamed i eq
    exact asks_property joins next room (fun f inSource => Nat.le_of_lt (found f inSource))
      (ranked.nesting_instanceFields_le expected mem)
      (ranked.nesting_optional_lt expected mem) (.inl found)
  have fields {a : Obj} {tgt : Record} (room : r.Room k limit left known a (.record tgt)) :
      ∀ expected ∈ tgt.fields, (r.asked lax).AsksField known (r.fieldsOf a).1 expected := by
    intro expected mem
    have wanted := (ranked.nesting_fieldsOf (a := .record tgt) expected mem).resolve_right (by simp)
    refine asks_property joins next room (fun f inSource => ?_) (Nat.le_of_lt wanted) (fun _ _ => wanted) (.inr wanted)
    rcases ranked.nesting_fieldsOf f inSource with lighter | ⟨light,-⟩
    · exact Nat.le_of_lt lighter
    · exact light
  cases b with
  | nominal tgt =>
    cases a with
    | nominal src => exact asks_instance ranked joins next room
    | record src => exact properties room nofun
    | function _ => trivial
    | namespaceValue id => exact properties room nofun
  | record tgt => cases a <;> exact fields room
  | function g =>
    cases a with
    | nominal _ | record _ => trivial
    | function f => exact asks_functions next room (Nat.le_refl _) (.inr (Nat.le_refl _))
    | namespaceValue id =>
      intro owner constructor found
      have below := (ranked.space id).constructor _ found
      exact asks_functions next room (Nat.le_of_lt below) (.inl below)
  | namespaceValue _ => cases a <;> trivial

end Parts

section Run

variable {k : Ranks} (kinded : r.Kinded) (ranked : r.Ranked k)
  (joins : ∀ type, type.objects.length ≤ 1 ∨ k.nesting.weigh type < limit → r.JoinsUndefined k type)

include kinded ranked joins

/-- Every question about types that are light enough comes to an end, provided that lighter
types can be joined with `undefined`. -/
lemma ending_of_joins (known : Assumptions) (a b : Ty) (lightA : k.nesting.weigh a ≤ limit)
    (lightB : k.nesting.weigh b ≤ limit) : r.Ending lax known a b := by
  -- The induction is on what the question has left.
  suffices run : ∀ left known a b, r.size k known a b = left → k.nesting.weigh a ≤ limit →
      k.nesting.weigh b ≤ limit → r.Ending lax known a b from
    run _ known a b rfl lightA lightB
  clear lightA lightB
  intro left
  induction left using smaller_wellFounded.induction with
  | _ left ih =>
    intro known a b eq lightA lightB
    have next : ∀ known a b, Smaller (r.size k known a b) left → k.nesting.weigh a ≤ limit →
        k.nesting.weigh b ≤ limit → r.Ending lax known a b :=
      fun known a b smaller => ih _ smaller known a b rfl
    refine ending_of_asks fun u v isU isV => ?_
    subst isU isV eq
    refine ⟨fun id _ _ => (ending_plain (kinded.enumBacking id)).asks,fun o inU p inV => ?_⟩
    exact asks_object ranked joins next (.ofUnions lightA lightB inU inV)

lemma asks_light {a b : Obj} (lightA : k.nesting.weighObject a ≤ limit)
    (lightB : k.nesting.weighObject b ≤ limit) : (r.asked lax).AsksObject r known a b := by
  have alone (o : Obj) (light : k.nesting.weighObject o ≤ limit) : k.nesting.weigh (.object o) ≤ limit := by
    refine k.nesting.weigh_union_le.mpr fun other mem => ?_
    rw [mem_singleton.mp mem]
    simpa [Ranks.nesting] using light
  exact asks_object ranked joins (fun known a b _ => ending_of_joins kinded ranked joins known a b)
    (.ofUnions (alone a lightA) (alone b lightB) (mem_singleton.mpr rfl) (mem_singleton.mpr rfl))

end Run

end Registry
end GradualJs
