import GradualJs.Proofs.Lifting
import GradualJs.Proofs.Subtyping.Rules
import GradualJs.Proofs.Ty.Weight

/-! What the answer to a question says about the rules. A positive answer is right as far
as the pairs in the table can be trusted, a negative one excludes whatever could make the
rule hold, and the table only grows. -/
namespace GradualJs

open Relations Premises List

variable {src : List Field} {f g : FunctionType}

namespace Query

variable {α : Type} (ask : α → Query Bool) (a : α)

lemma allM_cons (rest : List α) : (a :: rest).allM ask = (do
      if !(← ask a) then return false
      rest.allM ask) := by
  simp only [allM]
  congr 1
  funext ans
  cases ans <;> rfl

lemma anyM_cons (rest : List α) : (a :: rest).anyM ask = (do
      if ← ask a then return true
      rest.anyM ask) := by
  simp only [anyM]
  congr 1
  funext ans
  cases ans <;> rfl

lemma allM_singleton : [a].allM ask = ask a := by
  rw [allM_cons]
  refine Eq.trans ?_ (bind_pure (ask a))
  congr 1
  funext ans
  cases ans <;> rfl

lemma anyM_singleton : [a].anyM ask = ask a := by
  rw [anyM_cons]
  refine Eq.trans ?_ (bind_pure (ask a))
  congr 1
  funext ans
  cases ans <;> rfl

/-- Questions that leave the table alone are answered one by one. -/
lemma run_allM_of_steady {ask : α → Query Bool} {list : List α}
    (steady : ∀ a ∈ list, ∀ assumed, (ask a).run assumed = some (ans a,assumed))
    (assumed : Assumptions) : (list.allM ask).run assumed = some (list.all ans,assumed) := by
  induction list with
  | nil => rfl
  | cons a rest ih =>
    obtain ⟨first,others⟩ := forall_mem_cons.mp steady
    rw [allM_cons,StateT.run_bind,first]
    cases eq : ans a with
    | false => simp [eq]
    | true => simpa [eq] using ih others

end Query

namespace Relations

/-- The guarded comparison of an instance with a record type. A pair in the table is not
looked at again; a new one is, with the pair assumed. -/
def guarded (r : Registry) (below : Relations) (lax : Bool) (src tgt : Instance) : Query Bool := do
  let assumed ← get
  if assumed.contains (src.id,tgt.id) then return true
  set ((src.id,tgt.id) :: assumed)
  below.structural lax (r.instanceFields src) false (r.instanceFields tgt) false

end Relations

structure Verdict (trusted : NominalId × NominalId → Prop) (pre : Assumptions)
    (sure possible : Prop) (ans : Bool × Assumptions) : Prop where
  grows : pre ⊆ ans.2
  sound : (∀ pair ∈ ans.2, trusted pair) → ans.1 = true → sure
  complete : ans.1 = false → ¬possible

/-- A way of looking at the questions over a family of levels: what is said of their runs,
which assumed pairs are trusted, and what the two answers are compared with. -/
structure Survey (I : Type) where
  lifting : Lifting I Option
  below : I → Relations
  lax : Bool
  trusted : NominalId × NominalId → Prop
  sure : Premises
  possible : Premises
  sure_lax : sure.lax = lax
  possible_lax : possible.lax = lax

namespace Survey

variable {I : Type} (s : Survey I)

/-- The question is answered with a verdict, whatever is assumed beyond what is known. -/
def Asks (known : Assumptions) (q : I → Query Bool) (sure possible : Prop) : Prop :=
  ∀ assumed, known ⊆ assumed → s.lifting.Holds (Verdict s.trusted assumed sure possible) fun i => (q i).run assumed

variable {s} {sure possible : Prop}

lemma Asks.weaken (asked : s.Asks known q sure possible) (more : known ⊆ further) : s.Asks further q sure possible :=
  fun assumed subset => asked assumed (Subset.trans more subset)

lemma Asks.mono (asked : s.Asks known q sure possible)
    (sound : sure → sure') (complete : possible' → possible) : s.Asks known q sure' possible' := by
  intro assumed subset
  refine s.lifting.mono (asked assumed subset) fun ans verdict => ?_
  exact ⟨verdict.grows,fun trusted yes => sound (verdict.sound trusted yes),
    fun no held => verdict.complete no (complete held)⟩

lemma Asks.pure (ans : Bool) (sound : ans = true → sure) (complete : ans = false → ¬possible) :
    s.Asks known (fun _ => Pure.pure ans) sure possible := by
  intro assumed subset
  simp only [StateT.run_pure]
  exact s.lifting.value ⟨Subset.refl _,fun _ => sound,complete⟩

/-- One question after another. The table of the second contains that of the first. -/
lemma Asks.bind {next : I → Bool → Query Bool} (first : s.Asks known q sure possible) (sureOf possibleOf : Bool → Prop)
    (second : ∀ ans, s.Asks known (fun i => next i ans) (sureOf ans) (possibleOf ans))
    (sound : ∀ ans, (ans = true → sure) → sureOf ans → sure')
    (complete : ∀ ans, (ans = false → ¬possible) → possible' → possibleOf ans) :
    s.Asks known (fun i => q i >>= next i) sure' possible' := by
  intro assumed subset
  simp only [StateT.run_bind]
  refine s.lifting.sequence (first assumed subset) fun mid verdict => ?_
  have later := second mid.1 mid.2 (Subset.trans subset verdict.grows)
  refine s.lifting.mono later fun last final => ⟨?_,?_,?_⟩
  · exact Subset.trans verdict.grows final.grows
  · intro trusted yes
    refine sound mid.1 (verdict.sound fun pair mem => ?_) (final.sound trusted yes)
    exact trusted pair (final.grows mem)
  · intro no held
    exact final.complete no (complete mid.1 verdict.complete held)

lemma Asks.andThen (first : s.Asks known q sure possible) (second : s.Asks known q' sure' possible') :
    s.Asks known (fun i => do
      if !(← q i) then return false
      q' i) (sure ∧ sure') (possible ∧ possible') := by
  refine first.bind (fun ans => ans = true ∧ sure') (fun ans => ans = true ∧ possible') ?_ ?_ ?_
  · intro ans
    cases ans with
    | true => exact second.mono (fun held => ⟨rfl,held⟩) fun held => held.2
    | false => exact .pure false (by simp) (by simp)
  · rintro ans known ⟨yes,held⟩
    exact ⟨known yes,held⟩
  · rintro ans excluded ⟨held,held'⟩
    cases ans with
    | true => exact ⟨rfl,held'⟩
    | false => exact absurd held (excluded rfl)

lemma Asks.orElse (first : s.Asks known q sure possible) (second : s.Asks known q' sure' possible') :
    s.Asks known (fun i => do
      if ← q i then return true
      q' i) (sure ∨ sure') (possible ∨ possible') := by
  refine first.bind (fun ans => ans = true ∨ sure') (fun ans => ans = true ∨ possible') ?_ ?_ ?_
  · intro ans
    cases ans with
    | true => exact .pure true (by simp) (by simp)
    | false => exact second.mono .inr fun held => held.resolve_left (by simp)
  · rintro ans known (yes | held)
    · exact .inl (known yes)
    · exact .inr held
  · rintro ans excluded (held | held)
    · cases ans with
      | true => exact .inl rfl
      | false => exact absurd held (excluded rfl)
    · exact .inr held

lemma Asks.unless [Decidable condition] (otherwise : ¬condition → s.Asks known q sure possible) :
    s.Asks known (fun i => if condition then return true else q i) (condition ∨ sure) (condition ∨ possible) := by
  by_cases met : condition
  · simp only [met,if_true,true_or]
    exact .pure true (by simp) (by simp)
  · simp only [met,if_false,false_or]
    exact otherwise met

lemma Asks.decide (condition : Prop) [Decidable condition] :
    s.Asks known (fun _ => Pure.pure (Decidable.decide condition)) condition condition :=
  .pure _ of_decide_eq_true of_decide_eq_false

section Lists

variable {α : Type} {list : List α} {ask : I → α → Query Bool} {sureOf possibleOf : α → Prop}

lemma Asks.all (each : ∀ a ∈ list, s.Asks known (fun i => ask i a) (sureOf a) (possibleOf a)) :
    s.Asks known (fun i => list.allM (ask i)) (∀ a ∈ list, sureOf a) (∀ a ∈ list, possibleOf a) := by
  induction list with
  | nil => exact .pure true (by simp) (by simp)
  | cons a rest ih =>
    have others := ih fun b mem => each b (by simp [mem])
    have both := (each a (by simp)).andThen others
    simpa only [Query.allM_cons,forall_mem_cons] using both

lemma Asks.any (each : ∀ a ∈ list, s.Asks known (fun i => ask i a) (sureOf a) (possibleOf a)) :
    s.Asks known (fun i => list.anyM (ask i)) (∃ a ∈ list, sureOf a) (∃ a ∈ list, possibleOf a) := by
  induction list with
  | nil => exact .pure false (by simp) (by simp)
  | cons a rest ih =>
    have others := ih fun b mem => each b (by simp [mem])
    have either := (each a (by simp)).orElse others
    simpa only [Query.anyM_cons,mem_cons,exists_eq_or_imp] using either

end Lists

variable (s) in
def AsksType (known : Assumptions) (a b : Ty) : Prop :=
  s.Asks known (fun i => (s.below i).subtype s.lax a b) (s.sure.fits a b) (s.possible.fits a b)

variable (s) in
/-- What has to be known to compare a property: the type it is compared with can be had,
and the question about the two types can be asked. -/
def AsksField (known : Assumptions) (src : List Field) (wanted : Field) : Prop :=
  ∀ found, Field.find? src wanted.name = some found → s.lifting.Holds (fun type => s.sure.Expected wanted type ∧
        (∀ other, s.possible.Expected wanted other → other = type) ∧
        s.AsksType known found.type type)
      fun i => if wanted.optional then (s.below i).join wanted.type .undefined
        else pure wanted.type

lemma asks_property {wanted field : Field} (found : Field.find? src wanted.name = some field)
    (asks : s.AsksField known src wanted) : s.Asks known (fun i => do
        let type ← StateT.lift (if wanted.optional
          then (s.below i).join wanted.type .undefined else pure wanted.type)
        (s.below i).subtype s.lax field.type type)
      (∃ type, s.sure.Expected wanted type ∧ s.sure.fits field.type type)
      (∃ type, s.possible.Expected wanted type ∧ s.possible.fits field.type type) := by
  intro assumed subset
  simp only [StateT.run_bind,StateT.run_lift,bind_assoc,pure_bind]
  refine s.lifting.sequence (asks field found) fun type held => ?_
  obtain ⟨expectedType,only,question⟩ := held
  refine s.lifting.mono (question assumed subset) fun ans verdict => ⟨verdict.grows,?_,?_⟩
  · intro trusted yes
    exact ⟨type,expectedType,verdict.sound trusted yes⟩
  · rintro no ⟨other,otherExpected,held⟩
    rw [only other otherExpected] at held
    exact verdict.complete no held

lemma asks_structural (sourceLoose targetLoose : Bool)
    (fields : ∀ wanted ∈ tgt, s.AsksField known src wanted) : s.Asks known
      (fun i => (s.below i).structural s.lax src sourceLoose tgt targetLoose)
      (s.sure.FieldsFit src sourceLoose tgt targetLoose)
      (s.possible.FieldsFit src sourceLoose tgt targetLoose) := by
  refine Asks.all fun wanted mem => ?_
  unfold FieldFits
  cases found : Field.find? src wanted.name with
  | none => exact .pure _ (by simp [or_assoc]) (by simp +contextual)
  | some field =>
    by_cases clash : (field.optional && !wanted.optional) = true
    · simp only [clash,if_true]
      refine .pure _ (by simp) fun _ held => ?_
      simp only [Bool.and_eq_true,Bool.not_eq_true'] at clash
      simp [held.1 clash.1] at clash
    · have allowed : field.optional = true → wanted.optional = true := by simpa using clash
      have asked := asks_property found (fields wanted mem)
      simp only [clash]
      cases optional : wanted.optional with
      | false =>
        simp only [optional] at asked allowed ⊢
        exact asked.mono (fun held => ⟨allowed,held⟩) fun held => held.2
      | true =>
        simp only [optional] at asked ⊢
        exact asked.mono (fun held => ⟨fun _ => trivial,held⟩) fun held => held.2

lemma asks_param (swapped : s.AsksType known sup sub) (straight : s.AsksType known sub sup) :
    s.Asks known (fun i => (s.below i).paramFits s.lax sub sup)
      (s.sure.ParamFits sub sup) (s.possible.ParamFits sub sup) := by
  unfold paramFits ParamFits
  refine Asks.orElse swapped ?_
  rw [s.sure_lax,s.possible_lax]
  unfold AsksType at straight
  cases flag : s.lax with
  | false => exact .pure false (by simp) (by simp)
  | true => simpa [flag] using straight

variable (s) in
/-- Every type of the one list can be compared with every type of the other, both ways. -/
def AsksBoth (known : Assumptions) (left right : List Ty) : Prop :=
  ∀ a ∈ left, ∀ b ∈ right, s.AsksType known a b ∧ s.AsksType known b a

lemma asks_optionalParam {sub sup : Option Ty} (types : s.AsksBoth known sub.toList sup.toList) :
    s.Asks known (fun i => (s.below i).optionalParamFits s.lax sub sup)
      (s.sure.OptionalParamFits sub sup) (s.possible.OptionalParamFits sub sup) := by
  cases sub with
  | none => exact .pure true (fun _ => trivial) (by simp)
  | some a =>
    cases sup with
    | none => exact .pure true (fun _ => trivial) (by simp)
    | some b =>
      obtain ⟨straight,swapped⟩ := types a (by simp) b (by simp)
      exact asks_param swapped straight

lemma asks_constructs {a b : Option Ty} (types : s.AsksBoth known a.toList b.toList) :
    s.Asks known (fun i => (s.below i).constructsFit s.lax a b)
      (s.sure.ConstructsFit a b) (s.possible.ConstructsFit a b) := by
  cases a with
  | none =>
    cases b with
    | none => exact .pure true (fun _ => trivial) (by simp)
    | some t => exact .pure false (by simp) fun _ held => held
  | some t =>
    cases b with
    | none => exact .pure false (by simp) fun _ held => held
    | some t' => exact (types t (by simp) t' (by simp)).1

lemma AsksBoth.subset (types : s.AsksBoth known left right) (lefts : left' ⊆ left) (rights : right' ⊆ right) :
    s.AsksBoth known left' right' :=
  fun a memberA b memberB => types a (lefts memberA) b (rights memberB)

lemma asks_plainFunction (types : s.AsksBoth known f.types g.types) :
    s.Asks known (fun i => (s.below i).plainFunctionSubtype s.lax f g)
      (s.sure.PlainFunctionFits f g) (s.possible.PlainFunctionFits f g) := by
  have constructs := asks_constructs (types.subset f.constructs_subset g.constructs_subset)
  have arity : s.Asks known (fun _ => pure (arityFits f g)) (arityFits f g = true) (arityFits f g = true) :=
    .pure _ id (by simp)
  have params : s.Asks known (fun i =>
      (range (max f.positionalLength g.positionalLength)).allM fun index =>
        (s.below i).optionalParamFits s.lax (f.param index) (g.param index)) _ _ :=
    .all fun index _ =>
      asks_optionalParam (types.subset (f.param_subset index) (g.param_subset index))
  have rest := asks_optionalParam (types.subset f.rest_subset g.rest_subset)
  have recv := asks_optionalParam (types.subset f.receiver_subset g.receiver_subset)
  have res := (types f.returnType f.returnType_mem g.returnType g.returnType_mem).1
  have asked := constructs.andThen (arity.andThen (params.andThen (rest.andThen (recv.andThen res))))
  simp only [pure_bind,mem_range] at asked
  refine asked.mono ?_ ?_
  · rintro ⟨constructs,arity,params,rest,recv,res⟩
    exact ⟨constructs,arity,params,rest,recv,res⟩
  · rintro ⟨constructs,arity,params,rest,recv,res⟩
    exact ⟨constructs,arity,params,rest,recv,res⟩

lemma asks_function (types : s.AsksBoth known f.eraseTypeParams.types g.eraseTypeParams.types) :
    s.Asks known (fun i => (s.below i).functionSubtype s.lax f g)
      (s.sure.FunctionFits f g) (s.possible.FunctionFits f g) := by
  unfold functionSubtype FunctionFits
  cases loose : f.loose || g.loose with
  | true => exact .pure true (fun _ => .inl rfl) (by simp)
  | false => simpa using asks_plainFunction types

section Objects

variable {r : Registry}

lemma asks_guarded {src tgt : Instance} (hit : s.trusted (src.id,tgt.id) → s.sure.resembles src tgt)
    (unfolds : s.possible.resembles src tgt →
      s.possible.FieldsFit (r.instanceFields src) false (r.instanceFields tgt) false)
    (fields : (src.id,tgt.id) ∉ known → ∀ wanted ∈ r.instanceFields tgt,
      s.AsksField ((src.id,tgt.id) :: known) (r.instanceFields src) wanted) :
    s.Asks known (fun i => guarded r (s.below i) s.lax src tgt)
      (s.sure.resembles src tgt) (s.possible.resembles src tgt) := by
  intro assumed subset
  by_cases seen : (src.id,tgt.id) ∈ assumed
  · have run (i : I) : (guarded r (s.below i) s.lax src tgt).run assumed = pure (true,assumed) := by
      simp [guarded,seen]
    simp only [run]
    refine s.lifting.value ⟨Subset.refl _,fun trusted _ => hit (trusted _ seen),?_⟩
    simp
  · have run (i : I) : (guarded r (s.below i) s.lax src tgt).run assumed =
        ((s.below i).structural s.lax (r.instanceFields src) false
          (r.instanceFields tgt) false).run ((src.id,tgt.id) :: assumed) := by
      simp [guarded,seen]
    simp only [run]
    have unseen : (src.id,tgt.id) ∉ known := fun mem => seen (subset mem)
    have asked := asks_structural false false (fields unseen) ((src.id,tgt.id) :: assumed) (cons_subset_cons _ subset)
    refine s.lifting.mono asked fun ans verdict => ⟨?_,?_,?_⟩
    · exact Subset.trans (subset_cons_self _ _) verdict.grows
    · intro trusted _
      exact hit (trusted _ (verdict.grows (by simp)))
    · intro no held
      exact verdict.complete no (unfolds held)

variable (s) in
/-- The questions that the comparison of two instances leads to. -/
def AsksInstance (r : Registry) (known : Assumptions) (src tgt : Instance) : Prop :=
  match r.upcast src tgt.id with
  | some viewed => ∀ pair ∈ padArgs viewed.args tgt.args, s.AsksType known pair.1 pair.2
  | none => (r.nominal tgt.id).kind = .record → s.Asks known (fun i => guarded r (s.below i) s.lax src tgt)
        (s.sure.resembles src tgt) (s.possible.resembles src tgt)

lemma asks_instance {src tgt : Instance} (asks : s.AsksInstance r known src tgt) :
    s.Asks known (fun i => instanceSubtype r (s.below i) s.lax src tgt)
      (s.sure.InstanceFits r src tgt) (s.possible.InstanceFits r src tgt) := by
  unfold AsksInstance at asks
  unfold instanceSubtype InstanceFits
  cases viewed : r.upcast src tgt.id with
  | some instance' =>
    simp only [viewed] at asks ⊢
    exact Asks.all asks
  | none =>
    simp only [viewed] at asks ⊢
    by_cases record : (r.nominal tgt.id).kind = .record
    · simp only [record,true_and,ne_eq,not_true_eq_false,if_false]
      exact asks record
    · simp only [record,false_and,ne_eq,not_false_eq_true,if_true]
      exact .pure false (by simp) (by simp)

variable (s) in
def AsksObject (r : Registry) (known : Assumptions) : Obj → Obj → Prop
  | .nominal src, .nominal tgt => s.AsksInstance r known src tgt
  | .function f, .function g =>
    s.AsksBoth known f.eraseTypeParams.types g.eraseTypeParams.types
  | .namespaceValue id, .function g => ∀ owner constructor, r.constructorOf id = some (owner,constructor) →
        s.AsksBoth known constructor.eraseTypeParams.types g.eraseTypeParams.types
  | .namespaceValue id, .nominal tgt => ∀ wanted ∈ r.instanceFields tgt,
      s.AsksField known (r.fieldsOf (.namespaceValue id)).1 wanted
  | .record record, .nominal tgt => ∀ wanted ∈ r.instanceFields tgt,
      s.AsksField known (r.fieldsOf (.record record)).1 wanted
  | src, .record tgt => ∀ wanted ∈ tgt.fields, s.AsksField known (r.fieldsOf src).1 wanted
  | _, _ => True

lemma asks_object (asks : s.AsksObject r known a b) :
    s.Asks known (fun i => objectSubtype r (s.below i) s.lax a b)
      (s.sure.ObjectFits r a b) (s.possible.ObjectFits r a b) := by
  cases b with
  | nominal tgt =>
    cases a with
    | nominal src => exact .unless fun _ => asks_instance asks
    | record record =>
      refine .unless fun _ => ?_
      cases comparable : (decide ((r.nominal tgt.id).kind = .record) || record.loose) with
      | true =>
        simp only [if_true,true_and]
        exact asks_structural _ _ asks
      | false => exact .pure false (by simp) (by simp)
    | function f =>
      exact .pure _ (by simp [ObjectFits]) (by simp [ObjectFits])
    | namespaceValue id =>
      refine .unless fun _ => ?_
      by_cases function : tgt.id = .function
      · simp only [function,if_true]
        exact .pure _ (fun yes => yes) (by simp)
      · simp only [function,if_false]
        exact asks_structural _ _ asks
  | record tgt =>
    cases a <;> exact asks_structural _ _ asks
  | function g =>
    cases a with
    | nominal src =>
      exact .pure _ (by simp [ObjectFits]) (by simp [ObjectFits])
    | record record => exact .pure false (by simp) fun _ held => held
    | function f => exact asks_function asks
    | namespaceValue id =>
      simp only [objectSubtype,ObjectFits]
      cases constructor : r.constructorOf id with
      | none => exact .pure false (by simp) fun _ held => held
      | some found => exact .unless fun _ => asks_function (asks _ _ constructor)
  | namespaceValue id =>
    cases a with
    | namespaceValue other => exact .decide (other = id)
    | nominal | record | function => exact .pure false (by simp) fun _ held => held

end Objects

section Unions

variable {r : Registry}

variable (s) in
structure AsksUnion (r : Registry) (known : Assumptions) (u v : Union) : Prop where
  enums : ∀ id ∈ u.enums, id ∉ v.enums → s.AsksType known (r.enumBacking id) (.union v)
  objects : ∀ a ∈ u.objects, ∀ b ∈ v.objects, s.AsksObject r known a b

lemma asks_union (asks : s.AsksUnion r known u v) : s.Asks known (fun i => subtypeUnions r (s.below i) s.lax u v)
      (s.sure.UnionFits r u v) (s.possible.UnionFits r u v) := by
  have primitives : s.Asks known (fun _ => pure (v.primitives.contains u.primitives))
      (v.primitives.contains u.primitives = true) (v.primitives.contains u.primitives = true) :=
    .pure _ id (by simp)
  have vars : s.Asks known (fun _ => pure (u.vars.all v.vars.contains))
      (u.vars.all v.vars.contains = true) (u.vars.all v.vars.contains = true) :=
    .pure _ id (by simp)
  have enums : s.Asks known (fun i => u.enums.allM fun id =>
      if v.enums.contains id then pure true
      else (s.below i).subtype s.lax (r.enumBacking id) (.union v)) _ _ :=
    .all fun id mem => .unless fun absent => asks.enums id mem (by simpa using absent)
  have objects : s.Asks known (fun i => u.objects.allM fun a =>
      v.objects.anyM fun b => objectSubtype r (s.below i) s.lax a b) _ _ :=
    .all fun a memberA => .any fun b memberB => asks_object (asks.objects a memberA b memberB)
  have asked := primitives.andThen (vars.andThen (enums.andThen objects))
  simp only [pure_bind] at asked
  refine asked.mono ?_ ?_
  · rintro ⟨primitives,vars,enums,objects⟩
    exact ⟨primitives,vars,enums,objects⟩
  · rintro ⟨primitives,vars,enums,objects⟩
    exact ⟨primitives,vars,enums,objects⟩

lemma asks_step (asks : ∀ u v, a = .union u → b = .union v → s.AsksUnion r known u v) :
    s.Asks known (fun i => subtypeStep r (s.below i) s.lax a b)
      (s.sure.TypeFits r a b) (s.possible.TypeFits r a b) := by
  cases a with
  | bottom => exact .pure true (fun _ => trivial) (by simp)
  | unknown => cases b <;> exact .pure true (fun _ => trivial) (by simp)
  | top =>
    cases b with
    | top | unknown => exact .pure true (fun _ => trivial) (by simp)
    | bottom | union => exact .pure false (by simp) fun _ held => held
  | union u =>
    cases b with
    | top | unknown => exact .pure true (fun _ => trivial) (by simp)
    | bottom => exact .pure false (by simp) fun _ held => held
    | union v => exact asks_union (asks u v rfl rfl)

end Unions

variable (s) in
/-- Every question can be asked one level below, and the table is used as it is meant. -/
structure Total (r : Registry) : Prop where
  types : ∀ a b, s.AsksType [] a b
  joins : ∀ a b, s.lifting.Holds (fun t => s.sure.joins a b t ∧ ∀ other, s.possible.joins a b other → other = t)
    fun i => (s.below i).join a b
  hit : ∀ src tgt, s.trusted (src.id,tgt.id) → s.sure.resembles src tgt
  unfolds : ∀ src tgt, r.upcast src tgt.id = none → (r.nominal tgt.id).kind = .record → s.possible.resembles src tgt →
    s.possible.FieldsFit (r.instanceFields src) false (r.instanceFields tgt) false

lemma Total.asksType (total : s.Total r) (a b : Ty) : s.AsksType known a b := (total.types a b).weaken (nil_subset _)

lemma Total.asksField (total : s.Total r) (src : List Field) (wanted : Field) : s.AsksField known src wanted := by
  intro found _
  unfold Expected
  cases wanted.optional with
  | false => exact s.lifting.value ⟨rfl,fun _ eq => eq,total.asksType _ _⟩
  | true =>
    refine s.lifting.mono (total.joins wanted.type .undefined) fun type held => ?_
    exact ⟨held.1,held.2,total.asksType _ _⟩

lemma Total.asksBoth (total : s.Total r) (left right : List Ty) : s.AsksBoth known left right :=
  fun a _ b _ => ⟨total.asksType a b,total.asksType b a⟩

lemma Total.asksInstance (total : s.Total r) (known : Assumptions) (src tgt : Instance) :
    s.AsksInstance r known src tgt := by
  unfold AsksInstance
  split
  · exact fun pair _ => total.asksType _ _
  · rename_i unreached
    intro record
    exact asks_guarded (total.hit src tgt) (total.unfolds src tgt unreached record)
      fun _ wanted _ => total.asksField _ wanted

lemma Total.asksObject (total : s.Total r) (known : Assumptions) (a b : Obj) : s.AsksObject r known a b := by
  unfold AsksObject
  split
  · exact total.asksInstance _ _ _
  · exact total.asksBoth _ _
  · exact fun _ _ _ => total.asksBoth _ _
  · exact fun wanted _ => total.asksField _ wanted
  · exact fun wanted _ => total.asksField _ wanted
  · exact fun wanted _ => total.asksField _ wanted
  · trivial

lemma Total.asks_step (total : s.Total r) (known : Assumptions) (a b : Ty) :
    s.Asks known (fun i => subtypeStep r (s.below i) s.lax a b) (s.sure.TypeFits r a b) (s.possible.TypeFits r a b) :=
  Survey.asks_step fun _ _ _ _ =>
    ⟨fun _ _ _ => total.asksType _ _,fun a _ b _ => total.asksObject known a b⟩

end Survey
end GradualJs
