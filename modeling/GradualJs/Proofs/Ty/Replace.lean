import GradualJs.Proofs.Lifting
import GradualJs.Proofs.Table
import GradualJs.Proofs.Ty.Weight
import GradualJs.Ty.Substitute

/-! What replacing variables keeps. A property of types is kept if it is kept part by part; it may
depend on the place at which a part stands. -/
namespace GradualJs

/-- Properties of types and objects, before and after variables are replaced, that go from the whole
to the parts and back. -/
structure Replacing {I : Type} {m : Type → Type} [Monad m] (L : Lifting I m) (merger : I → Merger m) (σ : Type) where
  before : σ → Ty → Prop
  after : σ → Ty → Prop
  beforeObject : σ → Obj → Prop
  afterObject : σ → Obj → Prop
  put : Substitution → Prop
  filtered {mapping : Substitution} (keep : String → Bool) : put mapping → put (mapping.filterKeys keep)
  bottom {s : σ} : before s .bottom → after s .bottom
  top {s : σ} : before s .top → after s .top
  unknown {s : σ} : before s .unknown → after s .unknown
  inUnion : σ → σ
  objects {s : σ} {u : Union} : before s (.union u) → ∀ o ∈ u.objects, beforeObject (inUnion s) o
  plain {s : σ} {u : Union} {mapping : Substitution} : put mapping → before s (.union u) →
    L.Holds (after s) fun i => (u.vars.filterMap mapping.get?).foldlM (merger i).join
      (.ofUnion {u with vars := u.vars.filter (!mapping.contains ·), objects := []})
  joined {s : σ} {start : Ty} {objects : List Obj} : after s start →
    (∀ o ∈ objects, afterObject (inUnion s) o) → L.Holds (after s) fun i => do
      (merger i).join start (.ofUnion {objects := ← (merger i).normalize objects})
  inInstance : NominalId → σ → σ
  args {s : σ} {i : Instance} : beforeObject s (.nominal i) → ∀ t ∈ i.args, before (inInstance i.id s) t
  nominal {s : σ} {i : Instance} {args : List Ty} : beforeObject s (.nominal i) →
    (∀ t ∈ args, after (inInstance i.id s) t) → afterObject s (.nominal ⟨i.id,args⟩)
  inRecord : σ → σ
  fields {s : σ} {r : Record} : beforeObject s (.record r) → ∀ f ∈ r.fields, before (inRecord s) f.type
  record {s : σ} {r : Record} {fields : List Field} : beforeObject s (.record r) →
    (∀ f ∈ fields, after (inRecord s) f.type) → afterObject s (.record {r with fields})
  inFunction : σ → σ
  types {s : σ} {f : FunctionType} : beforeObject s (.function f) → ∀ t ∈ f.types, before (inFunction s) t
  function {s : σ} {f : FunctionType} : (∀ t ∈ f.types, after (inFunction s) t) → afterObject s (.function f)
  space {s : σ} {id : NamespaceId} : beforeObject s (.namespaceValue id) → afterObject s (.namespaceValue id)

namespace Replacing

variable {I : Type} {m : Type → Type} [Monad m] [LawfulMonad m] {L : Lifting I m}
  {merger : I → Merger m} {σ : Type} (R : Replacing L merger σ)

set_option linter.unusedSectionVars false in
mutual
lemma substitute (put : R.put mapping) : (t : Ty) → R.before s t →
    L.Holds (R.after s) fun i => (merger i).substitute mapping t
  | .bottom, held => L.value (R.bottom held)
  | .top, held => L.value (R.top held)
  | .unknown, held => L.value (R.unknown held)
  | .union u, held => substituteUnion put u held
lemma substituteUnion (put : R.put mapping) : (u : Union) →
    R.before s (.union u) → L.Holds (R.after s) fun i => (merger i).substituteUnion mapping u
  | ⟨primitives,enums,vars,objects⟩, held => by
    refine L.sequence (R.plain put held) fun start goodStart => ?_
    refine L.sequence (substituteObjects put objects (R.objects held)) fun replaced good => ?_
    by_cases empty : replaced.isEmpty
    · simp only [empty,if_true]
      exact L.value goodStart
    · simp only [empty]
      exact R.joined goodStart good
lemma substituteObjects (put : R.put mapping) : (objects : List Obj) → (∀ o ∈ objects, R.beforeObject s o) →
      L.Holds (fun replaced => ∀ o ∈ replaced, R.afterObject s o) fun i => (merger i).substituteObjects mapping objects
  | [], _ => L.value (by simp)
  | o :: rest, held => by
    obtain ⟨first,others⟩ := List.forall_mem_cons.mp held
    exact L.cons (substituteObject put o first) (substituteObjects put rest others)
lemma substituteObject (put : R.put mapping) : (o : Obj) →
    R.beforeObject s o → L.Holds (R.afterObject s) fun i => (merger i).substituteObject mapping o
  | .nominal ⟨_,args⟩, held => by
    refine L.map (p := fun replaced => R.afterObject s (.nominal replaced)) ?_ fun _ => id
    exact L.sequence (substituteList put args (R.args held)) fun _ good => L.value (R.nominal held good)
  | .record ⟨fields,exact',loose⟩, held => by
    refine L.map (p := fun replaced => R.afterObject s (.record replaced)) ?_ fun _ => id
    exact L.sequence (substituteFields put fields (R.fields held)) fun _ good =>
      L.value (R.record held good)
  | .function ⟨required,optional,rest,returnType,recv,constructs,typeParams,loose⟩, held => by
    refine L.map (p := fun replaced => R.afterObject s (.function replaced)) ?_ fun _ => id
    have parts := R.types held
    simp only [FunctionType.mem_types,or_imp,forall_and,forall_eq] at parts
    obtain ⟨inRequired,inOptional,inRest,inReturn,inReceiver,inConstructs⟩ := parts
    have free := R.filtered (!typeParams.contains ·) put
    refine L.sequence (substituteList free required inRequired) fun _ h1 => ?_
    refine L.sequence (substituteList free optional inOptional) fun _ h2 => ?_
    refine L.sequence (substituteOption free rest inRest) fun _ h3 => ?_
    refine L.sequence (substitute free returnType inReturn) fun _ h4 => ?_
    refine L.sequence (substituteOption free recv inReceiver) fun _ h5 => ?_
    refine L.sequence (substituteOption free constructs inConstructs) fun _ h6 => ?_
    refine L.value (R.function ?_)
    simp only [FunctionType.mem_types,or_imp,forall_and,forall_eq]
    exact ⟨h1,h2,h3,h4,h5,h6⟩
  | .namespaceValue _, held => L.value (R.space held)
lemma substituteFields (put : R.put mapping) : (fields : List Field) → (∀ f ∈ fields, R.before s f.type) →
      L.Holds (fun replaced => ∀ f ∈ replaced, R.after s f.type) fun i => (merger i).substituteFields mapping fields
  | [], _ => L.value (by simp)
  | ⟨_,type,_,_,_⟩ :: rest, held => by
    obtain ⟨first,others⟩ := List.forall_mem_cons.mp held
    refine L.cons (q := fun f : Field => R.after s f.type) ?_ (substituteFields put rest others)
    exact L.sequence (substitute put type first) fun _ good => L.value good
lemma substituteList (put : R.put mapping) : (types : List Ty) →
    (∀ t ∈ types, R.before s t) → L.Holds (fun replaced => ∀ t ∈ replaced, R.after s t)
      fun i => (merger i).substituteList mapping types
  | [], _ => L.value (by simp)
  | t :: rest, held => by
    obtain ⟨first,others⟩ := List.forall_mem_cons.mp held
    exact L.cons (substitute put t first) (substituteList put rest others)
lemma substituteOption (put : R.put mapping) : (type : Option Ty) → (∀ t, type = some t → R.before s t) →
      L.Holds (fun replaced => ∀ t, replaced = some t → R.after s t) fun i => (merger i).substituteOption mapping type
  | none, _ => L.value (by simp)
  | some t, held => L.map (substitute put t (held t rfl)) fun _ good => by simpa using good
end

end Replacing
end GradualJs
