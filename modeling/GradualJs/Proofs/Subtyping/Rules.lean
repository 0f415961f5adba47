import GradualJs.Lattice.Basic
import Mathlib.Tactic.Lemma

/-! The rules of subtyping as relations, with no table of assumptions. A rule leads one
level down: what it says of two types depends on what is said of their parts. -/
namespace GradualJs

variable {q : Premises} {src : List Field}

/-- An instance is compared with a record type by its properties. -/
structure Registry.Structural (r : Registry) (src tgt : Instance) : Prop where
  unreached : r.upcast src tgt.id = none
  record : (r.nominal tgt.id).kind = .record
  notObject : tgt.id ≠ .object

instance (r : Registry) (src tgt : Instance) : Decidable (r.Structural src tgt) :=
  decidable_of_iff (_ ∧ _ ∧ _) ⟨fun ⟨a,b,c⟩ => ⟨a,b,c⟩,fun ⟨a,b,c⟩ => ⟨a,b,c⟩⟩

structure Premises where
  /-- Parameters of functions may be related in either direction. -/
  lax : Bool
  joins : Ty → Ty → Ty → Prop
  fits : Ty → Ty → Prop
  /-- Whether an instance has the properties of a record type that it does not inherit. -/
  resembles : Instance → Instance → Prop

namespace Premises

variable (p : Premises)

/-- The type a property is compared with; an optional one may be undefined. -/
def Expected (wanted : Field) (type : Ty) : Prop :=
  if wanted.optional then p.joins wanted.type .undefined type else type = wanted.type

def FieldFits (src : List Field) (sourceLoose targetLoose : Bool) (wanted : Field) : Prop :=
  match Field.find? src wanted.name with
  | some found => (found.optional → wanted.optional) ∧ ∃ type, p.Expected wanted type ∧ p.fits found.type type
  | none => wanted.optional ∨ sourceLoose ∨ targetLoose

def FieldsFit (src : List Field) (sourceLoose : Bool) (tgt : List Field) (targetLoose : Bool) : Prop :=
  ∀ wanted ∈ tgt, p.FieldFits src sourceLoose targetLoose wanted

def InstanceFits (r : Registry) (src tgt : Instance) : Prop :=
  match r.upcast src tgt.id with
  | some viewed => ∀ pair ∈ padArgs viewed.args tgt.args, p.fits pair.1 pair.2
  | none => (r.nominal tgt.id).kind = .record ∧ p.resembles src tgt

def ParamFits (sub sup : Ty) : Prop := p.fits sup sub ∨ p.lax ∧ p.fits sub sup

def OptionalParamFits : Option Ty → Option Ty → Prop
  | some sub, some sup => p.ParamFits sub sup
  | _, _ => True

def ConstructsFit : Option Ty → Option Ty → Prop
  | some a, some b => p.fits a b
  | none, none => True
  | _, _ => False

structure PlainFunctionFits (f g : FunctionType) : Prop where
  constructs : p.ConstructsFit f.constructs g.constructs
  arity : Relations.arityFits f g
  params : ∀ index < max f.positionalLength g.positionalLength, p.OptionalParamFits (f.param index) (g.param index)
  rest : p.OptionalParamFits f.rest g.rest
  receiver : p.OptionalParamFits f.receiver g.receiver
  returnType : p.fits f.returnType g.returnType

def FunctionFits (f g : FunctionType) : Prop :=
  (f.loose || g.loose) ∨ p.PlainFunctionFits f.eraseTypeParams g.eraseTypeParams

def StructuralToNominal (r : Registry) (src : Obj) (tgt : Instance) : Prop :=
  p.FieldsFit (r.fieldsOf src).1 (r.fieldsOf src).2 (r.instanceFields tgt) false

def ObjectFits (r : Registry) : Obj → Obj → Prop
  | .nominal src, .nominal tgt => tgt.id = .object ∨ p.InstanceFits r src tgt
  | .function _, .nominal tgt => tgt.id = .object ∨ tgt.id = .function
  | .namespaceValue id, .nominal tgt => tgt.id = .object ∨
      if tgt.id = .function then r.isConstructorNamespace id = true
      else p.StructuralToNominal r (.namespaceValue id) tgt
  | .record record, .nominal tgt => tgt.id = .object ∨
      ((r.nominal tgt.id).kind = .record || record.loose) ∧ p.StructuralToNominal r (.record record) tgt
  | .nominal src, .function tgt => src.id = .function ∧ tgt.loose
  | .function f, .function g => p.FunctionFits f g
  | .namespaceValue id, .function tgt =>
    match r.constructorOf id with
    | some (_,constructor) => tgt.loose ∨ p.FunctionFits constructor tgt
    | none => False
  | .namespaceValue x, .namespaceValue y => x = y
  | src, .record tgt =>
    p.FieldsFit (r.fieldsOf src).1 (r.fieldsOf src).2 tgt.fields tgt.loose
  | _, _ => False

structure UnionFits (r : Registry) (u v : Union) : Prop where
  primitives : v.primitives.contains u.primitives
  vars : u.vars.all v.vars.contains
  enums : ∀ id ∈ u.enums, v.enums.contains id ∨ p.fits (r.enumBacking id) (.union v)
  objects : ∀ a ∈ u.objects, ∃ b ∈ v.objects, p.ObjectFits r a b

def TypeFits (r : Registry) : Ty → Ty → Prop
  | .bottom, _ | _, .top | _, .unknown | .unknown, _ => True
  | .top, _ | _, .bottom => False
  | .union u, .union v => p.UnionFits r u v

lemma typeFits_object {p : Premises} : p.TypeFits r (.object x) (.object y) ↔ p.ObjectFits r x y := by
  refine ⟨fun held => ?_,fun held => ?_⟩
  · obtain ⟨z,mem,fits⟩ := held.objects x (by simp)
    rwa [List.mem_singleton.mp mem] at fits
  · refine ⟨by simp [PrimitiveSet.contains,PrimitiveSet.inter,PrimitiveSet.zipWith],by simp,by simp, fun z mem => ?_⟩
    rw [List.mem_singleton.mp mem]
    exact ⟨y,by simp,held⟩

lemma FieldFits.mono {p : Premises} (joins : ∀ a b t, p.joins a b t → q.joins a b t)
    (fits : ∀ a b, p.fits a b → q.fits a b) (held : p.FieldFits src sourceLoose targetLoose wanted) :
    q.FieldFits src sourceLoose targetLoose wanted := by
  unfold FieldFits at held ⊢
  split
  · rename_i found eq
    rw [eq] at held
    obtain ⟨allowed,type,expects,fitting⟩ := held
    refine ⟨allowed,type,?_,fits _ _ fitting⟩
    unfold Expected at expects ⊢
    split
    · rename_i optional
      rw [if_pos optional] at expects
      exact joins _ _ _ expects
    · rename_i optional
      rwa [if_neg optional] at expects
  · rename_i eq
    rwa [eq] at held

lemma FieldsFit.mono {p : Premises}
    (joins : ∀ a b t, p.joins a b t → q.joins a b t) (fits : ∀ a b, p.fits a b → q.fits a b)
    (held : p.FieldsFit src sourceLoose tgt targetLoose) :
    q.FieldsFit src sourceLoose tgt targetLoose :=
  fun wanted mem => (held wanted mem).mono joins fits

/-- The rules use no more of the premises than where `q` follows from `p`. -/
structure Implies (r : Registry) (p q : Premises) : Prop where
  lax : p.lax = true → q.lax = true
  joins : ∀ a b t, p.joins a b t → q.joins a b t
  fits : ∀ a b, p.fits a b → q.fits a b
  resembles : ∀ src tgt, r.Structural src tgt → p.resembles src tgt → q.resembles src tgt

section Monotone

variable {p} {q : Premises} {r : Registry} (implies : Implies r p q)
include implies

lemma Implies.paramFits (held : p.ParamFits sub sup) : q.ParamFits sub sup := by
  rcases held with swapped | ⟨lax,straight⟩
  · exact .inl (implies.fits _ _ swapped)
  · exact .inr ⟨implies.lax lax,implies.fits _ _ straight⟩

lemma Implies.optionalParamFits (held : p.OptionalParamFits sub sup) : q.OptionalParamFits sub sup := by
  cases sub with
  | none => trivial
  | some a =>
    cases sup with
    | none => trivial
    | some b => exact implies.paramFits held

lemma Implies.constructsFit (held : p.ConstructsFit a b) : q.ConstructsFit a b := by
  cases a with
  | none => cases b <;> exact held
  | some s =>
    cases b with
    | none => exact held
    | some t => exact implies.fits _ _ held

lemma Implies.functionFits (held : p.FunctionFits f g) : q.FunctionFits f g := by
  rcases held with loose | plain
  · exact .inl loose
  · refine .inr ⟨implies.constructsFit plain.constructs,plain.arity,?_,
      implies.optionalParamFits plain.rest,implies.optionalParamFits plain.receiver,
      implies.fits _ _ plain.returnType⟩
    exact fun index bound => implies.optionalParamFits (plain.params index bound)

lemma Implies.instanceFits {src tgt : Instance} (notObject : tgt.id ≠ .object)
    (held : p.InstanceFits r src tgt) : q.InstanceFits r src tgt := by
  unfold InstanceFits at held ⊢
  split
  · rename_i viewed eq
    rw [eq] at held
    exact fun pair mem => implies.fits _ _ (held pair mem)
  · rename_i unreached
    rw [unreached] at held
    exact ⟨held.1,implies.resembles _ _ ⟨unreached,held.1,notObject⟩ held.2⟩

lemma Implies.objectFits (held : p.ObjectFits r a b) : q.ObjectFits r a b := by
  cases b with
  | nominal tgt =>
    cases a with
    | nominal src =>
      by_cases object : tgt.id = .object
      · exact .inl object
      · exact .inr (implies.instanceFits object (held.resolve_left object))
    | record record => exact held.imp_right fun fits => ⟨fits.1,fits.2.mono implies.joins implies.fits⟩
    | function f => exact held
    | namespaceValue id =>
      refine held.imp_right fun fits => ?_
      split
      · rename_i function
        rwa [if_pos function] at fits
      · rename_i function
        rw [if_neg function] at fits
        exact fits.mono implies.joins implies.fits
  | record tgt => cases a <;> exact held.mono implies.joins implies.fits
  | function g =>
    cases a with
    | nominal src | record record => exact held
    | function f => exact implies.functionFits held
    | namespaceValue id =>
      simp only [ObjectFits] at held ⊢
      cases constructor : r.constructorOf id with
      | none => simp [constructor] at held
      | some found =>
        rw [constructor] at held
        exact held.imp_right implies.functionFits
  | namespaceValue id => cases a <;> exact held

lemma Implies.typeFits (held : p.TypeFits r a b) : q.TypeFits r a b := by
  cases a with
  | bottom => trivial
  | top => cases b <;> exact held
  | unknown => cases b <;> trivial
  | union u =>
    cases b with
    | bottom => exact held
    | top | unknown => trivial
    | union v =>
      refine ⟨held.primitives,held.vars,fun id mem => ?_,fun a mem => ?_⟩
      · exact (held.enums id mem).imp_right (implies.fits _ _)
      · obtain ⟨b,inV,fits⟩ := held.objects a mem
        exact ⟨b,inV,implies.objectFits fits⟩

end Monotone

end Premises
end GradualJs
