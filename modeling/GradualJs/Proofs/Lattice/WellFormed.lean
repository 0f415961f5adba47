import GradualJs.Proofs.Lattice.Invariant
import Mathlib.Data.String.Basic

/-! Types in normal form. A union is well formed if it has members, if these are in order and each
occurs once, and if all types inside it are well formed. Every operation of a lattice gives well
formed types. -/
namespace GradualJs

open List

section Sorting

variable {α β : Type} [LinearOrder β] {key : α → β} {notAfter : α → α → Bool}
  (compares : ∀ a b, notAfter a b = true ↔ key a ≤ key b) (injective : key.Injective)
include compares

lemma pairwise_key_stableSort (list : List α) : (stableSort notAfter list).Pairwise (key · ≤ key ·) := by
  have total (a b : α) (after : notAfter a b = false) : notAfter b a = true := by
    refine (compares b a).mpr (le_of_lt (not_le.mp fun pre => ?_))
    exact Bool.false_ne_true (after.symm.trans ((compares a b).mpr pre))
  have trans (a b c : α) (first : notAfter a b = true) (second : notAfter b c = true) : notAfter a c = true :=
    (compares a c).mpr (((compares a b).mp first).trans ((compares b c).mp second))
  exact (pairwise_stableSort total trans list).imp fun {a b} => (compares a b).mp

include injective

lemma increasing_stableSort {list : List α} (distinct : list.Nodup) :
    (stableSort notAfter list).Pairwise (key · < key ·) := by
  have nodup : (stableSort notAfter list).Nodup := (stableSort_perm notAfter list).nodup_iff.mpr distinct
  exact ((pairwise_key_stableSort compares list).and nodup).imp fun ⟨pre,differ⟩ =>
    lt_of_le_of_ne pre (injective.ne differ)

omit compares in
lemma increasing_dropAdjacent [DecidableEq α] {list : List α}
    (sorted : list.Pairwise (key · ≤ key ·)) : (dropAdjacent list).Pairwise (key · < key ·) := by
  fun_induction dropAdjacent list with
  | case1 => exact .nil
  | case2 a => exact pairwise_singleton _ _
  | case3 b rest ih => exact ih (pairwise_cons.mp sorted).2
  | case4 a b rest differ ih =>
    obtain ⟨first,others⟩ := pairwise_cons.mp sorted
    refine pairwise_cons.mpr ⟨fun c mem => ?_,ih others⟩
    have next : key a < key b := lt_of_le_of_ne (first b mem_cons_self) (injective.ne differ)
    rcases mem_cons.mp ((mem_dropAdjacent _).mp mem) with rfl | inRest
    · exact next
    · exact next.trans_le ((pairwise_cons.mp others).1 c inRest)

lemma increasing_mergeSorted [DecidableEq α] (left right : List α) :
    (mergeSorted notAfter left right).Pairwise (key · < key ·) :=
  increasing_dropAdjacent injective (pairwise_key_stableSort compares _)

end Sorting

instance (objects : List Obj) : Decidable (Obj.Increasing objects) := inferInstanceAs (Decidable (Pairwise _ _))

mutual
def Ty.wellFormed : Ty → Bool
  | .bottom | .top | .unknown => true
  | .union u => u.wellFormed
def Union.wellFormed : Union → Bool
  | ⟨primitives,enums,vars,objects⟩ =>
    !Union.isEmpty ⟨primitives,enums,vars,objects⟩ && enums.Pairwise (·.index < ·.index) &&
      vars.Pairwise (· < ·) && Obj.Increasing objects && Obj.allWellFormed objects
def Obj.allWellFormed : List Obj → Bool
  | [] => true
  | o :: rest => o.wellFormed && Obj.allWellFormed rest
def Obj.wellFormed : Obj → Bool
  | .nominal i => i.wellFormed
  | .record r => r.wellFormed
  | .function f => f.wellFormed
  | .namespaceValue _ => true
def Instance.wellFormed : Instance → Bool
  | ⟨_,args⟩ => Ty.allWellFormed args
def Record.wellFormed : Record → Bool
  | ⟨fields,_,_⟩ => Field.allWellFormed fields
def Field.allWellFormed : List Field → Bool
  | [] => true
  | f :: rest => f.wellFormed && Field.allWellFormed rest
def Field.wellFormed : Field → Bool
  | ⟨_,type,_,_,_⟩ => type.wellFormed
def FunctionType.wellFormed : FunctionType → Bool
  | ⟨required,optional,rest,returnType,recv,constructs,_,_⟩ =>
    Ty.allWellFormed required && Ty.allWellFormed optional && Ty.optionWellFormed rest &&
      returnType.wellFormed && Ty.optionWellFormed recv && Ty.optionWellFormed constructs
def Ty.allWellFormed : List Ty → Bool
  | [] => true
  | t :: rest => t.wellFormed && Ty.allWellFormed rest
def Ty.optionWellFormed : Option Ty → Bool
  | none => true
  | some t => t.wellFormed
end

lemma Obj.allWellFormed_iff : Obj.allWellFormed objects ↔ ∀ o ∈ objects, o.wellFormed := by
  induction objects with
  | nil => simp [Obj.allWellFormed]
  | cons o rest ih => simp [Obj.allWellFormed,ih]

lemma Ty.allWellFormed_iff : Ty.allWellFormed types ↔ ∀ t ∈ types, t.wellFormed := by
  induction types with
  | nil => simp [Ty.allWellFormed]
  | cons t rest ih => simp [Ty.allWellFormed,ih]

lemma Ty.optionWellFormed_iff : Ty.optionWellFormed type ↔ ∀ t, type = some t → t.wellFormed := by
  cases type <;> simp [Ty.optionWellFormed]

lemma Field.allWellFormed_iff : Field.allWellFormed fields ↔ ∀ f ∈ fields, f.type.wellFormed := by
  induction fields with
  | nil => simp [Field.allWellFormed]
  | cons f rest ih =>
    cases f
    simp [Field.allWellFormed,Field.wellFormed,ih]

lemma Ty.wellFormed_union {u : Union} : (Ty.union u).wellFormed ↔ u.isEmpty = false ∧
    u.enums.Pairwise (·.index < ·.index) ∧ u.vars.Pairwise (· < ·) ∧ Obj.Increasing u.objects ∧
      ∀ o ∈ u.objects, o.wellFormed := by
  cases u
  simp [Ty.wellFormed,Union.wellFormed,Obj.allWellFormed_iff,and_assoc]

lemma Ty.wellFormed_ofUnion {u : Union} (enums : u.enums.Pairwise (·.index < ·.index))
    (vars : u.vars.Pairwise (· < ·)) (order : Obj.Increasing u.objects)
    (parts : ∀ o ∈ u.objects, o.wellFormed) : (Ty.ofUnion u).wellFormed := by
  unfold Ty.ofUnion
  split
  · rfl
  · rename_i filled
    exact wellFormed_union.mpr ⟨Bool.not_eq_true _ ▸ filled,enums,vars,order,parts⟩

lemma Instance.wellFormed_iff {i : Instance} : i.wellFormed ↔ ∀ t ∈ i.args, t.wellFormed := by
  cases i
  exact Ty.allWellFormed_iff

lemma Record.wellFormed_iff {r : Record} : r.wellFormed ↔ ∀ f ∈ r.fields, f.type.wellFormed := by
  cases r
  exact Field.allWellFormed_iff

lemma FunctionType.wellFormed_iff {f : FunctionType} : f.wellFormed ↔ ∀ t ∈ f.types, t.wellFormed := by
  cases f
  simp only [FunctionType.wellFormed,FunctionType.mem_types,Bool.and_eq_true,Ty.allWellFormed_iff,
    Ty.optionWellFormed_iff,or_imp,forall_and,forall_eq,and_assoc]

namespace EnumId

lemma index_injective : Function.Injective EnumId.index := by
  rintro ⟨x⟩ ⟨y⟩ rfl
  rfl

lemma increasing_sorted {left right : List EnumId} (sortedL : left.Pairwise (·.index < ·.index))
    (sortedR : right.Pairwise (·.index < ·.index)) (apart : ∀ id ∈ left, id ∉ right) :
    (stableSort (fun a b => a.index ≤ b.index) (left ++ right)).Pairwise (·.index < ·.index) := by
  have nodup {list : List EnumId} (sorted : list.Pairwise (·.index < ·.index)) : list.Nodup :=
    sorted.imp fun less eq => Nat.ne_of_lt less (congrArg index eq)
  refine increasing_stableSort (by simp) index_injective
    (nodup_append.mpr ⟨nodup sortedL,nodup sortedR,fun a inLeft b inRight eq => ?_⟩)
  exact apart a inLeft (eq ▸ inRight)

end EnumId

/-- Being well formed is a property of the parts of a type. -/
def Invariant.wellFormed : Invariant where
  type t := t.wellFormed
  object o := o.wellFormed
  enums list := list.Pairwise (·.index < ·.index)
  vars names := names.Pairwise (· < ·)
  order := Obj.Increasing
  bottom := rfl
  top := rfl
  unknown := rfl
  union good := (Ty.wellFormed_union.mp good).2
  ofUnion := Ty.wellFormed_ofUnion
  nominal := by simp [Obj.wellFormed,Instance.wellFormed_iff]
  record := by simp [Obj.wellFormed,Record.wellFormed_iff]
  function := by simp [Obj.wellFormed,FunctionType.wellFormed_iff]
  space := rfl
  enums_nil := .nil
  enums_sublist sub sorted := sorted.sublist sub
  enums_sorted := EnumId.increasing_sorted
  enums_merged _ _ := increasing_mergeSorted (by simp) EnumId.index_injective _ _
  vars_nil := .nil
  vars_sublist sub sorted := sorted.sublist sub
  vars_merged _ _ := increasing_mergeSorted (by simp) Function.injective_id _ _
  order_increasing held := held
  order_sublist sub sorted := Pairwise.sublist sub sorted

def Nominal.types (n : Nominal) : List Ty :=
  n.supertypes.flatMap (·.args) ++ n.properties.values.map (·.type) ++ n.constructor.toList.flatMap (·.types)

def Member.types : Member → List Ty
  | .value decl => [decl.type]
  | .inner _ | .typedef _ => []

def Signature.types (s : Signature) : List Ty :=
  s.params.filterMap (·.type) ++ s.returnType.toList ++ s.receiver.toList ++ s.constructs.toList

def Registry.types (r : Registry) : List Ty :=
  r.nominals.flatMap (·.types) ++ r.namespaces.flatMap (·.members.values.flatMap (·.types)) ++
    r.enums.map (·.backing) ++ r.typedefs.filterMap (·.resolved) ++
    r.functions.values.flatMap (·.signature.types)

def Registry.wellFormed (r : Registry) : Bool := r.types.all (·.wellFormed)

lemma Registry.headers_wellFormed {r : Registry} (stored : r.wellFormed) : Invariant.wellFormed.Headers r := by
  intro id parent mem
  refine Instance.wellFormed_iff.mpr fun t inArgs => ?_
  have declared : r.nominal id ∈ r.nominals := by
    unfold Registry.nominal at mem ⊢
    cases found : r.nominals[id.index]? with
    | none =>
      rw [found] at mem
      cases mem
    | some n => exact mem_of_getElem? found
  refine all_eq_true.mp stored t ?_
  have held : t ∈ (r.nominal id).types := by
    simp only [Nominal.types,mem_append,mem_flatMap]
    exact .inl (.inl ⟨parent,mem,inArgs⟩)
  simp only [Registry.types,mem_append,mem_flatMap]
  exact .inl (.inl (.inl (.inl ⟨_,declared,held⟩)))

namespace Lattice

open Invariant

/-- Whatever a lattice over well formed declarations makes of well formed types is well formed. -/
theorem wellFormed_operations {l : Lattice} (stored : l.registry.wellFormed) {a b : Ty}
    (wellA : a.wellFormed) (wellB : b.wellFormed) {f : FunctionType} (wellF : f.wellFormed)
    {mapping : Substitution} (values : ∀ t ∈ mapping.values, t.wellFormed) :
    (∀ t, l.join a b = some t → t.wellFormed) ∧ (∀ t, l.meet a b = some t → t.wellFormed) ∧
      (∀ t, l.specialize a b = some t → t.wellFormed) ∧ (∀ t, l.exclude a b = some t → t.wellFormed) ∧
      a.truthy.wellFormed ∧ (l.falsy a).wellFormed ∧
      (∀ tag positive t, l.narrowTypeof tag positive a = some t → t.wellFormed) ∧
      a.withoutNullOrUndefined.wellFormed ∧ (∀ t, l.substitute mapping a = some t → t.wellFormed) ∧
      ∀ g, l.instantiate f mapping = some g → g.wellFormed := by
  have headers := Registry.headers_wellFormed stored
  have typeA : Invariant.wellFormed.type a := wellA
  have typeB : Invariant.wellFormed.type b := wellB
  refine ⟨fun t => headers.join typeA typeB,fun t => headers.meet typeA typeB,
    headers.specialize typeA b typeB,fun t => Invariant.exclude typeA,truthy typeA,
    Invariant.falsy typeA,fun tag positive t => headers.narrowTypeof typeA,
    withoutNullOrUndefined typeA,fun t => headers.substitute values typeA,fun g ended => ?_⟩
  have function : Invariant.wellFormed.object (.function f) := wellF
  exact headers.instantiate values function ended

/-- Two classes below one generic class, with arguments of their own. -/
def hierarchy : Registry where
  nominals := Registry.initial.nominals ++ [
    {name := "Base", kind := .classType, typeParams := ["T"]},
    {name := "Left", kind := .classType, superclass := some ⟨⟨3⟩,[.number]⟩},
    {name := "Right", kind := .classType, superclass := some ⟨⟨3⟩,[.var "T"]⟩, typeParams := ["T"]}]

theorem wellFormed_operations_hierarchy : let l : Lattice := {registry := hierarchy, depth := 8}
    let a : Ty := .union {primitives := .nullOnly, vars := ["S"], objects := [.nominal ⟨⟨4⟩,[]⟩]}
    let b : Ty := .nominal ⟨5⟩ [.string]
    let f : FunctionType := {required := [.var "S"], returnType := b, typeParams := ["S"]}
    let mapping : Substitution := .ofList [("S",b)]
    l.registry.wellFormed ∧ a.wellFormed ∧ b.wellFormed ∧ f.wellFormed ∧ (∀ t ∈ mapping.values, t.wellFormed) ∧
      (∃ t, l.join a b = some t ∧ t.wellFormed) ∧
      (∃ t, l.substitute mapping a = some t ∧ t.wellFormed) ∧
      ∃ g, l.instantiate f mapping = some g ∧ g.wellFormed := by
  intro l a b f mapping
  have stored : l.registry.wellFormed := by decide
  have wellA : a.wellFormed := by decide
  have wellB : b.wellFormed := by decide
  have wellF : f.wellFormed := by decide
  have values : ∀ t ∈ mapping.values, t.wellFormed := by decide
  have kept := wellFormed_operations stored wellA wellB wellF values
  have joins : (l.join a b).isSome := by decide
  have substitutes : (l.substitute mapping a).isSome := by decide
  have instantiates : (l.instantiate f mapping).isSome := by decide
  obtain ⟨joined,join⟩ := Option.isSome_iff_exists.mp joins
  obtain ⟨replaced,substitute⟩ := Option.isSome_iff_exists.mp substitutes
  obtain ⟨applied,instantiate⟩ := Option.isSome_iff_exists.mp instantiates
  exact ⟨stored,wellA,wellB,wellF,values,⟨joined,join,kept.1 joined join⟩,
    ⟨replaced,substitute,kept.2.2.2.2.2.2.2.2.1 replaced substitute⟩,
    ⟨applied,instantiate,kept.2.2.2.2.2.2.2.2.2 applied instantiate⟩⟩

end Lattice
end GradualJs
