import GradualJs.Ty.Shape
import Mathlib.Tactic.Common

/-! Weights of types. A type weighs as much as the heaviest chain of things nested in it, where
declared things count as much as a registry needs them to. -/
namespace GradualJs

structure Weights where
  nominal : NominalId → Nat := fun _ => 0
  space : NamespaceId → Nat := fun _ => 0
  union : Nat := 0
  record : Nat := 0
  function : Nat := 0

namespace FunctionType

variable (f : FunctionType)

def types : List Ty :=
  f.required ++ f.optional ++ f.rest.toList ++ f.returnType :: (f.receiver.toList ++ f.constructs.toList)

lemma mem_types {f : FunctionType} : type ∈ f.types ↔
    type ∈ f.required ∨ type ∈ f.optional ∨ f.rest = some type ∨ type = f.returnType ∨
      f.receiver = some type ∨ f.constructs = some type := by
  simp [types]

lemma returnType_mem : f.returnType ∈ f.types := by simp [types]

lemma rest_subset : f.rest.toList ⊆ f.types := by
  intro type mem
  exact mem_types.mpr (.inr (.inr (.inl (by simpa using mem))))

lemma receiver_subset : f.receiver.toList ⊆ f.types := by
  intro type mem
  exact mem_types.mpr (.inr (.inr (.inr (.inr (.inl (by simpa using mem))))))

lemma constructs_subset : f.constructs.toList ⊆ f.types := by
  intro type mem
  exact mem_types.mpr (.inr (.inr (.inr (.inr (.inr (by simpa using mem))))))

lemma param_subset (index : Nat) : (f.param index).toList ⊆ f.types := by
  unfold param
  cases positional : f.positional[index]? with
  | none => exact f.rest_subset
  | some type =>
    have mem : type ∈ f.required ++ f.optional := List.mem_of_getElem? positional
    intro other eq
    rw [List.mem_singleton.mp eq]
    rcases List.mem_append.mp mem with required | optional
    · exact mem_types.mpr (.inl required)
    · exact mem_types.mpr (.inr (.inl optional))

end FunctionType

namespace Weights

mutual
def weigh (w : Weights) : Ty → Nat
  | .bottom | .top | .unknown => 0
  | .union u => weighUnion w u
def weighUnion (w : Weights) : Union → Nat
  | ⟨_,_,_,objects⟩ => weighObjects w objects
def weighObjects (w : Weights) : List Obj → Nat
  | [] => 0
  | o :: rest => max (w.union + weighObject w o) (weighObjects w rest)
def weighObject (w : Weights) : Obj → Nat
  | .nominal i => weighInstance w i
  | .record r => weighRecord w r
  | .function f => weighFunction w f
  | .namespaceValue id => w.space id
def weighInstance (w : Weights) : Instance → Nat
  | ⟨id,args⟩ => w.nominal id + weighList w args
def weighRecord (w : Weights) : Record → Nat
  | ⟨fields,_,_⟩ => weighFields w fields
def weighFields (w : Weights) : List Field → Nat
  | [] => 0
  | f :: rest => max (w.record + weighField w f) (weighFields w rest)
def weighField (w : Weights) : Field → Nat
  | ⟨_,type,_,_,_⟩ => weigh w type
def weighFunction (w : Weights) : FunctionType → Nat
  | ⟨required,optional,rest,returnType,recv,constructs,_,_⟩ =>
    w.function + max (max (weighList w required) (weighList w optional))
      (max (max (weighOption w rest) (weigh w returnType)) (max (weighOption w recv) (weighOption w constructs)))
def weighList (w : Weights) : List Ty → Nat
  | [] => 0
  | t :: rest => max (weigh w t) (weighList w rest)
def weighOption (w : Weights) : Option Ty → Nat
  | none => 0
  | some t => weigh w t
end

variable (w : Weights)

lemma weighObjects_le : w.weighObjects objects ≤ bound ↔ ∀ o ∈ objects, w.union + w.weighObject o ≤ bound := by
  induction objects with
  | nil => simp [weighObjects]
  | cons o rest ih => simp [weighObjects,Nat.max_le,ih]

lemma weigh_union_le {u : Union} : w.weigh (.union u) ≤ bound ↔ ∀ o ∈ u.objects, w.union + w.weighObject o ≤ bound := by
  cases u
  simp [weigh,weighUnion,weighObjects_le]

lemma weighList_le : w.weighList types ≤ bound ↔ ∀ t ∈ types, w.weigh t ≤ bound := by
  induction types with
  | nil => simp [weighList]
  | cons t rest ih => simp [weighList,Nat.max_le,ih]

lemma weighOption_le : w.weighOption type ≤ bound ↔ ∀ t, type = some t → w.weigh t ≤ bound := by
  cases type <;> simp [weighOption]

lemma weighFields_le : w.weighFields fields ≤ bound ↔ ∀ f ∈ fields, w.record + w.weigh f.type ≤ bound := by
  induction fields with
  | nil => simp [weighFields]
  | cons f rest ih =>
    cases f
    simp [weighFields,weighField,Nat.max_le,ih]

lemma weighRecord_le {r : Record} : w.weighRecord r ≤ bound ↔ ∀ f ∈ r.fields, w.record + w.weigh f.type ≤ bound := by
  cases r
  simp [weighRecord,weighFields_le]

/-- A bound on the heaviest of several things together with what is spent around them. -/
lemma add_le_iff {α : Type} {list : List α} {part : α → Nat} (own bound : Nat)
    (heavy : ∀ bound, heaviest ≤ bound ↔ ∀ a ∈ list, part a ≤ bound) :
    own + heaviest ≤ bound ↔ own ≤ bound ∧ ∀ a ∈ list, own + part a ≤ bound := by
  constructor
  · intro light
    refine ⟨by omega,fun a mem => ?_⟩
    have := (heavy heaviest).mp (Nat.le_refl _) a mem
    omega
  · rintro ⟨small,light⟩
    have : heaviest ≤ bound - own := by
      refine (heavy _).mpr fun a mem => ?_
      have := light a mem
      omega
    omega

lemma weighInstance_eq (i : Instance) : w.weighInstance i = w.nominal i.id + w.weighList i.args := by
  cases i
  rfl

lemma weighInstance_le {i : Instance} : w.weighInstance i ≤ bound ↔
      w.nominal i.id ≤ bound ∧ ∀ a ∈ i.args, w.nominal i.id + w.weigh a ≤ bound := by
  rw [weighInstance_eq]
  exact add_le_iff _ _ fun _ => w.weighList_le

lemma weighFunction_le {f : FunctionType} :
    w.weighFunction f ≤ bound ↔ ∀ t ∈ f.types, w.function + w.weigh t ≤ bound := by
  have parts : w.weighFunction f ≤ bound ↔ w.function ≤ bound ∧ ∀ t ∈ f.types, w.function + w.weigh t ≤ bound := by
    cases f
    refine add_le_iff _ _ fun bound => ?_
    simp [FunctionType.mem_types,Nat.max_le,weighList_le,weighOption_le,or_imp,forall_and]
  rw [parts]
  refine ⟨And.right,fun light => ⟨?_,light⟩⟩
  have := light f.returnType f.returnType_mem
  omega

end Weights
end GradualJs
