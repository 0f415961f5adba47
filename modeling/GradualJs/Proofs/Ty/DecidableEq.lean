import GradualJs.Ty.Basic
import Mathlib.Logic.Basic

/-! Equality of types is decidable. Unlike `Ty.same` it minds the order of properties. -/
namespace GradualJs

namespace Ty

mutual
def decEq : (a b : Ty) → Decidable (a = b)
  | .bottom, .bottom | .top, .top | .unknown, .unknown => isTrue rfl
  | .union u, .union v =>
    let _ := decEqUnion u v
    decidable_of_iff (u = v) (by simp)
  | .bottom, .top | .bottom, .unknown | .bottom, .union _ | .top, .bottom | .top, .unknown
  | .top, .union _ | .unknown, .bottom | .unknown, .top | .unknown, .union _
  | .union _, .bottom | .union _, .top | .union _, .unknown => isFalse (by simp)
def decEqUnion : (u v : Union) → Decidable (u = v)
  | ⟨primitives,enums,vars,objects⟩, ⟨primitives',enums',vars',objects'⟩ =>
    let _ := decEqObjects objects objects'
    decidable_of_iff (primitives = primitives' ∧ enums = enums' ∧ vars = vars' ∧ objects = objects') (by simp)
def decEqObjects : (xs ys : List Obj) → Decidable (xs = ys)
  | [], [] => isTrue rfl
  | [], _ :: _ | _ :: _, [] => isFalse (by simp)
  | x :: xs, y :: ys =>
    let _ := decEqObject x y
    let _ := decEqObjects xs ys
    decidable_of_iff (x = y ∧ xs = ys) (by simp)
def decEqObject : (x y : Obj) → Decidable (x = y)
  | .nominal i, .nominal j =>
    let _ := decEqInstance i j
    decidable_of_iff (i = j) (by simp)
  | .record r, .record s =>
    let _ := decEqRecord r s
    decidable_of_iff (r = s) (by simp)
  | .function f, .function g =>
    let _ := decEqFunction f g
    decidable_of_iff (f = g) (by simp)
  | .namespaceValue m, .namespaceValue n => decidable_of_iff (m = n) (by simp)
  | .nominal _, .record _ | .nominal _, .function _ | .nominal _, .namespaceValue _
  | .record _, .nominal _ | .record _, .function _ | .record _, .namespaceValue _
  | .function _, .nominal _ | .function _, .record _ | .function _, .namespaceValue _
  | .namespaceValue _, .nominal _ | .namespaceValue _, .record _
  | .namespaceValue _, .function _ => isFalse (by simp)
def decEqInstance : (i j : Instance) → Decidable (i = j)
  | ⟨id,args⟩, ⟨id',args'⟩ =>
    let _ := decEqList args args'
    decidable_of_iff (id = id' ∧ args = args') (by simp)
def decEqRecord : (r s : Record) → Decidable (r = s)
  | ⟨fields,exact,loose⟩, ⟨fields',exact',loose'⟩ =>
    let _ := decEqFields fields fields'
    decidable_of_iff (fields = fields' ∧ exact = exact' ∧ loose = loose') (by simp)
def decEqFields : (xs ys : List Field) → Decidable (xs = ys)
  | [], [] => isTrue rfl
  | [], _ :: _ | _ :: _, [] => isFalse (by simp)
  | x :: xs, y :: ys =>
    let _ := decEqField x y
    let _ := decEqFields xs ys
    decidable_of_iff (x = y ∧ xs = ys) (by simp)
def decEqField : (f g : Field) → Decidable (f = g)
  | ⟨name,type,optional,declared,constant⟩, ⟨name',type',optional',declared',constant'⟩ =>
    let _ := decEq type type'
    decidable_of_iff (name = name' ∧ type = type' ∧ optional = optional' ∧ declared = declared' ∧
      constant = constant') (by simp)
def decEqFunction : (f g : FunctionType) → Decidable (f = g)
  | ⟨required,optional,rest,returnType,recv,constructs,typeParams,loose⟩,
    ⟨required',optional',rest',returnType',recv',constructs',typeParams',loose'⟩ =>
    let _ := decEqList required required'
    let _ := decEqList optional optional'
    let _ := decEqOption rest rest'
    let _ := decEq returnType returnType'
    let _ := decEqOption recv recv'
    let _ := decEqOption constructs constructs'
    decidable_of_iff (required = required' ∧ optional = optional' ∧ rest = rest' ∧
      returnType = returnType' ∧ recv = recv' ∧ constructs = constructs' ∧
      typeParams = typeParams' ∧ loose = loose') (by simp)
def decEqList : (xs ys : List Ty) → Decidable (xs = ys)
  | [], [] => isTrue rfl
  | [], _ :: _ | _ :: _, [] => isFalse (by simp)
  | x :: xs, y :: ys =>
    let _ := decEq x y
    let _ := decEqList xs ys
    decidable_of_iff (x = y ∧ xs = ys) (by simp)
def decEqOption : (x y : Option Ty) → Decidable (x = y)
  | none, none => isTrue rfl
  | none, some _ | some _, none => isFalse (by simp)
  | some a, some b =>
    let _ := decEq a b
    decidable_of_iff (a = b) (by simp)
end

end Ty

instance : DecidableEq Ty := Ty.decEq
instance : DecidableEq Obj := Ty.decEqObject
instance : DecidableEq Instance := Ty.decEqInstance
instance : DecidableEq Field := Ty.decEqField
instance : DecidableEq FunctionType := Ty.decEqFunction

end GradualJs
