/-! Sets of primitive values. A boolean is one of two values, so that conditions can
tell them apart; numbers and strings are not divided further. -/
namespace GradualJs

structure PrimitiveSet where
  null : Bool := false
  undefined : Bool := false
  trueValue : Bool := false
  falseValue : Bool := false
  number : Bool := false
  string : Bool := false
  deriving DecidableEq, Inhabited

namespace PrimitiveSet

def empty : PrimitiveSet := {}
def nullOnly : PrimitiveSet := {null := true}
def undefinedOnly : PrimitiveSet := {undefined := true}
def trueOnly : PrimitiveSet := {trueValue := true}
def falseOnly : PrimitiveSet := {falseValue := true}
def boolean : PrimitiveSet := {trueValue := true, falseValue := true}
def numberOnly : PrimitiveSet := {number := true}
def stringOnly : PrimitiveSet := {string := true}
def nullOrUndefined : PrimitiveSet := {null := true, undefined := true}
def all : PrimitiveSet := ⟨true,true,true,true,true,true⟩
def tags : List PrimitiveSet := [nullOnly,undefinedOnly,trueOnly,falseOnly,numberOnly,stringOnly]

def zipWith (f : Bool → Bool → Bool) (a b : PrimitiveSet) : PrimitiveSet where
  null := f a.null b.null
  undefined := f a.undefined b.undefined
  trueValue := f a.trueValue b.trueValue
  falseValue := f a.falseValue b.falseValue
  number := f a.number b.number
  string := f a.string b.string

def union (a b : PrimitiveSet) : PrimitiveSet := zipWith or a b
def inter (a b : PrimitiveSet) : PrimitiveSet := zipWith and a b
def without (a b : PrimitiveSet) : PrimitiveSet := zipWith (fun x y => x && !y) a b
def isEmpty (a : PrimitiveSet) : Bool := a = empty
def contains (a b : PrimitiveSet) : Bool := a.inter b = b
def intersects (a b : PrimitiveSet) : Bool := !(a.inter b).isEmpty

def bits (a : PrimitiveSet) : Nat :=
  a.null.toNat + 2 * a.undefined.toNat + 4 * a.trueValue.toNat + 8 * a.falseValue.toNat +
    16 * a.number.toNat + 32 * a.string.toNat

/-- Bits that stand for no value are ignored. -/
def ofBits (bits : Nat) : PrimitiveSet where
  null := bits.testBit 0
  undefined := bits.testBit 1
  trueValue := bits.testBit 2
  falseValue := bits.testBit 3
  number := bits.testBit 4
  string := bits.testBit 5

theorem zipWith_self (f : Bool → Bool → Bool) (same : ∀ x, f x x = x) (a : PrimitiveSet) : zipWith f a a = a := by
  simp [zipWith,same]

@[simp] theorem contains_self (a : PrimitiveSet) : a.contains a = true := by
  simp [contains,inter,zipWith_self]

theorem contains_trans {a b c : PrimitiveSet} (first : a.contains b) (second : b.contains c) : a.contains c := by
  have assoc (a b c : PrimitiveSet) : a.inter (b.inter c) = (a.inter b).inter c := by
    simp [inter,zipWith,Bool.and_assoc]
  simp only [contains,decide_eq_true_eq] at first second ⊢
  rw [← second,assoc,first]

@[simp] theorem contains_union_left (a b : PrimitiveSet) : (a.union b).contains a = true := by
  have absorbed (x y : Bool) : ((x || y) && x) = x := by cases x <;> simp
  simp [contains,union,inter,zipWith,absorbed]

@[simp] theorem contains_union_right (a b : PrimitiveSet) : (a.union b).contains b = true := by
  have absorbed (x y : Bool) : ((x || y) && y) = y := by cases y <;> simp
  simp [contains,union,inter,zipWith,absorbed]

end PrimitiveSet
end GradualJs
