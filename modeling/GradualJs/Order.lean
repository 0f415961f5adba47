/-! Sorting by insertion: elements that compare equal keep their order. -/
namespace GradualJs

/-- Puts an element before the first one that it does not have to follow. -/
def insertSorted (notAfter : α → α → Bool) (a : α) : List α → List α
  | [] => [a]
  | b :: rest => if notAfter a b then a :: b :: rest else b :: insertSorted notAfter a rest

def stableSort (notAfter : α → α → Bool) : List α → List α
  | [] => []
  | a :: rest => insertSorted notAfter a (stableSort notAfter rest)

theorem insertSorted_perm (notAfter : α → α → Bool) (a : α) (list : List α) :
    (insertSorted notAfter a list).Perm (a :: list) := by
  induction list with
  | nil => exact .refl _
  | cons b rest ih =>
    by_cases before : notAfter a b
    · simp [insertSorted,before]
    · simpa [insertSorted,before] using (ih.cons b).trans (.swap a b rest)

theorem stableSort_perm (notAfter : α → α → Bool) (list : List α) : (stableSort notAfter list).Perm list := by
  induction list with
  | nil => exact .refl _
  | cons a rest ih => exact (insertSorted_perm notAfter a _).trans (ih.cons a)

@[simp] theorem mem_stableSort {notAfter : α → α → Bool} {a : α} {list : List α} :
    a ∈ stableSort notAfter list ↔ a ∈ list :=
  (stableSort_perm notAfter list).mem_iff

@[simp] theorem length_stableSort (notAfter : α → α → Bool) (list : List α) :
    (stableSort notAfter list).length = list.length :=
  (stableSort_perm notAfter list).length_eq

def dropAdjacent [DecidableEq α] : List α → List α
  | [] => []
  | [a] => [a]
  | a :: b :: rest => if a = b then dropAdjacent (b :: rest) else a :: dropAdjacent (b :: rest)

def mergeSorted [DecidableEq α] (notAfter : α → α → Bool) (left right : List α) : List α :=
  dropAdjacent (stableSort notAfter (left ++ right))

end GradualJs
