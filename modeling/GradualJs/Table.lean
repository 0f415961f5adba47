/-! Finite tables that remember the order in which keys arrived. Writing to a key
that is present changes its value and keeps its place. -/
namespace GradualJs

structure Table (κ : Type) (α : Type) where
  entries : List (κ × α) := []

namespace Table

variable {κ α β : Type}

instance : Inhabited (Table κ α) := ⟨⟨[]⟩⟩

def empty : Table κ α := ⟨[]⟩
def keys (t : Table κ α) : List κ := t.entries.map (·.1)
def values (t : Table κ α) : List α := t.entries.map (·.2)
def size (t : Table κ α) : Nat := t.entries.length
def isEmpty (t : Table κ α) : Bool := t.entries.isEmpty
def filterKeys (keep : κ → Bool) (t : Table κ α) : Table κ α := ⟨t.entries.filter fun entry => keep entry.1⟩

variable [DecidableEq κ]

def lookup (key : κ) : List (κ × α) → Option α
  | [] => none
  | (found,value) :: rest => if found = key then some value else lookup key rest

def get? (t : Table κ α) (key : κ) : Option α := lookup key t.entries
def contains (t : Table κ α) (key : κ) : Bool := (t.get? key).isSome

def put (key : κ) (value : α) : List (κ × α) → List (κ × α)
  | [] => [(key,value)]
  | (found,old) :: rest =>
    if found = key then (found,value) :: rest else (found,old) :: put key value rest

def insert (t : Table κ α) (key : κ) (value : α) : Table κ α := ⟨put key value t.entries⟩

def insertNew (t : Table κ α) (key : κ) (value : α) : Table κ α :=
  if t.contains key then t else t.insert key value

def erase (t : Table κ α) (key : κ) : Table κ α := t.filterKeys (· ≠ key)

/-- Later pairs override earlier ones. -/
def ofList (pairs : List (κ × α)) : Table κ α := pairs.foldl (fun t pair => t.insert pair.1 pair.2) empty

/-- The same keys with the same values; the order of arrival is not compared. -/
def sameEntries (same : α → α → Bool) (t u : Table κ α) : Bool :=
  t.size == u.size && t.entries.all fun entry =>
    match u.get? entry.1 with
    | some other => same entry.2 other
    | none => false

theorem lookup_put (key other : κ) (value : α) (entries : List (κ × α)) : lookup other (put key value entries) =
      if key = other then some value else lookup other entries := by
  induction entries with
  | nil => simp [put,lookup]
  | cons entry rest ih =>
    obtain ⟨found,old⟩ := entry
    by_cases same : found = key
    · subst same
      by_cases wanted : found = other <;> simp [put,lookup,wanted]
    · by_cases wanted : found = other
      · subst wanted
        simp [put,lookup,same,Ne.symm same]
      · simp [put,lookup,same,wanted,ih]

theorem get?_insert (t : Table κ α) (key other : κ) (value : α) :
    (t.insert key value).get? other = if key = other then some value else t.get? other :=
  lookup_put key other value t.entries

@[simp] theorem get?_insert_self (t : Table κ α) (key : κ) (value : α) :
    (t.insert key value).get? key = some value := by
  simp [get?_insert]

theorem get?_insert_of_ne (t : Table κ α) {key other : κ} (value : α) (different : key ≠ other) :
    (t.insert key value).get? other = t.get? other := by
  simp [get?_insert,different]

theorem lookup_filter (keep : κ → Bool) (key : κ) (entries : List (κ × α)) :
    lookup key (entries.filter fun entry => keep entry.1) =
      if keep key then lookup key entries else none := by
  induction entries with
  | nil => simp [lookup]
  | cons entry rest ih =>
    obtain ⟨found,value⟩ := entry
    by_cases same : found = key
    · subst same
      by_cases kept : keep found <;> simp [lookup,kept,ih]
    · by_cases kept : keep found <;> simp [lookup,kept,same,ih]

theorem get?_filterKeys (t : Table κ α) (keep : κ → Bool) (key : κ) :
    (t.filterKeys keep).get? key = if keep key then t.get? key else none :=
  lookup_filter keep key t.entries

theorem keys_put (key : κ) (value : α) (entries : List (κ × α)) : (put key value entries).map (·.1) =
      if (lookup key entries).isSome then entries.map (·.1) else entries.map (·.1) ++ [key] := by
  induction entries with
  | nil => simp [put,lookup]
  | cons entry rest ih =>
    obtain ⟨found,old⟩ := entry
    by_cases same : found = key
    · simp [put,lookup,same]
    · by_cases present : (lookup key rest).isSome <;> simp [put,lookup,same,ih,present]

/-- A new key comes last; a key that is present keeps its place. -/
theorem keys_insert (t : Table κ α) (key : κ) (value : α) :
    (t.insert key value).keys = if t.contains key then t.keys else t.keys ++ [key] :=
  keys_put key value t.entries

end Table
end GradualJs
