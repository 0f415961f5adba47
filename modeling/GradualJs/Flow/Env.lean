import GradualJs.Lattice.Basic

/-! What is known at one point of a program: the types of locals, and the refined types of
property paths that start at a local or at `this`. A dead environment belongs to code that
cannot be reached; the code is still followed, but the environment vanishes in joins. -/
namespace GradualJs

structure Env where
  values : Table String Ty := {}
  live : Bool := true

namespace Env

instance : Inhabited Env := ⟨{}⟩

def dead : Env := {live := false}
def get? (e : Env) (path : String) : Option Ty := e.values.get? path
def kill (e : Env) : Env := {e with live := false}
def revive (e : Env) : Env := {e with live := true}

/-- Narrows a path and leaves the paths below it as they are. -/
def refine (e : Env) (path : String) (type : Ty) : Env := {e with values := e.values.insert path type}

/-- Gives a path a new value; what was known below it is forgotten. -/
def set (e : Env) (path : String) (type : Ty) : Env :=
  {e with values := (e.values.filterKeys (!Name.isBelow path ·)).insert path type}

/-- The entries of one side, joined with the other side. A property path that the other
side does not know is dropped. -/
def joinEntries (l : Lattice) (other : Table String Ty) : List (String × Ty) → Option (List (String × Ty))
  | [] => some []
  | (key,type) :: rest => do
    let joined ← joinEntries l other rest
    match other.get? key with
    | some otherType => return (key,← l.join type otherType) :: joined
    | none => return if Name.isDotted key then joined else (key,type) :: joined

def unmatched (values other : Table String Ty) : List (String × Ty) :=
  other.entries.filter fun (key,_) => !Name.isDotted key && !values.contains key

def join (l : Lattice) (e other : Env) : Option Env :=
  match e.live, other.live with
  | _, false => some e
  | false, true => some other
  | true, true => do
    let joined ← joinEntries l other.values e.values.entries
    return {values := ⟨joined ++ unmatched e.values other.values⟩}

def joinAll (l : Lattice) (start : Env) (envs : List Env) : Option Env := envs.foldlM (join l) start
def same (e other : Env) : Bool := e.live == other.live && e.values.sameEntries Ty.same other.values

/-- What cannot be reached says nothing about what comes after a merge. -/
theorem join_of_not_live (l : Lattice) (e : Env) {other : Env} (unreachable : other.live = false) :
    join l e other = some e := by
  unfold join
  split <;> simp_all

theorem join_of_live (l : Lattice) {e other : Env} (unreachable : e.live = false)
    (reachable : other.live = true) : join l e other = some other := by
  simp [join,unreachable,reachable]

@[simp] theorem live_refine (e : Env) (path : String) (type : Ty) : (e.refine path type).live = e.live := rfl

@[simp] theorem get?_set_self (e : Env) (path : String) (type : Ty) : (e.set path type).get? path = some type :=
  Table.get?_insert_self _ path type

@[simp] theorem get?_refine_self (e : Env) (path : String) (type : Ty) : (e.refine path type).get? path = some type :=
  Table.get?_insert_self _ path type

end Env
end GradualJs
