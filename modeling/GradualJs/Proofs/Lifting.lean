import Mathlib.Data.List.Basic
import Mathlib.Tactic.Common

/-! A computation is asked at several levels of nesting. What is said of its result is
lifted to the family of its runs: that every run which ends gives such a result, that a
deeper run gives the same result, or that all runs from some level on give one. -/
namespace GradualJs

open Option

/-- A property of results, lifted to families of computations. -/
structure Lifting (I : Type) (m : Type → Type) [Monad m] where
  Holds : {α : Type} → (α → Prop) → (I → m α) → Prop
  value : ∀ {α : Type} {p : α → Prop} {a : α}, p a → Holds p fun _ => pure a
  sequence : ∀ {α β : Type} {p : α → Prop} {q : β → Prop} {x : I → m α} {f : I → α → m β},
    Holds p x → (∀ a, p a → Holds q fun i => f i a) → Holds q fun i => x i >>= f i

namespace Lifting

def runs : Lifting Unit Option where
  Holds p x := ∀ a, x () = some a → p a
  value := by
    intro α p a good b eq
    cases eq
    exact good
  sequence := by
    intro α β p q x f first next b ended
    obtain ⟨a,atFirst,atNext⟩ := bind_eq_some_iff.mp ended
    exact next a (first a atFirst) b atNext

/-- Whatever the first run answers, the second answers too. -/
def keeps : Lifting Bool Option where
  Holds p x := ∀ a, x false = some a → x true = some a ∧ p a
  value := by
    intro α p a good b eq
    cases eq
    exact ⟨rfl,good⟩
  sequence := by
    intro α β p q x f first next b ended
    obtain ⟨a,atFirst,atNext⟩ := bind_eq_some_iff.mp ended
    obtain ⟨again,good⟩ := first a atFirst
    obtain ⟨last,res⟩ := next a good b atNext
    exact ⟨bind_eq_some_iff.mpr ⟨a,again,last⟩,res⟩

/-- From some level on all runs give the same result, and it has the property. -/
def settles : Lifting Nat Option where
  Holds p x := ∃ a, p a ∧ ∃ level, ∀ deeper, level ≤ deeper → x deeper = some a
  value := by
    intro α p a good
    exact ⟨a,good,0,fun _ _ => rfl⟩
  sequence := by
    intro α β p q x f first next
    obtain ⟨a,good,level,reached⟩ := first
    obtain ⟨b,res,further,ended⟩ := next a good
    refine ⟨b,res,max level further,?_⟩
    intro deeper beyond
    refine bind_eq_some_iff.mpr ⟨a,reached deeper ?_,ended deeper ?_⟩
    · exact Nat.le_trans (Nat.le_max_left _ _) beyond
    · exact Nat.le_trans (Nat.le_max_right _ _) beyond

def plain : Lifting Unit Id where
  Holds p x := p (x ())
  value good := good
  sequence first next := next _ first

variable {I : Type} {m : Type → Type} [Monad m] (L : Lifting I m) {α β : Type}

section Lawful

lemma cons {q : β → Prop} (head : L.Holds q y) (tail : L.Holds (fun results => ∀ b ∈ results, q b) rest) :
    L.Holds (fun results => ∀ b ∈ results, q b) fun i => do return (← y i) :: (← rest i) :=
  L.sequence head fun _ good => L.sequence tail fun _ goods =>
    L.value (List.forall_mem_cons.mpr ⟨good,goods⟩)

variable [LawfulMonad m]
variable {x : I → m α} {f : I → α → m Bool} {list : List α} {q : β → Prop}

lemma mono {q : α → Prop} (held : L.Holds p x) (weaker : ∀ a, p a → q a) : L.Holds q x := by
  have ended := L.sequence (f := fun _ a => pure a) held fun a good => L.value (weaker a good)
  simpa using ended

lemma map {f : α → β} (held : L.Holds p x) (maps : ∀ a, p a → q (f a)) : L.Holds q fun i => f <$> x i := by
  have ended := L.sequence (f := fun _ a => pure (f a)) held fun a good => L.value (maps a good)
  simpa only [bind_pure_comp] using ended

lemma mapM {f : I → α → m β} (each : ∀ a ∈ list, L.Holds q fun i => f i a) :
    L.Holds (fun results => ∀ b ∈ results, q b) fun i => list.mapM (f i) := by
  induction list with
  | nil =>
    simp only [List.mapM_nil]
    exact L.value (by simp)
  | cons a rest ih =>
    simp only [List.mapM_cons]
    exact L.cons (each a (by simp)) (ih fun c mem => each c (by simp [mem]))

lemma filterMapM {f : I → α → m (Option β)}
    (each : ∀ a ∈ list, L.Holds (fun found => ∀ b ∈ found, q b) fun i => f i a) :
    L.Holds (fun results => ∀ b ∈ results, q b) fun i => list.filterMapM (f i) := by
  induction list with
  | nil =>
    simp only [List.filterMapM_nil]
    exact L.value (by simp)
  | cons a rest ih =>
    simp only [List.filterMapM_cons]
    have others := ih fun c mem => each c (by simp [mem])
    refine L.sequence (each a (by simp)) fun found good => ?_
    cases found with
    | none => exact others
    | some b =>
      refine L.sequence others fun results goods => ?_
      exact L.value (List.forall_mem_cons.mpr ⟨good b rfl,goods⟩)

/-- What is kept was answered with yes, and what is not kept with no. -/
lemma filterAuxM {q : α → Bool → Prop} (each : ∀ a ∈ list, L.Holds (q a) fun i => f i a) :
    L.Holds (fun results => ∃ chosen : List α, results = chosen.reverse ++ kept ∧ chosen.Sublist list ∧
      (∀ a ∈ chosen, q a true) ∧ ∀ a ∈ list, a ∈ chosen ∨ q a false) fun i => list.filterAuxM (f i) kept := by
  induction list generalizing kept with
  | nil =>
    simp only [List.filterAuxM]
    exact L.value ⟨[],rfl,.slnil,by simp⟩
  | cons a rest ih =>
    simp only [List.filterAuxM]
    obtain ⟨first,others⟩ := List.forall_mem_cons.mp each
    refine L.sequence first fun yes good => L.mono (ih others) ?_
    rintro results ⟨chosen,rfl,sublist,held,left⟩
    cases yes with
    | true =>
      refine ⟨a :: chosen,by simp,sublist.cons_cons a,List.forall_mem_cons.mpr ⟨good,held⟩,?_⟩
      exact List.forall_mem_cons.mpr ⟨.inl (by simp),fun b mem => (left b mem).imp_left (List.mem_cons_of_mem a)⟩
    | false => exact ⟨chosen,rfl,sublist.cons a,held,List.forall_mem_cons.mpr ⟨.inr good,left⟩⟩

lemma filterM {q : α → Bool → Prop} (each : ∀ a ∈ list, L.Holds (q a) fun i => f i a) :
    L.Holds (fun results => results.Sublist list ∧ (∀ a ∈ results, q a true) ∧
      ∀ a ∈ list, a ∈ results ∨ q a false) fun i => list.filterM (f i) := by
  unfold List.filterM
  refine L.sequence (L.filterAuxM each) ?_
  rintro results ⟨chosen,rfl,kept⟩
  exact L.value (by simpa using kept)

end Lawful

lemma forM {f : I → α → m PUnit} {list : List α} (each : ∀ a ∈ list, L.Holds (fun _ => True) fun i => f i a) :
    L.Holds (fun _ => True) fun i => list.forM (f i) := by
  induction list with
  | nil => exact L.value trivial
  | cons a rest ih =>
    exact L.sequence (each a (by simp)) fun _ _ => ih fun b mem => each b (by simp [mem])

lemma foldlM {f : I → β → α → m β} {list : List α} (initial : inv start)
    (step : ∀ a ∈ list, ∀ b, inv b → L.Holds inv fun i => f i b a) :
    L.Holds inv fun i => list.foldlM (f i) start := by
  induction list generalizing start with
  | nil =>
    simp only [List.foldlM_nil]
    exact L.value initial
  | cons a rest ih =>
    simp only [List.foldlM_cons]
    refine L.sequence (step a (by simp) start initial) fun next kept => ?_
    exact ih kept fun c mem => step c (by simp [mem])

section State

variable {σ : Type}

/-- Results of computations with a state, where the state keeps an invariant. -/
def keeping (inv : σ → Prop) : Lifting I (StateT σ m) where
  Holds p x := ∀ s, inv s → L.Holds (fun res => p res.1 ∧ inv res.2) fun i => (x i).run s
  value := by
    intro α p a good s kept
    simp only [StateT.run_pure]
    exact L.value ⟨good,kept⟩
  sequence := by
    intro α β p q x f first next s kept
    simp only [StateT.run_bind]
    exact L.sequence (first s kept) fun res held => next res.1 held.1 res.2 held.2

variable {L}

lemma keeping_get : (L.keeping inv).Holds inv fun _ => (get : StateT σ m σ) := by
  intro s kept
  simp only [StateT.run_get]
  exact L.value ⟨kept,kept⟩

lemma keeping_modify (keeps : ∀ s, inv s → inv (f s)) :
    (L.keeping inv).Holds (fun _ => True) fun _ => (modify f : StateT σ m PUnit) := by
  intro s kept
  simp only [StateT.run_modify]
  exact L.value ⟨trivial,keeps s kept⟩

end State

section Except

variable {ε : Type}

/-- Results of computations that may fail with an error. -/
def failing : Lifting I (ExceptT ε m) where
  Holds p x := L.Holds (fun res => ∀ a, res = .ok a → p a) fun i => (x i).run
  value := by
    intro α p a good
    simp only [ExceptT.run_pure]
    exact L.value fun b eq => by cases eq; exact good
  sequence := by
    intro α β p q x f first next
    simp only [ExceptT.run_bind]
    refine L.sequence first fun res held => ?_
    cases res with
    | ok a => exact next a (held a rfl)
    | error e => exact L.value nofun

variable {L}

lemma failing_lift [LawfulMonad m] (held : L.Holds p x) :
    L.failing.Holds p fun i => (ExceptT.lift (x i) : ExceptT ε m α) := by
  have lifted : L.Holds (fun res : Except ε α => ∀ a, res = .ok a → p a) fun i => Except.ok <$> x i :=
    L.map held fun a good b eq => by cases eq; exact good
  exact lifted

end Except

end Lifting

lemma run_bind_iff {σ α β : Type} {x : StateT σ Option α} {f : α → StateT σ Option β}
    {s after : σ} {b : β} : (x >>= f).run s = some (b,after) ↔
      ∃ a mid, x.run s = some (a,mid) ∧ (f a).run mid = some (b,after) := by
  simp [StateT.run_bind,bind_eq_bind,bind_eq_some_iff,Prod.exists]

end GradualJs
