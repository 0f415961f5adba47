import GradualJs.Proofs.Lattice.Depth
import Mathlib.Order.WellFounded

/-! Recursion. A question is settled by way of further questions, and which ones depends on
the answers to those before. It is settled at some depth exactly if it does not lead from
question to question without end. -/
namespace GradualJs

open Relations
open Option (bind_eq_some_iff isSome_iff_exists)

inductive Question where
  | subtype (lax : Bool) (a b : Ty) (assumed : Assumptions)
  | join (a b : Ty)
  | meet (lax : Bool) (a b : Ty)

def Relations.Answers (level : Relations) : Question → Prop
  | .subtype lax a b assumed => ((level.subtype lax a b).run assumed).isSome
  | .join a b => (level.join a b).isSome
  | .meet lax a b => (level.meet lax a b).isSome

namespace Registry

variable (r : Registry)

def Settled (q : Question) : Prop := ∃ depth, (within r depth).Answers q

/-- The answers contradict none that is found at some depth. -/
structure Compatible (level : Relations) : Prop where
  subtype : ∀ depth lax a b assumed ans other, ((within r depth).subtype lax a b).run assumed = some ans →
    (level.subtype lax a b).run assumed = some other → other = ans
  join : ∀ depth a b t other, (within r depth).join a b = some t → level.join a b = some other → other = t
  meet : ∀ depth lax a b t other, (within r depth).meet lax a b = some t → level.meet lax a b = some other → other = t

/-- However the questions below are answered, the first one has an answer only if the second
one has. -/
def Needs (q further : Question) : Prop :=
  ∀ below, r.Compatible below → (step r fun _ => below).Answers q → below.Answers further

/-- The question leads from one to the next without end. -/
def Endless (q : Question) : Prop := ∃ chain : Nat → Question, chain 0 = q ∧ ∀ n, r.Needs (chain n) (chain (n + 1))

variable {r}

lemma compatible_within (depth : Nat) : r.Compatible (within r depth) := by
  have meeting (depth' : Nat) := And.intro (within_extends r (Nat.le_max_left depth' depth))
    (within_extends r (Nat.le_max_right depth' depth))
  refine ⟨fun depth' lax a b assumed ans other ended ended' => ?_,
    fun depth' a b t other ended ended' => ?_,fun depth' lax a b t other ended ended' => ?_⟩
  · have reached := ((meeting depth').1.subtype _ _ _ _ _ ended).1
    have reached' := ((meeting depth').2.subtype _ _ _ _ _ ended').1
    exact Option.some.inj (reached'.symm.trans reached)
  · have reached := (meeting depth').1.join _ _ _ ended
    have reached' := (meeting depth').2.join _ _ _ ended'
    exact Option.some.inj (reached'.symm.trans reached)
  · have reached := (meeting depth').1.meet _ _ _ _ ended
    have reached' := (meeting depth').2.meet _ _ _ _ ended'
    exact Option.some.inj (reached'.symm.trans reached)

def upTo (r : Registry) (depth : Nat) : {level // r.Compatible level} := ⟨within r depth,compatible_within depth⟩

/-- A computation over the answers of a level comes to its result at some depth, or there is a
question without an answer that it cannot do without. -/
def blocking (r : Registry) : Lifting {level // r.Compatible level} Option where
  Holds p x :=
    (∃ a, p a ∧ (∃ depth, ∀ deeper, depth ≤ deeper → x (r.upTo deeper) = some a) ∧
      ∀ level b, x level = some b → b = a) ∨
    ∃ q, ¬r.Settled q ∧ ∀ level, (x level).isSome → level.1.Answers q
  value := by
    intro α p a good
    refine .inl ⟨a,good,⟨0,fun _ _ => rfl⟩,fun _ b eq => ?_⟩
    cases eq
    rfl
  sequence := by
    intro α β p q x f first next
    have started {level : {level // r.Compatible level}} (ended : (x level >>= f level).isSome) :
        ∃ a, x level = some a ∧ (f level a).isSome := by
      obtain ⟨b,eq⟩ := isSome_iff_exists.mp ended
      obtain ⟨a,atFirst,atNext⟩ := bind_eq_some_iff.mp eq
      exact ⟨a,atFirst,isSome_iff_exists.mpr ⟨b,atNext⟩⟩
    rcases first with ⟨a,good,⟨depth,reached⟩,unique⟩ | ⟨question,unsettled,needed⟩
    · rcases next a good with ⟨b,res,⟨further,ended⟩,unique'⟩ | ⟨question,unsettled,needed⟩
      · refine .inl ⟨b,res,⟨max depth further,fun deeper beyond => ?_⟩,?_⟩
        · refine bind_eq_some_iff.mpr ⟨a,reached deeper ?_,ended deeper ?_⟩
          · exact Nat.le_trans (Nat.le_max_left _ _) beyond
          · exact Nat.le_trans (Nat.le_max_right _ _) beyond
        · intro level c eq
          obtain ⟨a',atFirst,atNext⟩ := bind_eq_some_iff.mp eq
          cases unique level a' atFirst
          exact unique' level c atNext
      · refine .inr ⟨question,unsettled,fun level ended => ?_⟩
        obtain ⟨a',atFirst,atNext⟩ := started ended
        cases unique level a' atFirst
        exact needed level atNext
    · refine .inr ⟨question,unsettled,fun level ended => ?_⟩
      obtain ⟨a,atFirst,-⟩ := started ended
      exact needed level (isSome_iff_exists.mpr ⟨a,atFirst⟩)

lemma blocking_question {α : Type} {p : α → Prop} {x : {level // r.Compatible level} → Option α}
    (q : Question) (eq : ∀ level, (x level).isSome ↔ level.1.Answers q)
    (keeps : ∀ depth deeper a, depth ≤ deeper → x (r.upTo depth) = some a → x (r.upTo deeper) = some a ∧ p a)
    (unique : ∀ depth a level b, x (r.upTo depth) = some a → x level = some b → b = a) :
    r.blocking.Holds p x := by
  by_cases settled : r.Settled q
  · obtain ⟨depth,answered⟩ := settled
    obtain ⟨a,ended⟩ := isSome_iff_exists.mp ((eq (r.upTo depth)).mpr answered)
    exact .inl ⟨a,(keeps depth depth a (Nat.le_refl _) ended).2,
      ⟨depth,fun deeper beyond => (keeps depth deeper a beyond ended).1⟩,
      fun level b other => unique depth a level b ended other⟩
  · exact .inr ⟨q,settled,fun level ended => (eq level).mp ended⟩

lemma answering_levels : Answering r.blocking Subtype.val where
  subtype lax a b assumed _ :=
    blocking_question (.subtype lax a b assumed) (fun _ => Iff.rfl) (fun _ _ ans beyond ended =>
        (within_extends r beyond).subtype lax a b assumed ans ended)
      fun depth ans level other ended ended' =>
        level.2.subtype depth lax a b assumed ans other ended ended'
  join a b := blocking_question (.join a b) (fun _ => Iff.rfl)
    (fun _ _ t beyond ended => ⟨(within_extends r beyond).join a b t ended,trivial⟩)
    fun depth t level other ended ended' => level.2.join depth a b t other ended ended'
  meet lax a b := blocking_question (.meet lax a b) (fun _ => Iff.rfl) (fun _ _ t beyond ended =>
      ⟨(within_extends r beyond).meet lax a b t ended,trivial⟩)
    fun depth t level other ended ended' => level.2.meet depth lax a b t other ended ended'

lemma exists_needs (unsettled : ¬r.Settled q) : ∃ further, ¬r.Settled further ∧ r.Needs q further := by
  have next := (answering_levels (r := r)).step r
  have blocked {α : Type} {p : α → Prop} {x : {level // r.Compatible level} → Option α}
      (eq : ∀ level, (x level).isSome ↔ (step r fun _ => level.1).Answers q)
      (held : r.blocking.Holds p x) : ∃ further, ¬r.Settled further ∧ r.Needs q further := by
    rcases held with ⟨a,-,⟨depth,reached⟩,-⟩ | ⟨further,unsettled',needed⟩
    · refine absurd ⟨depth + 1,(eq (r.upTo depth)).mp ?_⟩ unsettled
      exact isSome_iff_exists.mpr ⟨a,reached depth (Nat.le_refl _)⟩
    · exact ⟨further,unsettled',fun below compatible answers =>
        needed ⟨below,compatible⟩ ((eq ⟨below,compatible⟩).mpr answers)⟩
  cases q with
  | subtype lax a b assumed =>
    exact blocked (fun _ => Iff.rfl) (next.subtype lax a b assumed (List.nil_subset _))
  | join a b => exact blocked (fun _ => Iff.rfl) (next.join a b)
  | meet lax a b => exact blocked (fun _ => Iff.rfl) (next.meet lax a b)

lemma acc_of_answers (depth : Nat) : ∀ q, (within r depth).Answers q → Acc (fun further q => r.Needs q further) q := by
  induction depth with
  | zero => rintro (_ | _ | _) answers <;> cases answers
  | succ depth ih =>
    intro q answers
    exact .intro q fun further needs => ih further (needs _ (compatible_within depth) answers)

lemma settled_iff_not_endless : r.Settled q ↔ ¬r.Endless q := by
  rw [Endless,← not_acc_iff_exists_descending_chain (r := fun further q => r.Needs q further),not_not]
  constructor
  · rintro ⟨depth,answers⟩
    exact acc_of_answers depth q answers
  · intro acc
    induction acc with
    | intro q _ ih =>
      by_contra unsettled
      obtain ⟨further,unsettled',needs⟩ := exists_needs unsettled
      exact unsettled' (ih further needs)

lemma endless_of_cycle (needs : r.Needs q other) (back : r.Needs other q) : r.Endless q := by
  refine ⟨fun n => if n % 2 = 0 then q else other,rfl,fun n => ?_⟩
  rcases Nat.mod_two_eq_zero_or_one n with even | odd
  · have next : (n + 1) % 2 = 1 := by omega
    simpa [even,next] using needs
  · have next : (n + 1) % 2 = 0 := by omega
    simpa [odd,next] using back

lemma Needs.endless (needs : r.Needs q further) (endless : r.Endless further) : r.Endless q := by
  obtain ⟨chain,rfl,leads⟩ := endless
  refine ⟨fun n => n.casesOn q chain,rfl,fun n => ?_⟩
  cases n with
  | zero => exact needs
  | succ n => exact leads n

lemma settled_subtype_iff : r.Settled (.subtype lax a b []) ↔ ∃ ans depth, ∀ deeper, depth ≤ deeper →
      Lattice.isSubtype ⟨r,lax,deeper⟩ a b = some ans := by
  constructor
  · rintro ⟨depth,answers⟩
    obtain ⟨ans,ended⟩ := isSome_iff_exists.mp answers
    refine ⟨ans.1,depth,fun deeper beyond => ?_⟩
    have reached := ((within_extends r beyond).subtype _ _ _ _ _ ended).1
    simp [Lattice.isSubtype,Lattice.relations,isSubtype,reached]
  · rintro ⟨ans,depth,reached⟩
    obtain ⟨_,depth,ended⟩ := answers_iff.mp ⟨depth,reached depth (Nat.le_refl _)⟩
    exact ⟨depth,isSome_iff_exists.mpr ⟨_,ended⟩⟩

lemma settled_join_iff (lax : Bool) : r.Settled (.join a b) ↔ ∃ joined depth, ∀ deeper, depth ≤ deeper →
      Lattice.join ⟨r,lax,deeper⟩ a b = some joined := by
  constructor
  · rintro ⟨depth,answers⟩
    obtain ⟨joined,ended⟩ := isSome_iff_exists.mp answers
    exact ⟨joined,depth,fun _ beyond => (within_extends r beyond).join a b joined ended⟩
  · rintro ⟨joined,depth,reached⟩
    exact ⟨depth,isSome_iff_exists.mpr ⟨joined,reached depth (Nat.le_refl _)⟩⟩

lemma isSubtype_eq_none (endless : r.Endless (.subtype lax a b [])) (depth : Nat) :
    Lattice.isSubtype ⟨r,lax,depth⟩ a b = none := by
  by_contra answered
  obtain ⟨ans,ended⟩ := Option.ne_none_iff_exists'.mp answered
  obtain ⟨table,depth,ended⟩ := answers_iff.mp ⟨depth,ended⟩
  have settled : r.Settled (.subtype lax a b []) := ⟨depth,isSome_iff_exists.mpr ⟨(ans,table),ended⟩⟩
  exact settled_iff_not_endless.mp settled endless

lemma join_eq_none (endless : r.Endless (.join a b)) (depth : Nat) : Lattice.join ⟨r,lax,depth⟩ a b = none := by
  by_contra answered
  have settled : r.Settled (.join a b) := ⟨depth,Option.isSome_iff_ne_none.mpr answered⟩
  exact settled_iff_not_endless.mp settled endless

end Registry
end GradualJs
