import GradualJs.Proofs.Lattice.Level
import GradualJs.Proofs.Subtyping.Survey

/-! Depth. A question that is answered within some depth is answered in the same way within
every greater depth, so an answer depends on the question alone. -/
namespace GradualJs

open Relations

variable {above below : Relations}

namespace Premises

def anything (lax : Bool) : Premises := ⟨lax,fun _ _ _ => True,fun _ _ => True,fun _ _ => True⟩
def nothing (lax : Bool) : Premises := ⟨lax,fun _ _ _ => False,fun _ _ => False,fun _ _ => False⟩

end Premises

namespace Survey

variable {I : Type}

/-- Looks only at whether questions are answered. -/
def plain (L : Lifting I Option) (below : I → Relations) (lax : Bool) : Survey I where
  lifting := L
  below := below
  lax := lax
  trusted _ := True
  sure := .anything lax
  possible := .nothing lax
  sure_lax := rfl
  possible_lax := rfl

/-- The question is answered, whatever is assumed beyond what is known. -/
def Answered (L : Lifting I Option) (known : Assumptions) (q : I → Query Bool) : Prop :=
  ∀ assumed, known ⊆ assumed → L.Holds (fun ans => assumed ⊆ ans.2) fun i => (q i).run assumed

variable {L : Lifting I Option} {below : I → Relations} {lax : Bool}

lemma Asks.answered {s : Survey I} {sure possible : Prop}
    (asks : s.Asks known q sure possible) : Answered s.lifting known q :=
  fun assumed subset => s.lifting.mono (asks assumed subset) fun _ verdict => verdict.grows

lemma asksType_plain (answered : Answered L known fun i => (below i).subtype lax a b) :
    (plain L below lax).AsksType known a b :=
  fun assumed subset => L.mono (answered assumed subset) fun _ grows =>
    ⟨grows,fun _ _ => trivial,fun _ impossible => impossible⟩

end Survey

namespace Relations

variable {I : Type}

/-- All questions are answered, joins and meets included, in the sense of the lifting. -/
structure Answering (L : Lifting I Option) (level : I → Relations) : Prop where
  subtype : ∀ lax a b, Survey.Answered L [] fun i => (level i).subtype lax a b
  join : ∀ a b, L.Holds (fun _ => True) fun i => (level i).join a b
  meet : ∀ lax a b, L.Holds (fun _ => True) fun i => (level i).meet lax a b

def unlimited : Limits Empty := ⟨nofun,nofun⟩

namespace Answering

variable {L : Lifting I Option} {below : I → Relations} (answering : Answering L below)
include answering

lemma total (r : Registry) (lax : Bool) : (Survey.plain L below lax).Total r where
  types a b := Survey.asksType_plain (answering.subtype lax a b)
  joins a b := L.mono (answering.join a b) fun _ _ => ⟨trivial,fun _ impossible => impossible.elim⟩
  hit _ _ _ := trivial
  unfolds _ _ _ _ impossible := impossible.elim

lemma isSubtype (lax : Bool) (a b : Ty) : L.Holds (fun _ => True) fun i => (below i).isSubtype lax a b :=
  L.map (answering.subtype lax a b [] (List.Subset.refl _)) fun _ _ => trivial

lemma level (r : Registry) : LevelKeeps unlimited L (fun _ => r) below nofun where
  join _ _ a b _ _ := L.mono (answering.join a b) fun _ _ => nofun
  meet lax _ _ a b _ _ := L.mono (answering.meet lax a b) fun _ _ => nofun
  instances x y _ _ assumed := by
    have asks := Survey.asks_instance ((answering.total r false).asksInstance [] x y)
    exact L.mono (asks assumed (List.nil_subset _)) fun _ _ => trivial
  objects lax a b _ _ assumed := by
    have asks := Survey.asks_object ((answering.total r lax).asksObject [] a b)
    exact L.mono (asks assumed (List.nil_subset _)) fun _ _ => trivial
  backings id t _ := answering.isSubtype false _ t
  members lax id t _ := answering.isSubtype lax _ t
  superclass x y _ _ := by
    refine ⟨r.commonViews x y,fun _ => rfl,fun left right views => ⟨?_,nofun,nofun⟩⟩
    obtain ⟨ancestor,-,viewX,viewY⟩ := Registry.commonViews_eq_some.mp views
    rw [r.upcast_id viewX,r.upcast_id viewY]

lemma step (r : Registry) : Answering L fun i => step r fun _ => below i where
  subtype lax a b := ((answering.total r lax).asks_step [] a b).answered
  join a b := L.mono ((answering.level r).keeps_join a b nofun nofun) fun _ _ => trivial
  meet lax a b := L.mono ((answering.level r).keeps_meet lax a b nofun nofun) fun _ _ => trivial

end Answering

/-- Whatever the first answers, the second answers in the same way. -/
structure Extends (above below : Relations) : Prop where
  subtype : ∀ lax a b assumed ans, (below.subtype lax a b).run assumed = some ans →
    (above.subtype lax a b).run assumed = some ans ∧ assumed ⊆ ans.2
  join : ∀ a b t, below.join a b = some t → above.join a b = some t
  meet : ∀ lax a b t, below.meet lax a b = some t → above.meet lax a b = some t

def levels (above below : Relations) (deeper : Bool) : Relations := if deeper then above else below

lemma Extends.answering (wider : above.Extends below) : Answering .keeps (levels above below) where
  subtype lax a b assumed _ ans ended := wider.subtype lax a b assumed ans ended
  join a b t ended := ⟨wider.join a b t ended,trivial⟩
  meet lax a b t ended := ⟨wider.meet lax a b t ended,trivial⟩

lemma step_extends (wider : above.Extends below) (r : Registry) :
    (step r fun _ => above).Extends (step r fun _ => below) := by
  have next := wider.answering.step r
  refine ⟨fun lax a b assumed ans ended => ?_,fun a b t ended => ?_, fun lax a b t ended => ?_⟩
  · exact next.subtype lax a b assumed (List.nil_subset _) ans ended
  · exact (next.join a b t ended).1
  · exact (next.meet lax a b t ended).1

lemma within_succ_extends (r : Registry) (depth : Nat) : (within r (depth + 1)).Extends (within r depth) := by
  induction depth with
  | zero => constructor <;> intros <;> simp_all [within,exhausted]
  | succ depth ih => exact step_extends ih r

lemma within_extends (r : Registry) (less : depth ≤ deeper) : (within r deeper).Extends (within r depth) := by
  induction less with
  | refl =>
    have next := within_succ_extends r depth
    exact ⟨fun lax a b assumed ans ended =>
      ⟨ended,(next.subtype lax a b assumed ans ended).2⟩,fun _ _ _ => id,fun _ _ _ _ => id⟩
  | @step mid _ ih =>
    have next := within_succ_extends r mid
    refine ⟨fun lax a b assumed ans ended => ?_,fun a b t ended => ?_, fun lax a b t ended => ?_⟩
    · obtain ⟨reached,grows⟩ := ih.subtype lax a b assumed ans ended
      exact ⟨(next.subtype lax a b assumed ans reached).1,grows⟩
    · exact next.join a b t (ih.join a b t ended)
    · exact next.meet lax a b t (ih.meet lax a b t ended)

end Relations

namespace Registry

variable (r : Registry) (lax : Bool)

/-- The question about `a` and `b` comes to an end, at some depth, with an answer and a
table. -/
def Ends (a b : Ty) (assumed : Assumptions) (ans : Bool × Assumptions) : Prop :=
  ∃ depth, ((within r depth).subtype lax a b).run assumed = some ans

def Answers (a b : Ty) (ans : Bool) : Prop := ∃ depth, Lattice.isSubtype ⟨r,lax,depth⟩ a b = some ans
def Joins (a b t : Ty) : Prop := ∃ depth, Lattice.join {registry := r, depth} a b = some t

variable {r lax}

lemma answers_iff : r.Answers lax a b ans ↔ ∃ assumed, r.Ends lax a b [] (ans,assumed) := by
  have step (depth : Nat) : Lattice.isSubtype ⟨r,lax,depth⟩ a b = some ans ↔
      ∃ assumed, ((within r depth).subtype lax a b).run [] = some (ans,assumed) := by
    simp only [Lattice.isSubtype,Lattice.relations,isSubtype,StateT.run'_eq,
      Option.map_eq_map,Option.map_eq_some_iff,Prod.exists]
    simp
  simp only [Answers,Ends,step]
  exact exists_comm

lemma Ends.unique
    (first : r.Ends lax a b assumed ans) (second : r.Ends lax a b assumed other) :
    ans = other := by
  obtain ⟨depth,ended⟩ := first
  obtain ⟨depth',ended'⟩ := second
  have reached := ((within_extends r (Nat.le_max_left depth depth')).subtype _ _ _ _ _ ended).1
  have reached' := ((within_extends r (Nat.le_max_right depth depth')).subtype _ _ _ _ _ ended').1
  exact Option.some.inj (reached.symm.trans reached')

lemma Ends.grows (ends : r.Ends lax a b assumed ans) : assumed ⊆ ans.2 := by
  obtain ⟨depth,ended⟩ := ends
  exact ((within_succ_extends r depth).subtype _ _ _ _ _ ended).2

lemma Answers.unique (first : r.Answers lax a b ans) (second : r.Answers lax a b other) : ans = other := by
  obtain ⟨_,ends⟩ := answers_iff.mp first
  obtain ⟨_,ends'⟩ := answers_iff.mp second
  exact congrArg Prod.fst (ends.unique ends')

lemma Joins.unique (first : r.Joins a b t) (second : r.Joins a b t') : t = t' := by
  obtain ⟨depth,ended⟩ := first
  obtain ⟨depth',ended'⟩ := second
  have reached := (within_extends r (Nat.le_max_left depth depth')).join _ _ _ ended
  have reached' := (within_extends r (Nat.le_max_right depth depth')).join _ _ _ ended'
  exact Option.some.inj (reached.symm.trans reached')

end Registry
end GradualJs
