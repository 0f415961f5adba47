import GradualJs.Proofs.Subtyping.Ending

/-! Joins come to an end over ranked declarations, and with them all questions. Classes are
joined at their superclass, whose declared arguments are ranked below the class, and questions about
heavier types rest on joins of lighter ones. -/
namespace GradualJs

open Relations Lifting

/-- Bounds the object types and all types that a join has to go through. -/
def Ranks.limits (k : Ranks) (limit high : Nat) : Limits Bool where
  weights heights := if heights then k.height else k.nesting
  bound heights := if heights then high else limit

namespace Registry

variable {r : Registry} {k : Ranks}

section Level

variable (kinded : r.Kinded) (ranked : r.Ranked k)
  (joins : ∀ type, type.objects.length ≤ 1 ∨ k.nesting.weigh type < limit → r.JoinsUndefined k type)

include kinded ranked joins

lemma levelKeeps (join : ∀ further, (k.limits limit high).Inside cost further →
      (k.limits limit high).Keeps .settles further fun depth => (within r depth).join)
    (meet : ∀ lax further, (k.limits limit high).Inside cost further →
      (k.limits limit high).Keeps .settles further fun depth => (within r depth).meet lax) :
    LevelKeeps (k.limits limit high) .settles (fun _ => r) (within r) cost := by
  have light {o : Obj} (held : (k.limits limit high).LightObject
      ((k.limits limit high).inUnion cost) o) : k.nesting.weighObject o ≤ limit :=
    Nat.le_trans (Nat.le_add_left _ _) (held false)
  have asks {a b : Obj} (lax : Bool) (lightA : k.nesting.weighObject a ≤ limit)
      (lightB : k.nesting.weighObject b ≤ limit) :
      (r.asked lax).AsksObject r [] a b :=
    asks_light kinded ranked joins lightA lightB
  refine ⟨join,meet,?_,?_,?_,?_,?_⟩
  · intro x y lightX lightY assumed
    have answered := Survey.asks_instance (asks false (light lightX) (light lightY)) assumed (List.nil_subset _)
    exact settles.mono answered fun _ _ => trivial
  · intro lax a b lightA lightB assumed
    have answered := Survey.asks_object (asks lax (light lightA) (light lightB)) assumed (List.nil_subset _)
    exact settles.mono answered fun _ _ => trivial
  · intro id t _
    exact (ending_plain (kinded.enumBacking id)).isSubtype
  · intro lax id t lightT
    have lightId : k.nesting.weigh (.enumMember id) ≤ limit := Nat.zero_le _
    exact (ending_of_joins kinded ranked joins [] _ t lightId
      (Nat.le_trans (Nat.le_add_left _ _) (lightT false))).isSubtype
  · intro x y lightX lightY
    refine ⟨r.commonViews x y,fun _ => rfl,fun left right views => ?_⟩
    obtain ⟨ancestor,common,viewX,viewY⟩ := commonViews_eq_some.mp views
    have isClass := kinded.commonSuperclass_class common
    have lightView {i viewed : Instance} (found : r.upcast i ancestor = some viewed)
        (lightI : (k.limits limit high).LightObject ((k.limits limit high).inUnion cost)
          (.nominal i)) : (k.limits limit high).LightObject ((k.limits limit high).inUnion cost)
          (.nominal viewed) := by
      intro heights
      cases heights with
      | false =>
        exact Nat.le_trans (Nat.add_le_add_left (ranked.upcast_le found).1 _) (lightI false)
      | true =>
        have lower := ranked.height_upcast_le kinded found isClass
        exact Nat.le_trans (Nat.add_le_add_left lower _) (lightI true)
    exact ⟨by rw [r.upcast_id viewX,r.upcast_id viewY],lightView viewX lightX,lightView viewY lightY⟩

lemma keeps_within : (k.limits limit high).Keeps .settles cost (fun depth => (within r depth).join) ∧
      ∀ lax, (k.limits limit high).Keeps .settles cost fun depth => (within r depth).meet lax := by
  -- The induction is on the height that is left; types within types have less.
  induction eq : high + 1 - cost true using Nat.strongRecOn generalizing cost with
  | _ left ih =>
    by_cases affords : cost true ≤ high
    · have inside (further : Bool → Nat) (deeper : (k.limits limit high).Inside cost further) :
          high + 1 - further true < left := by
        have more : cost true + 1 ≤ further true := deeper true
        omega
      have level : LevelKeeps (k.limits limit high) .settles (fun _ => r) (within r) cost :=
        levelKeeps kinded ranked joins (fun further deeper => (ih _ (inside further deeper) rfl).1)
          fun lax further deeper => (ih _ (inside further deeper) rfl).2 lax
      exact ⟨fun a b lightA lightB => settles_shift (level.keeps_join a b lightA lightB), fun lax a b lightA lightB =>
          settles_shift (level.keeps_meet lax a b lightA lightB)⟩
    · have heavy (t : Ty) : ¬(k.limits limit high).Light cost t := by
        intro light
        exact affords (Nat.le_trans (Nat.le_add_right _ _) (light true))
      exact ⟨fun a _ lightA => absurd lightA (heavy a),fun _ a _ lightA => absurd lightA (heavy a)⟩

lemma settles_join (lightA : k.nesting.weigh a ≤ limit) (lightB : k.nesting.weigh b ≤ limit) :
    settles.Holds (fun t => k.nesting.weigh t ≤ limit) fun depth => (within r depth).join a b := by
  have keeps : (k.limits limit (max (k.height.weigh a) (k.height.weigh b))).Keeps .settles
      (fun _ => 0) fun depth => (within r depth).join :=
    (keeps_within kinded ranked joins).1
  have within {t : Ty} {high : Nat} (light : k.nesting.weigh t ≤ limit)
      (low : k.height.weigh t ≤ high) : (k.limits limit high).Light (fun _ => 0) t := by
    rintro (_ | _)
    · exact Nat.le_trans (Nat.le_of_eq (Nat.zero_add _)) light
    · exact Nat.le_trans (Nat.le_of_eq (Nat.zero_add _)) low
  refine settles.mono (keeps a b (within lightA (Nat.le_max_left _ _))
    (within lightB (Nat.le_max_right _ _))) fun t light => ?_
  exact Nat.le_trans (Nat.le_add_left _ _) (light false)

end Level

section Ranked

variable (kinded : r.Kinded) (ranked : r.Ranked k)

include kinded ranked

lemma joinsUndefined (type : Ty) : r.JoinsUndefined k type := by
  induction eq : k.nesting.weigh type using Nat.strongRecOn generalizing type with
  | _ weight ih =>
    have joins (t : Ty) (lighter : t.objects.length ≤ 1 ∨ k.nesting.weigh t < weight) : r.JoinsUndefined k t := by
      rcases lighter with few | less
      · exact joinsUndefined_few kinded few
      · exact ih _ less t rfl
    unfold JoinsUndefined
    rw [eq]
    exact settles_join kinded ranked joins (Nat.le_of_eq eq) (Nat.zero_le _)

lemma ending (lax : Bool) (known : Assumptions) (a b : Ty) : r.Ending lax known a b :=
  ending_of_joins kinded ranked (fun type _ => joinsUndefined kinded ranked type) known a b
    (Nat.le_max_left _ _) (Nat.le_max_right _ _)

lemma exists_answers (lax : Bool) (a b : Ty) : ∃ ans, r.Answers lax a b ans := by
  obtain ⟨ans,-,depth,settled⟩ := (ending kinded ranked lax [] a b).isSubtype
  exact ⟨ans,depth,settled depth (Nat.le_refl _)⟩

lemma joins_ending (a b : Ty) : settles.Holds (fun _ => True) fun depth => (within r depth).join a b :=
  settles.mono (settles_join kinded ranked
    (fun type _ => joinsUndefined kinded ranked type) (Nat.le_max_left _ _) (Nat.le_max_right _ _))
    fun _ _ => trivial

end Ranked

end Registry
end GradualJs
