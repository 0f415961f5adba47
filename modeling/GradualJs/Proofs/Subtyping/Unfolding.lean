import GradualJs.Proofs.Subtyping.Assumptions

/-! Unfolding. An instance is said to fit when its properties fit with the pair of types assumed.
However far one looks into them they do without a table, exactly if the two types are related by
the rules and the questions on the way come to an end. -/
namespace GradualJs.Registry

variable (r : Registry) (lax : Bool)

/-- The answer is yes, and it stays so however far the types are unfolded. -/
def Unfolds (a b : Ty) : Prop :=
  ∃ related : Ty → Ty → Prop, related a b ∧ r.Consistent lax related ∧ ∀ a b, related a b → r.Answers lax a b true

/-- Some consistent relation relates the two types, and every question about types that it
relates comes to an end. -/
def FitsInTheEnd (a b : Ty) : Prop :=
  ∃ fits : Ty → Ty → Prop, fits a b ∧ r.Consistent lax fits ∧ ∀ a b, fits a b → ∃ ans, r.Answers lax a b ans

/-- Whatever the arguments of the two types, instances that are compared by structure fit. -/
def PairFits (pair : NominalId × NominalId) : Prop :=
  ∀ src tgt, r.Structural src tgt → (src.id,tgt.id) = pair →
    r.Fits lax (.object (.nominal src)) (.object (.nominal tgt))

def Uniform (i : Instance) : Prop := ∀ j : Instance, j.id = i.id → r.instanceFields j = r.instanceFields i

variable {r lax} {src tgt : Instance}

/-- An instance passes on what its arguments are put in for, and nothing else of them. -/
lemma instanceFields_congr {i j : Instance} (eq : j.id = i.id)
    (mapping : r.substitutionFor j = r.substitutionFor i) : r.instanceFields j = r.instanceFields i := by
  have supertypes : r.supertypesOf j = r.supertypesOf i := by
    simp [supertypesOf,eq,mapping]
  have properties : r.ownProperties j = r.ownProperties i := by
    simp [ownProperties,eq,mapping]
  simp [instanceFields,allProperties,visitBound,gatherProperties,supertypes,properties,eq]

lemma uniform_of_typeParams {i : Instance} (plain : (r.nominal i.id).typeParams = []) : r.Uniform i := by
  intro j eq
  refine instanceFields_congr eq ?_
  simp [substitutionFor,eq,plain]

lemma typeFits_structural (structural : r.Structural src tgt) :
    (r.unfolded lax fits).TypeFits r (.object (.nominal src)) (.object (.nominal tgt)) ↔
      r.Resembles lax fits src tgt := by
  have instances : (r.unfolded lax fits).InstanceFits r src tgt ↔ r.Resembles lax fits src tgt := by
    simp [Premises.InstanceFits,structural.unreached,structural.record,unfolded,rules]
  rw [Premises.typeFits_object,← instances]
  exact or_iff_right structural.notObject

lemma PairFits.resembles (fits : r.PairFits lax pair)
    (structural : r.Structural src tgt) (eq : (src.id,tgt.id) = pair) :
    r.Resembles lax (r.Fits lax) src tgt :=
  (typeFits_structural structural).mp (consistent_fits _ _ (fits src tgt structural eq))

/-- A comparison that was granted is right if the pairs it leaves in the table are, its own
apart. -/
lemma fits_of_granted (structural : r.Structural src tgt)
    (ends : r.Ends lax (.object (.nominal src)) (.object (.nominal tgt)) []
      (true,table)) (uniformSource : r.Uniform src) (uniformTarget : r.Uniform tgt)
    (others : ∀ pair ∈ table, pair ≠ (src.id,tgt.id) → r.PairFits lax pair) :
    r.Fits lax (.object (.nominal src)) (.object (.nominal tgt)) := by
  -- What fits or was granted with such a table is consistent: the pair itself unfolds to what
  -- the run has looked at, and every other pair to what fits.
  let trusted (pair : NominalId × NominalId) : Prop := pair = (src.id,tgt.id) ∨ r.PairFits lax pair
  let related (a b : Ty) : Prop := r.Fits lax a b ∨ r.Granted lax trusted a b
  have trust : ∀ pair ∈ table, trusted pair := by
    intro pair mem
    by_cases own : pair = (src.id,tgt.id)
    · exact .inl own
    · exact .inr (others pair mem own)
  have explored : r.Resembles lax (r.Granted lax trusted) src tgt := (ends.explored structural).2 trusted trust rfl
  have resembles (s t : Instance) (between : r.Structural s t) (held : trusted (s.id,t.id)) :
      r.Resembles lax related s t := by
    rcases held with own | fits
    · obtain ⟨sameSource,sameTarget⟩ := Prod.mk.inj own
      have own : r.Resembles lax related src tgt := explored.mono fun _ _ => .inr
      unfold Resembles at own ⊢
      rwa [uniformSource s sameSource,uniformTarget t sameTarget]
    · exact (fits.resembles between rfl).mono fun _ _ => .inl
  have consistent : r.Consistent lax related := by
    rintro a b (fits | granted)
    · exact (unfolded_implies fun _ _ => .inl).typeFits (consistent_fits a b fits)
    · exact (rules_implies (fun _ _ => .inr) resembles).typeFits granted.typeFits
  exact ⟨related,consistent,.inr ⟨[],table,ends,trust⟩⟩

/-- What is consistent is never refused, so it is enough that there is an answer. -/
lemma unfolds_iff_fitsInTheEnd : r.Unfolds lax a b ↔ r.FitsInTheEnd lax a b := by
  constructor
  · rintro ⟨related,held,consistent,yes⟩
    exact ⟨related,held,consistent,fun a b held => ⟨true,yes a b held⟩⟩
  · rintro ⟨related,held,consistent,returns⟩
    refine ⟨related,held,consistent,fun a b held => ?_⟩
    exact consistent.answers (returns a b held) (consistent a b held)

lemma Unfolds.resembles (structural : r.Structural src tgt)
    (unfolds : r.Unfolds lax (.object (.nominal src)) (.object (.nominal tgt))) :
    r.Resembles lax (fun a b => r.Answers lax a b true) src tgt := by
  obtain ⟨related,held,consistent,yes⟩ := unfolds
  exact ((typeFits_structural structural).mp (consistent _ _ held)).mono yes

/-- The comparison of an instance with a record type holds up under unfolding exactly if the
two fit by the rules without a table, with an answer to every question on the way. Then the
answer is yes, and every property fits when asked on its own. If the properties do not depend
on arguments, and what else was assumed on the way is right, then yes is the right answer. -/
theorem unfolds_exactly_if_fits (structural : r.Structural src tgt) :
    (r.Unfolds lax (.object (.nominal src)) (.object (.nominal tgt)) ↔
      r.FitsInTheEnd lax (.object (.nominal src)) (.object (.nominal tgt))) ∧
    (r.Unfolds lax (.object (.nominal src)) (.object (.nominal tgt)) →
      r.Answers lax (.object (.nominal src)) (.object (.nominal tgt)) true ∧
      r.Resembles lax (fun a b => r.Answers lax a b true) src tgt) ∧
    ∀ table, r.Ends lax (.object (.nominal src)) (.object (.nominal tgt)) []
        (true,table) → r.Uniform src → r.Uniform tgt →
      (∀ pair ∈ table, pair ≠ (src.id,tgt.id) → r.PairFits lax pair) →
      (∀ a b, r.Fits lax a b → ∃ ans, r.Answers lax a b ans) →
      r.Unfolds lax (.object (.nominal src)) (.object (.nominal tgt)) := by
  refine ⟨unfolds_iff_fitsInTheEnd,fun unfolds => ⟨?_,unfolds.resembles structural⟩,?_⟩
  · obtain ⟨related,held,-,yes⟩ := unfolds
    exact yes _ _ held
  · intro table ends uniformSource uniformTarget others returns
    have fits := fits_of_granted structural ends uniformSource uniformTarget others
    exact unfolds_iff_fitsInTheEnd.mpr ⟨r.Fits lax,fits,consistent_fits,returns⟩

section Chains

open Outline in
/-- A class and a record type, each with a property of its own type. -/
def chains : List Outline := [
  {name := "S", doc := {kind := some .constructor},
    properties := [("next",instanceOf "S" []),("value",named "number" [])]},
  {name := "R", doc := {kind := some .record},
    properties := [("next",instanceOf "R" []),("value",named "number" [])]}]

lemma chains_structural : (Outline.registry chains).Structural ⟨⟨3⟩,[]⟩ ⟨⟨4⟩,[]⟩ ∧
    (Outline.registry chains).Kinded ∧ (Outline.registry chains).Ranked unrelatedRanks ∧
    ((Outline.registry chains).nominal ⟨3⟩).typeParams = [] ∧
    ((Outline.registry chains).nominal ⟨4⟩).typeParams = [] ∧
    ((Relations.within (Outline.registry chains) 5).subtype false (.object (.nominal ⟨⟨3⟩,[]⟩))
      (.object (.nominal ⟨⟨4⟩,[]⟩))).run [] = some (true,[(⟨3⟩,⟨4⟩)]) := by
  decide +kernel

theorem unfolds_exactly_if_fits_chains : (Outline.registry chains).Structural ⟨⟨3⟩,[]⟩ ⟨⟨4⟩,[]⟩ ∧
    (Outline.registry chains).Unfolds false (.object (.nominal ⟨⟨3⟩,[]⟩)) (.object (.nominal ⟨⟨4⟩,[]⟩)) := by
  obtain ⟨structural,kinded,ranked,plainSource,plainTarget,ended⟩ := chains_structural
  refine ⟨structural,(unfolds_exactly_if_fits structural).2.2 _ ⟨5,ended⟩
    (uniform_of_typeParams plainSource) (uniform_of_typeParams plainTarget) ?_
    fun a b _ => exists_answers kinded ranked false a b⟩
  intro pair mem other
  exact absurd (List.mem_singleton.mp mem) other

open Outline in
/-- Two types whose property fits for one argument and not for another, and that lead from
the one argument to the other. -/
def drifting : List Outline := [
  {name := "S", doc := {kind := some .constructor, templates := ["T"]},
    properties := [("next",instanceOf "S" [named "number" []]),("value",named "T" [])]},
  {name := "R", doc := {kind := some .record, templates := ["T"]},
    properties := [("next",instanceOf "R" [named "string" []]),("value",named "T" [])]}]

/-- The property is not asked about, because the table does not know of arguments. -/
theorem not_resembles_drifting : Outline.Collects drifting ∧
    (Outline.registry drifting).Structural ⟨⟨3⟩,[.number]⟩ ⟨⟨4⟩,[.number]⟩ ∧
    (Outline.registry drifting).Answers false (.nominal ⟨3⟩ [.number]) (.nominal ⟨4⟩ [.number]) true ∧
    ¬(Outline.registry drifting).Resembles false
      (fun a b => (Outline.registry drifting).Answers false a b true) ⟨⟨3⟩,[.number]⟩ ⟨⟨4⟩,[.number]⟩ := by
  obtain ⟨fields,expected,structural,yes,no⟩ : (Outline.registry drifting).instanceFields ⟨⟨3⟩,[.number]⟩ =
        [{name := "next", type := .nominal ⟨3⟩ [.number], declared := true},
          {name := "value", type := .number, declared := true}] ∧
      (Outline.registry drifting).instanceFields ⟨⟨4⟩,[.number]⟩ =
        [{name := "next", type := .nominal ⟨4⟩ [.string], declared := true},
          {name := "value", type := .number, declared := true}] ∧
      (Outline.registry drifting).Structural ⟨⟨3⟩,[.number]⟩ ⟨⟨4⟩,[.number]⟩ ∧
      Lattice.isSubtype ⟨Outline.registry drifting,false,9⟩ (.nominal ⟨3⟩ [.number])
        (.nominal ⟨4⟩ [.number]) = some true ∧
      Lattice.isSubtype ⟨Outline.registry drifting,false,9⟩ (.nominal ⟨3⟩ [.number])
        (.nominal ⟨4⟩ [.string]) = some false := by
    decide +kernel
  refine ⟨Outline.collects_of_quiet (by decide +kernel),structural,⟨9,yes⟩,fun resembles => ?_⟩
  unfold Resembles at resembles
  rw [fields,expected] at resembles
  have next := resembles _ List.mem_cons_self
  simp [Premises.FieldFits,Field.find?,Premises.Expected,rules] at next
  cases next.unique ⟨9,no⟩

end Chains

end GradualJs.Registry
