import GradualJs.Proofs.Lattice.Ending
import GradualJs.Proofs.Registry.Outline
import GradualJs.Proofs.Subtyping.Consistency

/-! The table of assumptions. A pair stays in the table when the comparison that put it there has
failed. So the answer for two unions follows from the answers for their members exactly if no
comparison by structure fails. -/
namespace GradualJs.Registry

open Relations List

variable (r : Registry) (lax : Bool)

/-- The question about two unions comes to an end, and so does every question about their
members alone. -/
structure Returns (u v : Union) : Prop where
  whole : ∃ ans, r.Answers lax (.union u) (.union v) ans
  enums : ∀ id ∈ u.enums, ∃ ans, r.Answers lax (r.enumBacking id) (.union v) ans
  objects : ∀ a ∈ u.objects, ∀ b ∈ v.objects, ∃ ans, r.Answers lax (.object a) (.object b) ans

/-- Every member of the one union fits in the other, each asked on its own. -/
structure MembersFit (u v : Union) : Prop where
  primitives : v.primitives.contains u.primitives
  vars : ∀ name ∈ u.vars, name ∈ v.vars
  enums : ∀ id ∈ u.enums, id ∈ v.enums ∨ r.Answers lax (r.enumBacking id) (.union v) true
  objects : ∀ a ∈ u.objects, ∃ b ∈ v.objects, r.Answers lax (.object a) (.object b) true

/-- A union as joins make them, with one object of each identity. -/
def Distinct (u : Union) : Prop := (u.objects.map Obj.identity).Nodup

/-- The answer for unions of a kind follows from the answers for their members. -/
def Memberwise (among : Union → Prop) : Prop :=
  ∀ u v, among u → among v → r.Returns lax u v → (r.Answers lax (.union u) (.union v) true ↔ r.MembersFit lax u v)

variable {r lax}

section Stale

def having (type : Ty) : Obj := .record {fields := [{name := "p", type}]}
def returning (type : Ty) : Obj := .function {returnType := type}

/-- Two objects that lead to the same question; in the target the first has a way out. -/
def staleSource (src : Instance) : Union where
  objects := [having (.object (.nominal src)),returning (.object (.nominal src))]

def staleTarget (tgt : Instance) : Union where
  objects := [
    having (.union {objects := [.nominal tgt,.record {fields := []}]}),
    returning (.object (.nominal tgt))]

lemma objectSubtype_having (r : Registry) (below : Relations) (lax : Bool) (a b : Ty) :
    objectSubtype r below lax (having a) (having b) = below.subtype lax a b := by
  simp only [having,objectSubtype,structural,Query.allM_singleton]
  simp [fieldsOf,Field.find?]

lemma objectSubtype_returning (r : Registry) (below : Relations) (lax : Bool) (a b : Ty) :
    objectSubtype r below lax (returning a) (returning b) = below.subtype lax a b := by
  simp [returning,objectSubtype,functionSubtype, FunctionType.eraseTypeParams,plainFunctionSubtype,constructsFit,
    arityFits,FunctionType.minArity,FunctionType.maxArity,
    FunctionType.positionalLength,optionalParamFits]

lemma objectSubtype_returning_having (r : Registry) (below : Relations) (lax : Bool)
    (a b : Ty) : objectSubtype r below lax (returning a) (having b) = pure false := by
  simp [returning,having,objectSubtype,structural,fieldsOf,Field.find?,allM]

lemma ends_object (depth : Nat)
    (ended : (objectSubtype r (.within r depth) lax a b).run assumed = some ans) :
    r.Ends lax (.object a) (.object b) assumed ans :=
  ⟨depth + 1,by rw [within_object,ended]⟩

lemma ends_returning (ends : r.Ends lax (.object (.nominal src)) (.object (.nominal tgt)) [] ans) :
    r.Ends lax (.object (returning (.object (.nominal src))))
    (.object (returning (.object (.nominal tgt)))) [] ans := by
  obtain ⟨depth,ended⟩ := ends
  exact ends_object depth (by rw [objectSubtype_returning,ended])

variable (structural : r.Structural src tgt)
  (failed : r.Ends lax (.object (.nominal src)) (.object (.nominal tgt)) [] (false,table))
include structural failed

lemma ends_escaped : r.Ends lax (.object (.nominal src))
    (.union {objects := [.nominal tgt,.record {fields := []}]}) [] (true,table) := by
  obtain ⟨depth,ended⟩ := failed
  cases depth with
  | zero => cases ended
  | succ depth =>
    rw [Relations.within_object,Relations.objectSubtype_structural structural] at ended
    refine ⟨depth + 1,?_⟩
    simp [Ty.object,Relations.within_union,Relations.subtypeUnions, Relations.objectSubtype_structural structural,ended]
    simp [Relations.objectSubtype,Relations.structural]

lemma ends_repeated : r.Ends lax (.object (.nominal src)) (.object (.nominal tgt)) table (true,table) := by
  have mem := (failed.explored structural).1
  refine ends_object 0 ?_
  rw [objectSubtype_structural structural]
  simp [guarded,mem]

lemma ends_stale : r.Ends lax (.union (staleSource src)) (.union (staleTarget tgt)) [] (true,table) := by
  obtain ⟨depth,escaped⟩ := ends_escaped structural failed
  obtain ⟨depth',repeated⟩ := ends_repeated structural failed
  replace escaped := ((within_extends r (Nat.le_max_left depth depth')).subtype _ _ _ _ _ escaped).1
  replace repeated := ((within_extends r (Nat.le_max_right depth depth')).subtype _ _ _ _ _ repeated).1
  refine ⟨max depth depth' + 1,?_⟩
  simp [staleSource,staleTarget,within_union,subtypeUnions,
    objectSubtype_having,objectSubtype_returning,objectSubtype_returning_having,escaped,
    repeated]

lemma ends_having : r.Ends lax (.object (having (.object (.nominal src))))
    (.object (having (.union {objects := [.nominal tgt,.record {fields := []}]}))) []
    (true,table) := by
  obtain ⟨depth,ended⟩ := ends_escaped structural failed
  exact ends_object depth (by rw [objectSubtype_having,ended])

lemma returns_stale : r.Returns lax (staleSource src) (staleTarget tgt) where
  whole := ⟨true,answers_iff.mpr ⟨table,ends_stale structural failed⟩⟩
  enums _ mem := by cases mem
  objects a inSource b inTarget := by
    simp only [staleSource,staleTarget,mem_cons,not_mem_nil,or_false] at inSource inTarget
    rcases inSource with rfl | rfl <;> rcases inTarget with rfl | rfl
    · exact ⟨true,answers_iff.mpr ⟨table,ends_having structural failed⟩⟩
    · exact ⟨false,answers_iff.mpr ⟨[],ends_object 0 rfl⟩⟩
    · refine ⟨false,answers_iff.mpr ⟨[],ends_object 0 ?_⟩⟩
      rw [objectSubtype_returning_having]
      rfl
    · exact ⟨false,answers_iff.mpr ⟨table,ends_returning failed⟩⟩

omit structural in
lemma not_membersFit_stale : ¬r.MembersFit lax (staleSource src) (staleTarget tgt) := by
  intro fit
  obtain ⟨b,mem,yes⟩ := fit.objects (returning (.object (.nominal src))) (by simp [staleSource])
  have no : r.Answers lax (.object (returning (.object (.nominal src)))) (.object b) false := by
    simp only [staleTarget,mem_cons,not_mem_nil,or_false] at mem
    rcases mem with rfl | rfl
    · refine answers_iff.mpr ⟨[],ends_object 0 ?_⟩
      rw [objectSubtype_returning_having]
      rfl
    · exact answers_iff.mpr ⟨table,ends_returning failed⟩
  cases yes.unique no

end Stale

/-- If no comparison by structure fails, then what is granted once is consistent, and so
it is never refused, whatever the table holds. -/
lemma consistent_granted (succeed : ∀ src tgt, r.Structural src tgt →
      r.Answers lax (.object (.nominal src)) (.object (.nominal tgt)) true) :
    r.Consistent lax (r.Granted lax fun _ => True) := by
  intro a b granted
  refine (rules_implies (fun _ _ => id) fun src tgt structural _ => ?_).typeFits granted.typeFits
  obtain ⟨table,ends⟩ := answers_iff.mp (succeed src tgt structural)
  exact (ends.explored structural).2 _ (fun _ _ => trivial) rfl

lemma granted_of_answers (yes : r.Answers lax a b true) : r.Granted lax (fun _ => True) a b := by
  obtain ⟨table,ends⟩ := answers_iff.mp yes
  exact ⟨[],table,ends,fun _ _ => trivial⟩

lemma Consistent.answers (consistent : r.Consistent lax fits) (returns : ∃ ans, r.Answers lax a b ans)
    (held : (r.unfolded lax fits).TypeFits r a b) : r.Answers lax a b true := by
  obtain ⟨ans,answers⟩ := returns
  obtain ⟨table,ends⟩ := answers_iff.mp answers
  have yes : ans = true := covers_unfolded.never_refused consistent ends held
  exact yes ▸ answers

lemma memberwise_of_succeed (among : Union → Prop) (succeed : ∀ src tgt, r.Structural src tgt →
      r.Answers lax (.object (.nominal src)) (.object (.nominal tgt)) true) :
    r.Memberwise lax among := by
  intro u v _ _ returns
  have consistent := consistent_granted succeed
  constructor
  · intro yes
    have held := consistent _ _ (granted_of_answers yes)
    refine ⟨held.primitives,by simpa using held.vars,fun id mem => ?_,fun a inU => ?_⟩
    · rcases held.enums id mem with eq | granted
      · exact .inl (by simpa using eq)
      · exact .inr (consistent.answers (returns.enums id mem) (consistent _ _ granted))
    · obtain ⟨b,inV,fits⟩ := held.objects a inU
      refine ⟨b,inV,consistent.answers (returns.objects a inU b inV) ?_⟩
      exact ⟨by simp,by simp,by simp,by simpa using fits⟩
  · intro fit
    refine consistent.answers returns.whole ⟨fit.primitives,by simpa using fit.vars,?_,?_⟩
    · intro id mem
      exact (fit.enums id mem).imp (by simp) granted_of_answers
    · intro a inU
      obtain ⟨b,inV,yes⟩ := fit.objects a inU
      have held := consistent _ _ (granted_of_answers yes)
      obtain ⟨b',eq,fits⟩ := held.objects a (by simp)
      simp only [mem_singleton] at eq
      exact ⟨b,inV,eq ▸ fits⟩

/-- A comparison that fails shows in the two unions that lead to it twice. -/
lemma succeed_of_memberwise (memberwise : r.Memberwise lax among) (amongSource : among (staleSource src))
    (amongTarget : among (staleTarget tgt)) (structural : r.Structural src tgt) (returns : ∃ ans,
      r.Answers lax (.object (.nominal src)) (.object (.nominal tgt)) ans) :
    r.Answers lax (.object (.nominal src)) (.object (.nominal tgt)) true := by
  obtain ⟨ans,answers⟩ := returns
  cases ans with
  | true => exact answers
  | false =>
    obtain ⟨table,failed⟩ := answers_iff.mp answers
    have stale := memberwise _ _ amongSource amongTarget (returns_stale structural failed)
    have granted := answers_iff.mpr ⟨table,ends_stale structural failed⟩
    exact absurd (stale.mp granted) (not_membersFit_stale failed)

/-- The answers for unions follow from those for their members exactly if every comparison
by structure succeeds. It makes no difference if only unions are looked at that joins
make. -/
theorem memberwise_iff_succeed (returns : ∀ src tgt, r.Structural src tgt → ∃ ans,
      r.Answers lax (.object (.nominal src)) (.object (.nominal tgt)) ans) :
    (r.Memberwise lax (fun _ => True) ↔ ∀ src tgt, r.Structural src tgt →
      r.Answers lax (.object (.nominal src)) (.object (.nominal tgt)) true) ∧
    (r.Memberwise lax Distinct ↔ ∀ src tgt, r.Structural src tgt →
      r.Answers lax (.object (.nominal src)) (.object (.nominal tgt)) true) := by
  refine ⟨⟨?_,memberwise_of_succeed _⟩,⟨?_,memberwise_of_succeed _⟩⟩
  · intro memberwise src tgt structural
    exact succeed_of_memberwise memberwise trivial trivial structural (returns _ _ structural)
  · intro memberwise src tgt structural
    refine succeed_of_memberwise memberwise ?_ ?_ structural (returns _ _ structural)
    · simp [Distinct,staleSource,having,returning,Obj.identity]
    · simp [Distinct,staleTarget,having,returning,Obj.identity]

section Unrelated

open Outline in
/-- A class without properties, and a record type with one. -/
def unrelated : List Outline := [
  {name := "S", doc := {kind := some .constructor}},
  {name := "R", doc := {kind := some .record}, properties := [("x",named "number" [])]}]

def unrelatedRanks : Ranks where
  records _ := 0
  spaces id := if id = .global then 2 else 1
  calls _ := 0
  heights _ := 0

lemma unrelated_failed : (Outline.registry unrelated).Kinded ∧ (Outline.registry unrelated).Ranked unrelatedRanks ∧
    (Outline.registry unrelated).Structural ⟨⟨3⟩,[]⟩ ⟨⟨4⟩,[]⟩ ∧
    Lattice.isSubtype ⟨Outline.registry unrelated,false,2⟩ (.object (.nominal ⟨⟨3⟩,[]⟩))
      (.object (.nominal ⟨⟨4⟩,[]⟩)) = some false := by
  decide +kernel

/-- All comparisons in this registry come to an end, and one of them fails. -/
theorem memberwise_iff_succeed_unrelated : (∀ src tgt, (Outline.registry unrelated).Structural src tgt → ∃ ans,
      (Outline.registry unrelated).Answers false (.object (.nominal src))
        (.object (.nominal tgt)) ans) ∧ ¬(Outline.registry unrelated).Memberwise false Distinct := by
  have returns : ∀ src tgt, (Outline.registry unrelated).Structural src tgt →
      ∃ ans, (Outline.registry unrelated).Answers false (.object (.nominal src)) (.object (.nominal tgt)) ans :=
    fun _ _ _ => exists_answers unrelated_failed.1 unrelated_failed.2.1 false _ _
  obtain ⟨-,-,structural,failed⟩ := unrelated_failed
  refine ⟨returns,fun memberwise => ?_⟩
  have yes := (memberwise_iff_succeed returns).2.mp memberwise _ _ structural
  cases yes.unique ⟨2,failed⟩

/-- The class does not fit the record type, but it is taken to fit where it is compared for
the second time. -/
theorem stale_assumption_unrelated : Outline.Collects unrelated ∧
    Lattice.isSubtype {registry := Outline.registry unrelated, depth := 9}
      (.union (staleSource ⟨⟨3⟩,[]⟩)) (.union (staleTarget ⟨⟨4⟩,[]⟩)) = some true ∧
    ∀ b ∈ (staleTarget ⟨⟨4⟩,[]⟩).objects, Lattice.isSubtype {registry := Outline.registry unrelated, depth := 9}
        (.object (returning (.object (.nominal ⟨⟨3⟩,[]⟩)))) (.object b) = some false :=
  ⟨Outline.collects_of_quiet (by decide +kernel),by decide +kernel⟩

end Unrelated

end GradualJs.Registry
