import GradualJs.Proofs.Lattice.Depth

/-! Subtyping without a table. A type fits another if some relation that the rules allow says so;
then no question about the two is ever refused. What is granted, in turn, fits as far as the pairs
left in the table can be trusted. -/
namespace GradualJs

variable {src tgt : Instance}

namespace Relations
variable (r : Registry) (below : Relations) (lax : Bool)

lemma subtypeUnions_object (a b : Obj) : subtypeUnions r below lax {objects := [a]} {objects := [b]} =
      objectSubtype r below lax a b := by
  simp only [subtypeUnions,Query.allM_singleton,Query.anyM_singleton]
  simp

lemma within_union (depth : Nat) (lax : Bool) (u v : Union) :
    (within r (depth + 1)).subtype lax (.union u) (.union v) = subtypeUnions r (within r depth) lax u v :=
  rfl

lemma step_object (a b : Obj) : (step r fun _ => below).subtype lax (.object a) (.object b) =
      objectSubtype r below lax a b :=
  subtypeUnions_object r below lax a b

lemma within_object (depth : Nat) (lax : Bool) (a b : Obj) :
    (within r (depth + 1)).subtype lax (.object a) (.object b) = objectSubtype r (within r depth) lax a b :=
  step_object r (within r depth) lax a b

lemma objectSubtype_structural {r : Registry} (structural : r.Structural src tgt) (below : Relations) (lax : Bool) :
    objectSubtype r below lax (.nominal src) (.nominal tgt) = guarded r below lax src tgt := by
  simp only [objectSubtype,instanceSubtype,structural.notObject,structural.unreached, structural.record,if_false]
  rfl

end Relations

namespace Registry

variable (r : Registry) (lax : Bool)

def rules (fits : Ty → Ty → Prop) (resembles : Instance → Instance → Prop) : Premises := ⟨lax,r.Joins,fits,resembles⟩

/-- The properties of the source fit where those of the target are expected. -/
def Resembles (fits : Ty → Ty → Prop) (src tgt : Instance) : Prop :=
  (r.rules lax fits fun _ _ => True).FieldsFit (r.instanceFields src) false (r.instanceFields tgt) false

/-- The rules with every comparison by structure looked into. -/
def unfolded (fits : Ty → Ty → Prop) : Premises := r.rules lax fits (r.Resembles lax fits)
def Consistent (fits : Ty → Ty → Prop) : Prop := ∀ a b, fits a b → (r.unfolded lax fits).TypeFits r a b
def Fits (a b : Ty) : Prop := ∃ fits, r.Consistent lax fits ∧ fits a b

/-- The question about the two types is granted, in some run that ends with trusted pairs
only. -/
def Granted (trusted : NominalId × NominalId → Prop) (a b : Ty) : Prop :=
  ∃ assumed table, r.Ends lax a b assumed (true,table) ∧ ∀ pair ∈ table, trusted pair

variable {r lax}

lemma rules_implies (wider : ∀ a b, fits a b → fits' a b)
    (structural : ∀ src tgt, r.Structural src tgt → resembles src tgt → resembles' src tgt) :
    Premises.Implies r (r.rules lax fits resembles) (r.rules lax fits' resembles') :=
  ⟨id,fun _ _ _ => id,wider,structural⟩

lemma Resembles.mono (wider : ∀ a b, fits a b → fits' a b) (held : r.Resembles lax fits src tgt) :
    r.Resembles lax fits' src tgt := by
  refine Premises.FieldsFit.mono ?_ ?_ held
  · exact fun _ _ _ => id
  · exact wider

lemma unfolded_implies (wider : ∀ a b, fits a b → fits' a b) :
    Premises.Implies r (r.unfolded lax fits) (r.unfolded lax fits') :=
  rules_implies wider fun _ _ _ => Resembles.mono wider

lemma consistent_fits : r.Consistent lax (r.Fits lax) := by
  rintro a b ⟨fits,consistent,held⟩
  exact (unfolded_implies fun a b held => ⟨fits,consistent,held⟩).typeFits (consistent a b held)

/-- One level of a run, compared with the rules over what is below. -/
def survey (r : Registry) (depth : Nat) (trusted : NominalId × NominalId → Prop)
    (possible : Premises) : Survey Unit where
  lifting := .runs
  below _ := .within r depth
  lax := possible.lax
  trusted := trusted
  sure := r.rules possible.lax (r.Granted possible.lax trusted) fun src tgt =>
    trusted (src.id,tgt.id)
  possible := possible
  sure_lax := rfl
  possible_lax := rfl

/-- What the premises say of joins and of properties is all that runs find of them. -/
structure Covers (r : Registry) (p : Premises) : Prop where
  joins : ∀ a b t other, r.Joins a b t → p.joins a b other → other = t
  unfolds : ∀ src tgt, (r.nominal tgt.id).kind = .record → p.resembles src tgt →
    p.FieldsFit (r.instanceFields src) false (r.instanceFields tgt) false

lemma covers_unfolded : r.Covers (r.unfolded lax fits) where
  joins _ _ _ _ ended joined := joined.unique ended
  unfolds _ _ _ held := Premises.FieldsFit.mono (fun _ _ _ => id) (fun _ _ => id) held

lemma total_survey {p : Premises} (covers : r.Covers p) (granted : ∀ a b assumed ans,
      ((Relations.within r depth).subtype p.lax a b).run assumed = some ans →
        p.fits a b → ans.1 = true) : (r.survey depth trusted p).Total r where
  types a b := by
    intro assumed _ ans ended
    refine ⟨Ends.grows ⟨depth,ended⟩,fun trust yes => ?_,fun no held => ?_⟩
    · obtain ⟨answered,table⟩ := ans
      cases yes
      exact ⟨assumed,table,⟨depth,ended⟩,trust⟩
    · simp [granted a b assumed ans ended held] at no
  joins a b t ended := ⟨⟨depth,ended⟩,fun other => covers.joins a b t other ⟨depth,ended⟩⟩
  hit _ _ trust := trust
  unfolds src tgt _ := covers.unfolds src tgt

/-- A question is never refused if the rules over a consistent relation hold. -/
lemma Covers.never_refused {p : Premises} (covers : r.Covers p) (consistent : ∀ a b, p.fits a b → p.TypeFits r a b)
    (ends : r.Ends p.lax a b assumed ans) (held : p.TypeFits r a b) : ans.1 = true := by
  obtain ⟨depth,ended⟩ := ends
  induction depth generalizing a b assumed ans with
  | zero => cases ended
  | succ depth ih =>
    have total : (r.survey depth (fun _ => True) p).Total r :=
      total_survey covers fun a b assumed ans ended held => ih (consistent a b held) ended
    have verdict := total.asks_step [] a b assumed (List.nil_subset _) ans ended
    by_contra refused
    exact verdict.complete (by simpa using refused) held

lemma total_survey_granted (r : Registry) (lax : Bool) (depth : Nat) (trusted : NominalId × NominalId → Prop) :
    (r.survey depth trusted (r.unfolded lax fun _ _ => False)).Total r :=
  total_survey covers_unfolded fun _ _ _ _ _ impossible => impossible.elim

lemma Granted.typeFits (granted : r.Granted lax trusted a b) : (r.rules lax (r.Granted lax trusted) fun src tgt =>
      trusted (src.id,tgt.id)).TypeFits r a b := by
  obtain ⟨assumed,table,⟨depth,ended⟩,trust⟩ := granted
  cases depth with
  | zero => cases ended
  | succ depth =>
    have total := r.total_survey_granted lax depth trusted
    exact (total.asks_step [] a b assumed (List.nil_subset _) _ ended).sound trust rfl

/-- A fresh comparison by structure puts its pair in the table and looks at the
properties. -/
lemma Ends.explored (structural : r.Structural src tgt)
    (ends : r.Ends lax (.object (.nominal src)) (.object (.nominal tgt)) [] ans) :
    (src.id,tgt.id) ∈ ans.2 ∧ ∀ trusted, (∀ pair ∈ ans.2, trusted pair) →
      ans.1 = true → r.Resembles lax (r.Granted lax trusted) src tgt := by
  obtain ⟨depth,ended⟩ := ends
  cases depth with
  | zero => cases ended
  | succ depth =>
    rw [Relations.within_object,Relations.objectSubtype_structural structural] at ended
    have verdict (trusted : NominalId × NominalId → Prop) :=
      Survey.asks_structural false false
        (fun expected _ => (r.total_survey_granted lax depth trusted).asksField _ expected)
        _ (List.Subset.refl _) ans ended
    refine ⟨(verdict fun _ => True).grows (by simp),fun trusted trust yes => ?_⟩
    exact Premises.FieldsFit.mono (fun _ _ _ => id) (fun _ _ => id) ((verdict trusted).sound trust yes)

end Registry
end GradualJs
