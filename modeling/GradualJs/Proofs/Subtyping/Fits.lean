import GradualJs.Proofs.Subtyping.Unfolding

/-! What fits. The largest consistent relation is a fixed point of the rules. A question about types
that fit is never refused. Conversely a question that is granted is right where no comparison by
structure is left in the table, or none that would not hold for all arguments. -/
namespace GradualJs

variable {v w : Union}

lemma PrimitiveSet.contains_union {set a b : PrimitiveSet} (left : set.contains a = true)
    (right : set.contains b = true) : set.contains (a.union b) = true := by
  have distributes : set.inter (a.union b) = (set.inter a).union (set.inter b) := by
    simp [inter,union,zipWith,Bool.and_or_distrib_left]
  simp only [contains,decide_eq_true_eq] at left right ⊢
  rw [distributes,left,right]

@[simp] lemma PrimitiveSet.contains_none (set : PrimitiveSet) : set.contains {} = true := by
  simp [contains,inter,zipWith]

namespace Registry

variable {r : Registry} {a : Ty}

def FitsObject (r : Registry) (lax : Bool) (a b : Obj) : Prop := (r.unfolded lax (r.Fits lax)).ObjectFits r a b

lemma fits_iff : r.Fits lax a b ↔ (r.unfolded lax (r.Fits lax)).TypeFits r a b := by
  refine ⟨consistent_fits a b,fun held => ?_⟩
  let related (s t : Ty) : Prop := r.Fits lax s t ∨ s = a ∧ t = b
  refine ⟨related,?_,.inr ⟨rfl,rfl⟩⟩
  rintro s t (fits | ⟨rfl,rfl⟩)
  · exact (unfolded_implies fun _ _ => .inl).typeFits (consistent_fits s t fits)
  · exact (unfolded_implies fun _ _ => .inl).typeFits held

/-- A relation is right if the rules hold of it, with everything that fits for what is below. -/
lemma fits_of_consistent (related : Ty → Ty → Prop) (consistent : ∀ a b, related a b →
      (r.unfolded lax fun a b => r.Fits lax a b ∨ related a b).TypeFits r a b)
    (held : related a b) : r.Fits lax a b := by
  refine ⟨fun a b => r.Fits lax a b ∨ related a b,?_,.inr held⟩
  rintro a b (fits | held)
  · exact (unfolded_implies fun _ _ => .inl).typeFits (consistent_fits a b fits)
  · exact consistent a b held

@[simp] lemma bottom_fits : r.Fits lax .bottom b := fits_iff.mpr trivial

@[simp] lemma fits_top : r.Fits lax a .top := by
  refine fits_iff.mpr ?_
  cases a <;> trivial

@[simp] lemma fits_unknown : r.Fits lax a .unknown := by
  refine fits_iff.mpr ?_
  cases a <;> trivial

@[simp] lemma unknown_fits : r.Fits lax .unknown b := by
  refine fits_iff.mpr ?_
  cases b <;> trivial

lemma fits_union : r.Fits lax (.union u) (.union v) ↔ (r.unfolded lax (r.Fits lax)).UnionFits r u v := fits_iff

lemma fits_object : r.Fits lax (.object x) (.object y) ↔ r.FitsObject lax x y := fits_iff.trans Premises.typeFits_object

lemma fits_of_object (mem : y ∈ v.objects) (fits : r.FitsObject lax x y) : r.Fits lax (.object x) (.union v) := by
  refine fits_union.mpr ⟨by simp,by simp,by simp,fun z eq => ?_⟩
  rw [List.mem_singleton.mp eq]
  exact ⟨y,mem,fits⟩

lemma Fits.either (fits : r.Fits false a b) : r.Fits lax a b := by
  refine ⟨r.Fits false,fun s t held => ?_,fits⟩
  have implies : Premises.Implies r (r.unfolded false (r.Fits false)) (r.unfolded lax (r.Fits false)) :=
    ⟨nofun,fun _ _ _ => id,fun _ _ => id,fun _ _ _ held =>
      Premises.FieldsFit.mono (fun _ _ _ => id) (fun _ _ => id) held⟩
  exact implies.typeFits (consistent_fits s t held)

lemma Fits.granted (fits : r.Fits lax a b) (ends : r.Ends lax a b assumed ans) : ans.1 = true :=
  covers_unfolded.never_refused consistent_fits ends (fits_iff.mp fits)

/-- Whatever the depth, a question about types that fit is answered with yes. -/
lemma Fits.isSubtype (fits : r.Fits lax a b)
    (returned : Lattice.isSubtype ⟨r,lax,depth⟩ a b = some ans) : ans = true := by
  obtain ⟨table,ends⟩ := answers_iff.mp ⟨depth,returned⟩
  exact fits.granted ends

/-- A question that is granted is right if every pair left in the table is. -/
lemma Granted.fits (right : ∀ pair, trusted pair → r.PairFits lax pair)
    (granted : r.Granted lax trusted a b) : r.Fits lax a b := by
  refine fits_of_consistent (r.Granted lax trusted) (fun a b granted => ?_) granted
  refine (rules_implies (fun _ _ => .inr) fun src tgt structural held => ?_).typeFits granted.typeFits
  exact ((right _ held).resembles structural rfl).mono fun _ _ => .inl

/-- A question that compares nothing by structure is granted only if the types fit. -/
lemma fits_of_ends (ends : r.Ends lax a b assumed (true,[])) : r.Fits lax a b := by
  have granted : r.Granted lax (fun _ => False) a b := ⟨assumed,[],ends,by simp⟩
  exact granted.fits fun _ => False.elim

def Recordless (r : Registry) : Prop := ∀ id, (r.nominal id).kind ≠ .record

/-- Without record types nothing is compared by structure under a name. -/
lemma Recordless.fits (recordless : r.Recordless) (ends : r.Ends lax a b assumed (true,table)) : r.Fits lax a b := by
  have granted : r.Granted lax (fun _ => True) a b := ⟨assumed,table,ends,by simp⟩
  refine granted.fits fun _ _ src tgt structural => ?_
  exact absurd structural.record (recordless tgt.id)

lemma subtypeStep_plain (r : Registry) (lax : Bool) (b : Ty) (plain : a.Plain) : ∃ ans, ∀ below assumed,
      (Relations.subtypeStep r below lax a b).run assumed = some (ans,assumed) := by
  cases a with
  | bottom => exact ⟨true,fun _ _ => rfl⟩
  | top | unknown => cases b <;> exact ⟨_,fun _ _ => rfl⟩
  | union u =>
    cases b with
    | bottom | top | unknown => exact ⟨_,fun _ _ => rfl⟩
    | union v =>
      obtain ⟨enums,objects⟩ := plain
      simp only [Relations.subtypeStep,Relations.subtypeUnions,enums,objects]
      split
      · exact ⟨_,fun _ _ => rfl⟩
      · split
        · exact ⟨_,fun _ _ => rfl⟩
        · exact ⟨_,fun _ _ => rfl⟩

lemma fits_of_plain (plain : a.Plain) (ends : r.Ends lax a b assumed (true,table)) : r.Fits lax a b := by
  obtain ⟨depth,ended⟩ := ends
  cases depth with
  | zero => cases ended
  | succ depth =>
    obtain ⟨ans,eq⟩ := subtypeStep_plain r lax b plain
    have equal : (ans,assumed) = (true,table) := Option.some.inj ((eq _ assumed).symm.trans ended)
    cases equal
    exact fits_of_ends ⟨depth + 1,eq _ []⟩

/-- An enum whose values are found to fit has values that fit. -/
def Backed (r : Registry) : Prop := ∀ ⦃id b assumed table⦄,
  r.Ends false (r.enumBacking id) b assumed (true,table) → r.Fits false (r.enumBacking id) b

lemma Kinded.backed (kinded : r.Kinded) : r.Backed := fun id _ _ _ => fits_of_plain (kinded.enumBacking id)

/-- An enum that is found to fit a union is one of its enums, or the union covers its values. -/
lemma fits_of_enumMember (kinded : r.Kinded) {id : EnumId}
    (granted : Lattice.isSubtype ⟨r,lax,depth⟩ (.enumMember id) (.union v) = some true) :
    v.enums.contains id = true ∨ r.Fits lax (r.enumBacking id) (.union v) := by
  obtain ⟨table,ends⟩ := answers_iff.mp ⟨depth,granted⟩
  have granted : r.Granted lax (fun _ => True) (.enumMember id) (.union v) := ⟨[],table,ends,by simp⟩
  rcases granted.typeFits.enums id (by simp) with inV | ⟨assumed,table,backed,-⟩
  · exact .inl inV
  · exact .inr (fits_of_plain (kinded.enumBacking id) backed)

/-- The second union has all members of the first, or covers the enums that it lacks. -/
structure Widens (r : Registry) (lax : Bool) (v w : Union) : Prop where
  primitives : w.primitives.contains v.primitives
  vars : v.vars ⊆ w.vars
  enums : ∀ id ∈ v.enums, id ∈ w.enums ∨ r.Fits lax (r.enumBacking id) (.union w)
  objects : v.objects ⊆ w.objects

lemma Widens.refl (v : Union) : r.Widens lax v v := ⟨by simp,List.Subset.refl _,fun _ => .inl,List.Subset.refl _⟩

/-- A union that fits also fits a wider one, and what it rests on stays as it is but for enums. -/
lemma Widens.unionFits (widens : r.Widens lax v w) (more : ∀ a b, fits a b → wider a b)
    (covered : ∀ a, r.Fits lax a (.union w) → wider a (.union w))
    (enums : ∀ a, fits a (.union v) → wider a (.union w))
    (held : (r.unfolded lax fits).UnionFits r u v) : (r.unfolded lax wider).UnionFits r u w where
  primitives := PrimitiveSet.contains_trans widens.primitives held.primitives
  vars := by
    simp only [List.all_eq_true,List.contains_iff_mem] at *
    exact fun name mem => widens.vars (by simpa using List.all_eq_true.mp held.vars name mem)
  enums id mem := by
    rcases held.enums id mem with inV | below
    · rcases widens.enums id (by simpa using inV) with inW | backed
      · exact .inl (by simpa using inW)
      · exact .inr (covered _ backed)
    · exact .inr (enums _ below)
  objects o mem := by
    obtain ⟨p,inV,below⟩ := held.objects o mem
    exact ⟨p,widens.objects inV,(unfolded_implies more).objectFits below⟩

lemma Fits.widen (fits : r.Fits lax a (.union v)) (widens : r.Widens lax v w) : r.Fits lax a (.union w) := by
  refine fits_of_consistent (fun a b => ∃ v w, r.Widens lax v w ∧ r.Fits lax a (.union v) ∧ b = .union w)
    ?_ ⟨v,w,widens,fits,rfl⟩
  rintro a b ⟨v,w,widens,fits,rfl⟩
  cases a with
  | bottom | unknown => trivial
  | top => exact (fits_iff.mp fits).elim
  | union u =>
    exact widens.unionFits (fun _ _ => .inl) (fun _ => .inl)
      (fun a held => .inr ⟨v,w,widens,held,rfl⟩) (fits_union.mp fits)

lemma Widens.trans (first : r.Widens lax u v) (second : r.Widens lax v w) : r.Widens lax u w where
  primitives := PrimitiveSet.contains_trans second.primitives first.primitives
  vars := List.Subset.trans first.vars second.vars
  enums id mem := by
    rcases first.enums id mem with inV | backed
    · exact second.enums id inV
    · exact .inr (backed.widen second)
  objects := List.Subset.trans first.objects second.objects

end Registry
end GradualJs
