import GradualJs.Proofs.Declarations.Kinds
import GradualJs.Proofs.Lattice.Bounds

/-! Meets are lower bounds as far as their objects are. A meet combines what two unions have in
common as a join does, and what comes of that may fit on neither side. -/
namespace GradualJs

open List Relations Outline Option

variable {a b : Ty} {x y z : Record}

namespace Registry

variable {r : Registry}

lemma Meets.unique (first : r.Meets lax a b t) (second : r.Meets lax a b t') : t = t' := by
  obtain ⟨depth,ended⟩ := first
  obtain ⟨depth',ended'⟩ := second
  exact (compatible_within depth').meet depth lax a b t t' ended ended' |>.symm

section Kindred

lemma meetArgs_eq_some (ended : meetInstances.meetArgs (.within r depth) lax pairs = some (some args)) :
    Forall₂ (fun pair arg => r.Meets lax pair.1 pair.2 arg) pairs args := by
  induction pairs generalizing args with
  | nil =>
    cases ended
    exact .nil
  | cons pair rest ih =>
    simp only [meetInstances.meetArgs,bind_eq_bind,bind_eq_some_iff] at ended
    obtain ⟨arg,first,ended⟩ := ended
    split at ended
    · cases ended
    · obtain ⟨found,later,eq⟩ := bind_eq_some_iff.mp ended
      obtain ⟨others,rfl,rfl⟩ := map_eq_some_iff.mp (some.inj eq)
      exact .cons ⟨depth,first⟩ (ih later)

lemma fits_meetInstances {x y z : Instance} (eq : x.id = y.id)
    (ended : meetInstances (.within r depth) lax x y = some (some z))
    (bounded : ∀ pair ∈ padArgs x.args y.args, ∀ t ∈ z.args, r.Meets lax pair.1 pair.2 t →
      r.Fits lax t pair.1 ∧ r.Fits lax t pair.2) :
    r.FitsObject lax (.nominal z) (.nominal x) ∧ r.FitsObject lax (.nominal z) (.nominal y) := by
  obtain ⟨found,met,eq'⟩ := bind_eq_some_iff.mp ended
  obtain ⟨args,rfl,rfl⟩ := map_eq_some_iff.mp (some.inj eq')
  have related := forall₂_members (meetArgs_eq_some met)
  refine ⟨.inr ?_,.inr ?_⟩
  · simp only [Premises.InstanceFits,upcast,if_true]
    exact padArgs_left related
      (fun pair arg held => (bounded pair held.1 arg held.2.1 held.2.2).1) fun _ => fits_unknown
  · simp only [Premises.InstanceFits,upcast,eq,if_true]
    exact padArgs_right related
      (fun pair arg held => (bounded pair held.1 arg held.2.1 held.2.2).2) fun _ => fits_unknown

/-- What a property of the left record becomes in a meet. -/
def MetField (r : Registry) (lax : Bool) (y : Record) (f h : Field) : Prop :=
  h.name = f.name ∧ match Field.find? y.fields f.name with
    | some g => r.Meets lax f.type g.type h.type ∧ h.optional = (f.optional && g.optional)
    | none => h = f

lemma meetFields_eq_some (ended : meetFields (.within r depth) lax y fields = some (some left)) :
    Forall₂ (r.MetField lax y) fields left := by
  induction fields generalizing left with
  | nil =>
    cases ended
    exact .nil
  | cons f rest ih =>
    have extended {field : Field} (related : r.MetField lax y f field)
        (ended : (do return (← meetFields (.within r depth) lax y rest).map (field :: ·)) =
          some (some left)) : Forall₂ (r.MetField lax y) (f :: rest) left := by
      obtain ⟨found,later,eq⟩ := bind_eq_some_iff.mp ended
      obtain ⟨others,rfl,rfl⟩ := map_eq_some_iff.mp (some.inj eq)
      exact .cons related (ih later)
    simp only [meetFields] at ended
    cases found : Field.find? y.fields f.name with
    | none =>
      simp only [found] at ended
      split at ended
      · cases ended
      · exact extended (by simp [MetField,found]) ended
    | some g =>
      simp only [found] at ended
      obtain ⟨type,met,ended⟩ := bind_eq_some_iff.mp ended
      split at ended
      · cases ended
      · refine extended ?_ ended
        simpa [MetField,found] using ⟨depth,met⟩

lemma meetRecords_eq_some (ended : meetRecords (.within r depth) lax x y = some (some z)) :
    ∃ left, Forall₂ (r.MetField lax y) x.fields left ∧
      z.fields = left ++ y.fields.filter fun g => (Field.find? x.fields g.name).isNone := by
  obtain ⟨found,met,ended⟩ := bind_eq_some_iff.mp ended
  cases found with
  | none => cases ended
  | some left =>
    simp only at ended
    split at ended
    · cases ended
    · cases ended
      exact ⟨left,meetFields_eq_some met,rfl⟩

lemma fits_meetRecords (kinded : r.Kinded) (normalX : r.NormalObject (.record x)) (normalY : r.NormalObject (.record y))
    (ended : meetRecords (.within r depth) lax x y = some (some z))
    (bounded : ∀ pair ∈ x.shared y, ∀ t ∈ z.fields.map (·.type), r.Meets lax pair.1 pair.2 t →
      r.Fits lax t pair.1 ∧ r.Fits lax t pair.2) :
    r.FitsObject lax (.record z) (.record x) ∧ r.FitsObject lax (.record z) (.record y) := by
  obtain ⟨left,related,fields⟩ := meetRecords_eq_some ended
  have .record distinctX partsX := normalX
  have .record distinctY partsY := normalY
  have inside {name : String} {h : Field} (found : Field.find? z.fields name = some h) :
      h.type ∈ z.fields.map (·.type) := mem_map.mpr ⟨h,Field.find?_mem found,rfl⟩
  -- A property of the left record has become one of `left`, found under its name.
  have fromLeft (f : Field) (mem : f ∈ x.fields) :
      ∃ h, Field.find? z.fields f.name = some h ∧ r.MetField lax y f h := by
    have both := find?_forall₂ related (fun _ _ held => held.1) f.name
    rw [find?_of_nodup distinctX mem] at both
    cases found : Field.find? left f.name with
    | none =>
      rw [found] at both
      cases both
    | some h =>
      rw [found] at both
      cases both with
      | some held =>
        refine ⟨h,?_,held⟩
        rw [fields,find?_append,found]
        rfl
  refine ⟨fits_of_fields kinded normalX fun f mem => ?_,fits_of_fields kinded normalY fun g mem => ?_⟩
  · obtain ⟨h,found,-,held⟩ := fromLeft f mem
    simp only [found]
    cases other : Field.find? y.fields f.name with
    | none =>
      rw [other] at held
      cases held
      exact ⟨id,(partsX f mem).fits_self kinded⟩
    | some g =>
      rw [other] at held
      obtain ⟨met,optional⟩ := held
      refine ⟨fun yes => ?_,(bounded _ (mem_shared mem other) _ (inside found) met).1⟩
      rw [optional,Bool.and_eq_true] at yes
      exact yes.1
  · cases other : Field.find? x.fields g.name with
    | none =>
      have fresh : Field.find? left g.name = none := by
        have both := find?_forall₂ related (fun _ _ held => held.1) g.name
        rw [other] at both
        cases found : Field.find? left g.name with
        | none => rfl
        | some h =>
          rw [found] at both
          cases both
      have kept : g ∈ y.fields.filter fun g => (Field.find? x.fields g.name).isNone :=
        mem_filter.mpr ⟨mem,by simp [other]⟩
      have own := find?_of_nodup (distinctY.sublist (filter_sublist.map _)) kept
      rw [fields,find?_append,fresh,own]
      exact ⟨id,(partsY g mem).fits_self kinded⟩
    | some f =>
      have named := find?_name other
      obtain ⟨h,found,-,held⟩ := fromLeft f (Field.find?_mem other)
      have own : Field.find? y.fields f.name = some g := named ▸ find?_of_nodup distinctY mem
      rw [own] at held
      obtain ⟨met,optional⟩ := held
      rw [← named,found]
      refine ⟨fun yes => ?_,(bounded _ (mem_shared (Field.find?_mem other) own) _ (inside found) met).2⟩
      rw [optional,Bool.and_eq_true] at yes
      exact yes.2

lemma fits_meetObjects (kinded : r.Kinded) {x y z : Obj} (normalX : r.NormalObject x)
    (normalY : r.NormalObject y) (alike : x.kindred y) (meets : r.MeetsObject lax x y z)
    (bounded : ∀ pair ∈ x.metParts y, ∀ t ∈ z.parts, r.Meets lax pair.1 pair.2 t →
      r.Fits lax t pair.1 ∧ r.Fits lax t pair.2) :
    r.FitsObject lax z x ∧ r.FitsObject lax z y := by
  obtain ⟨depth,ended⟩ := meets
  cases x with
  | nominal x =>
    cases y with
    | nominal y =>
      have eq : x.id = y.id := by simpa [Obj.kindred] using alike
      simp only [meetObjects,eq,if_true] at ended
      obtain ⟨found,met,kept⟩ := map_eq_some_iff.mp ended
      obtain ⟨i,rfl,rfl⟩ := map_eq_some_iff.mp kept
      exact fits_meetInstances eq met bounded
    | record _ | function _ | namespaceValue _ => cases alike
  | record x =>
    cases y with
    | record y =>
      obtain ⟨found,met,kept⟩ := map_eq_some_iff.mp ended
      obtain ⟨i,rfl,rfl⟩ := map_eq_some_iff.mp kept
      exact fits_meetRecords kinded normalX normalY met bounded
    | nominal _ | function _ | namespaceValue _ => cases alike
  | function f =>
    cases y with
    | function g =>
      have eq : Ty.sameFunction f g = true := alike
      simp only [meetObjects,eq,if_true,some.injEq] at ended
      subst ended
      have objects : Ty.sameObject (.function f) (.function g) = true := by
        simpa [Ty.sameObject] using eq
      exact ⟨normalX.fits_self kinded,AlikeObject.fits kinded ⟨normalX,normalY,.inr (.inl objects)⟩⟩
    | nominal _ | record _ | namespaceValue _ => cases alike
  | namespaceValue id =>
    cases y with
    | namespaceValue other =>
      obtain rfl : id = other := by simpa [Obj.kindred] using alike
      simp only [meetObjects,if_true,some.injEq] at ended
      subst ended
      exact ⟨normalX.fits_self kinded,normalY.fits_self kinded⟩
    | nominal _ | record _ | function _ => cases alike

end Kindred

section Unions

variable {u v w : Union}

structure MetUnion (r : Registry) (lax : Bool) (depth : Nat) (u v w : Union) : Prop where
  primitives : w.primitives = u.primitives.inter v.primitives
  vars : w.vars = u.vars.filter v.vars.contains
  enums : ∀ id ∈ w.enums, (id ∈ u.enums ∧ (id ∈ v.enums ∨
      Lattice.isSubtype ⟨r,lax,depth⟩ (.enumMember id) (.union v) = some true)) ∨
    (id ∈ v.enums ∧ Lattice.isSubtype ⟨r,lax,depth⟩ (.enumMember id) (.union u) = some true)
  origins : ∀ z ∈ w.objects, ∃ x ∈ u.objects, ∃ y ∈ v.objects, ∃ m, r.MeetsObject lax x y m ∧ r.Becomes m z

lemma meetUnions_eq_some (ended : meetUnions r (.within r depth) lax u v = some t) :
    ∃ w, t = .ofUnion w ∧ r.MetUnion lax depth u v w := by
  simp only [meetUnions,bind_eq_bind,bind_eq_some_iff] at ended
  obtain ⟨left,filteredLeft,right,filteredRight,met,mapped,objects,normalized,eq⟩ := ended
  obtain ⟨rfl,-⟩ := filterM_eq_some filteredLeft
  obtain ⟨rfl,-⟩ := filterM_eq_some filteredRight
  refine ⟨_,(some.inj eq).symm,rfl,rfl,fun id mem => ?_,fun z mem => ?_⟩
  · simp only [mem_stableSort,mem_append,mem_filter,decide_eq_true_eq] at mem
    rcases mem with ⟨inU,kept⟩ | ⟨inV,kept⟩
    · refine .inl ⟨inU,?_⟩
      split at kept
      · rename_i inV
        exact .inl (by simpa using inV)
      · exact .inr kept
    · split at kept
      · cases kept
      · exact .inr ⟨inV,kept⟩
  · obtain ⟨m,inMet,becomes⟩ := (becomes_normalized normalized).2 z mem
    obtain ⟨row,inRows,inRow⟩ := mem_flatten.mp inMet
    obtain ⟨x,inU,filtered⟩ := forall₂_mem (forall₂_of_mapM mapped).flip row inRows
    obtain ⟨y,inV,asked⟩ := mem_filterMap.mp ((filterMapM_eq_some filtered).1 ▸ inRow)
    exact ⟨x,inU,y,inV,m,⟨depth,join_eq_some_iff.mp asked⟩,becomes⟩

lemma MetUnion.fits (kinded : r.Kinded) (parts : r.MetUnion lax depth u v w)
    (objects : ∀ z ∈ w.objects, r.Fits lax (.object z) (.union u) ∧ r.Fits lax (.object z) (.union v)) :
    r.Fits lax (.ofUnion w) (.union u) ∧ r.Fits lax (.ofUnion w) (.union v) := by
  have inLeft (a b : PrimitiveSet) : a.contains (a.inter b) := by
    have absorbed (x y : Bool) : (x && (x && y)) = (x && y) := by cases x <;> simp
    simp [PrimitiveSet.contains,PrimitiveSet.inter,PrimitiveSet.zipWith,absorbed]
  have inRight (a b : PrimitiveSet) : b.contains (a.inter b) := by
    have absorbed (x y : Bool) : (y && (x && y)) = (x && y) := by cases x <;> cases y <;> rfl
    simp [PrimitiveSet.contains,PrimitiveSet.inter,PrimitiveSet.zipWith,absorbed]
  have below (side : Union) (primitives : side.primitives.contains w.primitives)
      (vars : ∀ name ∈ w.vars, name ∈ side.vars)
      (enums : ∀ id ∈ w.enums, id ∈ side.enums ∨
        Lattice.isSubtype ⟨r,lax,depth⟩ (.enumMember id) (.union side) = some true)
      (objects : ∀ z ∈ w.objects, r.Fits lax (.object z) (.union side)) :
      r.Fits lax (.ofUnion w) (.union side) := by
    unfold Ty.ofUnion
    split
    · exact bottom_fits
    · refine fits_union.mpr ⟨primitives,?_,fun id mem => ?_,fun z mem => ?_⟩
      · exact all_eq_true.mpr fun name mem => by simpa using vars name mem
      · rcases enums id mem with own | granted
        · exact .inl (by simpa using own)
        · exact fits_of_enumMember kinded granted
      · exact (fits_union.mp (objects z mem)).objects z (by simp)
  have varsBoth (name : String) (mem : name ∈ w.vars) : name ∈ u.vars ∧ name ∈ v.vars := by
    simpa [parts.vars] using mem
  constructor
  · refine below u (parts.primitives ▸ inLeft _ _) (fun name mem => (varsBoth name mem).1)
      (fun id mem => ?_) fun z mem => (objects z mem).1
    exact (parts.enums id mem).imp And.left And.right
  · refine below v (parts.primitives ▸ inRight _ _) (fun name mem => (varsBoth name mem).2)
      (fun id mem => ?_) fun z mem => (objects z mem).2
    rcases parts.enums id mem with ⟨-,covered⟩ | ⟨inV,-⟩
    · exact covered
    · exact .inl inV

end Unions

/-- A meet is below both sides if whatever is combined again on the way is. -/
lemma fits_meet (kinded : r.Kinded) (normalA : r.Normal a) (normalB : r.Normal b)
    (meets : r.Meets lax a b t) (apart : ∀ q, r.Leads (.meet lax a b) q → r.Apart q) :
    r.Fits lax t a ∧ r.Fits lax t b := by
  -- What meets inside ends up inside the result, so the induction is on the size of the result.
  induction size : sizeOf t using Nat.strong_induction_on generalizing a b t with
  | _ n ih =>
  obtain ⟨depth,ended⟩ := id meets
  cases depth with
  | zero => cases ended
  | succ depth =>
    replace ended : meetStep r (.within r depth) lax a b = some t := ended
    have selfA : r.Fits lax a a := normalA.fits_self kinded
    have selfB : r.Fits lax b b := normalB.fits_self kinded
    cases a with
    | bottom =>
      cases ended
      simp
    | top | unknown => cases b <;> cases ended <;> simp [selfB]
    | union u =>
      cases b with
      | bottom =>
        cases ended
        simp
      | top | unknown =>
        cases ended
        simp [selfA]
      | union v =>
        obtain ⟨w,rfl,parts⟩ := meetUnions_eq_some ended
        refine parts.fits kinded fun z mem => ?_
        have inMeet : z ∈ (Ty.ofUnion w).objects := by rwa [objects_ofUnion]
        by_cases once : ∃ x ∈ u.objects, ∃ y ∈ v.objects, r.MeetsAtOnce lax x y z
        · obtain ⟨x,inU,y,inV,once⟩ := once
          have normalX := normalA.objects x inU
          have normalY := normalB.objects y inV
          rcases once with ⟨kin,met⟩ | ⟨rfl,plainly⟩ | ⟨rfl,plainly⟩
          · have fits := fits_meetObjects kinded normalX normalY kin met fun pair inParts t inside meetsPart => by
                obtain ⟨first,second⟩ := normalX.metParts normalY inParts
                have smaller : sizeOf t < n := size ▸ Obj.sizeOf_part inMeet inside
                refine ih _ smaller first second meetsPart (fun q leads => apart q (.head ?_ leads)) rfl
                exact .meet meets inU inV inMeet kin met inParts
            exact ⟨fits_of_object inU fits.1,fits_of_object inV fits.2⟩
          · exact ⟨fits_of_object inU (normalX.fits_self kinded),fits_of_object inV plainly.fits⟩
          · exact ⟨fits_of_object inU plainly.fits,fits_of_object inV (normalY.fits_self kinded)⟩
        · obtain ⟨x,inU,y,inV,m,met,becomes⟩ := parts.origins z mem
          exact apart _ .refl _ meets z inMeet x inU y inV m met becomes once

lemma Leads.meet (leads : r.Leads (.meet lax a b) q) : ∃ s t, q = .meet lax s t := by
  induction leads with
  | refl => exact ⟨a,b,rfl⟩
  | tail _ part ih =>
    obtain ⟨s,t,rfl⟩ := ih
    cases part
    exact ⟨_,_,rfl⟩

/-- Meets inside a meet of normal types are all below both sides exactly if no object that is
combined again on the way does harm. Then every question whether the meet fits on one of the
sides is answered with yes. -/
theorem meet_lowerBound_iff {program : Program} {externs : Option Program} {legacy : Bool} {decls : Declarations}
    (collected : Declarations.collect program externs legacy = some decls)
    (lax : Bool) {a b : Ty} (normalA : decls.registry.Normal a)
    (normalB : decls.registry.Normal b) :
    ((∀ q, decls.registry.Leads (.meet lax a b) q → decls.registry.Bounded q) ↔
      ∀ q, decls.registry.Leads (.meet lax a b) q → decls.registry.Apart q) ∧
    ((∀ q, decls.registry.Leads (.meet lax a b) q → decls.registry.Apart q) →
      ∀ depth t, Lattice.meet ⟨decls.registry,lax,depth⟩ a b = some t → ∀ depth ans,
        (Lattice.isSubtype ⟨decls.registry,lax,depth⟩ t a = some ans → ans = true) ∧
        (Lattice.isSubtype ⟨decls.registry,lax,depth⟩ t b = some ans → ans = true)) := by
  have kinded := Declarations.collect_kinded collected
  have regular : decls.registry.Regular (.meet lax a b) := ⟨normalA,normalB⟩
  refine ⟨⟨fun bounded q leads => (bounded q leads).apart,fun apart q leads => ?_⟩,?_⟩
  · obtain ⟨s,t,rfl⟩ := leads.meet
    obtain ⟨normalS,normalT⟩ := leads.regular regular
    exact fun met meets =>
      fits_meet kinded normalS normalT meets fun q further => apart q (leads.trans further)
  · intro apart depth t ended depth' ans
    obtain ⟨left,right⟩ := fits_meet kinded normalA normalB ⟨depth,ended⟩ apart
    exact ⟨left.isSubtype,right.isSubtype⟩

section Siblings

/-- Two classes with a common superclass, each with an interface of its own. -/
def siblings : List Outline := [
  {name := "P", doc := {kind := some .constructor}},
  {name := "I", doc := {kind := some .interface}},
  {name := "J", doc := {kind := some .interface}},
  {name := "A", doc := {kind := some .constructor, supertypes := [named "P" []],
                          interfaces := [named "I" []]}},
  {name := "B", doc := {kind := some .constructor, supertypes := [named "P" []],
                          interfaces := [named "J" []]}}]

def labelled : Ty := .union {objects := [.nominal ⟨⟨4⟩,[]⟩,
  .record {fields := [{name := "p", type := .primitive (.union .numberOnly .stringOnly)}]}]}

def marked : Ty := .union {objects := [.nominal ⟨⟨6⟩,[]⟩,
  .record {fields := [{name := "p", type := .number},{name := "q", type := .boolean}]}]}

def crossedLeft : Ty := .union {objects := [.nominal ⟨⟨5⟩,[]⟩,.nominal ⟨⟨6⟩,[]⟩]}
def crossedRight : Ty := .union {objects := [.nominal ⟨⟨4⟩,[]⟩,.nominal ⟨⟨7⟩,[]⟩]}

def Crossing : Prop :=
  (Lattice.normalize ⟨registry siblings,false,3⟩ crossedLeft.objects = some crossedLeft.objects ∧
  Lattice.normalize ⟨registry siblings,false,3⟩ crossedRight.objects = some crossedRight.objects) ∧
  Lattice.meet ⟨registry siblings,false,9⟩ crossedLeft crossedRight = some (.nominal ⟨3⟩ []) ∧
  Lattice.isSubtype ⟨registry siblings,false,9⟩ (.nominal ⟨3⟩ []) crossedLeft = some false ∧
  Lattice.isSubtype ⟨registry siblings,false,9⟩ (.nominal ⟨3⟩ []) crossedRight = some false

instance : Decidable Crossing := inferInstanceAs (Decidable (_ ∧ _))

lemma leads_labelled (leads : (registry siblings).Leads (.meet false labelled marked) q) :
    q = .meet false labelled marked ∨ q = .meet false (.primitive (.union .numberOnly .stringOnly)) .number := by
  induction leads with
  | refl => exact .inl rfl
  | tail _ part ih =>
    rcases ih with rfl | rfl
    · cases part with
      | @meet _ _ _ _ x y _ pair _ inA inB _ kin _ inParts =>
        simp only [labelled,marked,Ty.objects,mem_cons,not_mem_nil,or_false] at inA inB
        rcases inA with rfl | rfl <;> rcases inB with rfl | rfl
        · simp [Obj.kindred] at kin
        · simp [Obj.kindred] at kin
        · simp [Obj.kindred] at kin
        · simp only [Obj.metParts,Record.shared,Field.find?] at inParts
          simp at inParts
          exact .inr (by simp [inParts])
    · cases part with
      | meet _ inA => simp [Ty.primitive,objects_ofUnion] at inA

lemma siblings_normal : Collects siblings ∧ (registry siblings).Normal labelled ∧ (registry siblings).Normal marked ∧
    Lattice.meet ⟨registry siblings,false,9⟩ labelled marked = some marked ∧ Crossing ∧
    ∀ q, (registry siblings).Leads (.meet false labelled marked) q → (registry siblings).Apart q := by
  obtain ⟨quiet,one,other,met,crossing⟩ :
      (Declarations.collect (program siblings) none false).map (·.diagnostics.isEmpty) = some true ∧
      Lattice.normalize ⟨registry siblings,false,3⟩ labelled.objects = some labelled.objects ∧
      Lattice.normalize ⟨registry siblings,false,3⟩ marked.objects = some marked.objects ∧
      Lattice.meet ⟨registry siblings,false,9⟩ labelled marked = some marked ∧
      Crossing := by
    decide +kernel
  refine ⟨collects_of_quiet quiet,.union (by decide) ⟨3,one⟩ (forall_mem_pair.mpr ⟨?_,?_⟩),
    .union (by decide) ⟨3,other⟩ (forall_mem_pair.mpr ⟨?_,?_⟩),met,crossing,fun q leads => ?_⟩
  · exact .nominal (by simp)
  · exact .record (by decide) (by simpa using normal_primitive (by decide))
  · exact .nominal (by simp)
  · refine .record (by decide) ?_
    simpa using ⟨normal_primitive (by decide),normal_primitive (by decide)⟩
  · rcases leads_labelled leads with rfl | rfl
    · intro t other z mem x _ y _ m _ _ again
      cases other.unique ⟨9,met⟩
      refine absurd ?_ again
      simp only [marked,Ty.objects,mem_cons,not_mem_nil,or_false] at mem
      rcases mem with rfl | rfl
      · exact ⟨_,mem_cons_self,_,mem_cons_self,.inr (.inr ⟨rfl,9,by decide +kernel⟩)⟩
      · exact ⟨_,mem_cons_of_mem _ mem_cons_self,_, mem_cons_of_mem _ mem_cons_self,.inl ⟨rfl,9,by decide +kernel⟩⟩
    · intro t other z _ x inA
      simp [Ty.primitive,objects_ofUnion] at inA

/-- The class is what meets of the interface and the class, and the object has both properties. -/
theorem meet_lowerBound_siblings : ∃ decls, Declarations.collect (Outline.program siblings) none false = some decls ∧
    decls.registry.Normal labelled ∧ decls.registry.Normal marked ∧
    Lattice.meet ⟨decls.registry,false,9⟩ labelled marked = some marked ∧ ∀ depth ans,
      (Lattice.isSubtype ⟨decls.registry,false,depth⟩ marked labelled = some ans → ans = true) ∧
      (Lattice.isSubtype ⟨decls.registry,false,depth⟩ marked marked = some ans → ans = true) := by
  obtain ⟨⟨decls,collected,eq,-⟩,normalA,normalB,met,-,apart⟩ := siblings_normal
  rw [← eq] at normalA normalB met
  refine ⟨decls,collected,normalA,normalB,met,?_⟩
  refine (meet_lowerBound_iff collected false normalA normalB).2 (fun q leads => ?_) 9 marked met
  rw [eq] at leads ⊢
  exact apart q leads

/-- The two classes are what meets, and they are combined into their superclass, which has
neither interface. -/
theorem meet_crossed_not_below : Outline.Collects siblings ∧
    (Outline.registry siblings).Normal crossedLeft ∧ (Outline.registry siblings).Normal crossedRight ∧
    Lattice.meet ⟨Outline.registry siblings,false,9⟩ crossedLeft crossedRight = some (.nominal ⟨3⟩ []) ∧
    Lattice.isSubtype ⟨Outline.registry siblings,false,9⟩ (.nominal ⟨3⟩ []) crossedLeft = some false ∧
    Lattice.isSubtype ⟨Outline.registry siblings,false,9⟩ (.nominal ⟨3⟩ []) crossedRight = some false := by
  obtain ⟨collected,-,-,-,⟨⟨left,right⟩,crossing⟩,-⟩ := siblings_normal
  refine ⟨collected,?_,?_,crossing⟩
  · exact .union (by decide) ⟨3,left⟩ (by simpa using ⟨.nominal (by simp),.nominal (by simp)⟩)
  · exact .union (by decide) ⟨3,right⟩ (by simpa using ⟨.nominal (by simp),.nominal (by simp)⟩)

end Siblings

end Registry
end GradualJs
