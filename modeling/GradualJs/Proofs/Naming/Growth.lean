import GradualJs.Proofs.Naming.Syntax
import GradualJs.Proofs.Table

/-! How the registry grows while names are declared. A name that stands for a namespace keeps its
meaning until a declaration of that very name is accepted, and so does what the namespace around
it has under its last segment. -/
namespace GradualJs

open List Naming Option

variable {chars : List Char} {name : String} {id : NamespaceId}

namespace Name

/-- The dotted name with the given segments, the last segment first. -/
def joined (segments : List String) : String := ".".intercalate segments.reverse

lemma joined_singleton (last : String) : joined [last] = last := by simp [joined]

lemma joined_cons (last : String) (dotted : parents ≠ []) :
    joined (last :: parents) = property (joined parents) last := by
  rw [joined,reverse_cons,String.intercalate_append_of_ne_nil (by simpa) (by simp)]
  simp [joined,property]

lemma segmentsFrom_ne_nil (current chars : List Char) : segmentsFrom current chars ≠ [] := by
  induction chars generalizing current with
  | nil => simp [segmentsFrom]
  | cons c rest ih =>
    rw [segmentsFrom]
    split
    · simp
    · exact ih _

lemma segmentsFrom_of_not_mem (current : List Char) (plain : '.' ∉ chars) :
    segmentsFrom current chars = [current.reverse ++ chars] := by
  induction chars generalizing current with
  | nil => simp [segmentsFrom]
  | cons c rest ih =>
    rw [mem_cons,not_or] at plain
    rw [segmentsFrom,if_neg (Ne.symm plain.1),ih _ plain.2]
    simp

lemma segmentsFrom_append (current pre chars : List Char) : segmentsFrom current (pre ++ '.' :: chars) =
      segmentsFrom current pre ++ segmentsFrom [] chars := by
  induction pre generalizing current with
  | nil => simp [segmentsFrom]
  | cons c rest ih =>
    simp only [cons_append,segmentsFrom,ih]
    split <;> rfl

lemma segments_ne_nil (name : String) : segments name ≠ [] := by
  simpa [segments] using segmentsFrom_ne_nil [] name.toList

lemma intercalate_segmentsFrom (current chars : List Char) :
    ".".intercalate ((segmentsFrom current chars).map String.ofList) = String.ofList (current.reverse ++ chars) := by
  induction chars generalizing current with
  | nil => simp [segmentsFrom]
  | cons c rest ih =>
    rw [segmentsFrom]
    split
    · rename_i dot
      rw [map_cons,String.intercalate_cons_of_ne_nil (by simpa using segmentsFrom_ne_nil _ _),ih,dot]
      apply String.toList_injective
      simp
    · rw [ih]
      simp

lemma joined_segments (name : String) : joined (segments name).reverse = name := by
  rw [joined,reverse_reverse,segments,intercalate_segmentsFrom]
  simp

lemma unmarked (plain : mark ∉ chars) : ∀ c ∈ chars.reverse, decide (c ≠ mark) = true := by
  intro c mem
  simpa using fun eq : c = mark => plain (eq ▸ mem_reverse.mp mem)

lemma cutLast_of_not_mem (plain : mark ∉ name.toList) : cutLast mark name = none := by
  have nothing : name.toList.reverse.dropWhile (· ≠ mark) = [] := by
    rw [← append_nil name.toList.reverse,dropWhile_append_of_pos (unmarked plain),dropWhile_nil]
  rw [cutLast,nothing]

lemma cutLast_append {after : List Char} (plain : mark ∉ after) :
    cutLast mark (.ofList (pre ++ mark :: after)) = some (.ofList pre,.ofList after) := by
  have cut : (pre ++ mark :: after).reverse = after.reverse ++ mark :: pre.reverse := by simp
  rw [cutLast,String.toList_ofList,cut,dropWhile_append_of_pos (unmarked plain),
    takeWhile_append_of_pos (unmarked plain)]
  simp

lemma exists_segments (name : String) :
    ∃ last parents, (segments name).reverse = last :: parents ∧ joined (last :: parents) = name ∧
      split name = (if parents = [] then none else some (joined parents),last) := by
  by_cases dotted : '.' ∈ name.toList
  · obtain ⟨after,pre,cut,plain⟩ := eq_append_cons_of_mem (mem_reverse.mpr dotted)
    have parts : name = .ofList (pre.reverse ++ '.' :: after.reverse) := by
      apply String.toList_injective
      rw [← reverse_reverse name.toList,cut]
      simp
    have plain' : '.' ∉ after.reverse := by simpa using plain
    have parent : (segments (.ofList pre.reverse)).reverse ≠ [] := by
      simpa using segments_ne_nil _
    have segs : (segments name).reverse = .ofList after.reverse :: (segments (.ofList pre.reverse)).reverse := by
      rw [parts,segments,String.toList_ofList,segmentsFrom_append,segmentsFrom_of_not_mem [] plain']
      simp [segments]
    refine ⟨_,_,segs,?_,?_⟩
    · rw [← segs,joined_segments]
    · rw [if_neg parent,joined_segments,split,parts,cutLast_append plain']
  · have segs : (segments name).reverse = [name] := by
      rw [segments,segmentsFrom_of_not_mem [] dotted]
      simp
    refine ⟨name,[],segs,joined_singleton name,?_⟩
    rw [split,cutLast_of_not_mem dotted]
    rfl

end Name

namespace Registry

def member? (r : Registry) (id : NamespaceId) (name : String) : Option Member := (r.space id).members.get? name

def memberName (r : Registry) (id : NamespaceId) (last : String) : String :=
  if id = .global then last else Name.property (r.space id).name last

def nameOf (r : Registry) : Declaration → String
  | .nominal id => (r.nominal id).name
  | .space id => (r.space id).name
  | .enumType id => (r.enumDecl id).name
  | .typedef id => (r.typedef id).name

def Knows (r : Registry) : Declaration → Prop
  | .nominal id => id.index < r.nominals.length
  | .space id => id.index < r.namespaces.length
  | .enumType id => id.index < r.enums.length
  | .typedef id => id.index < r.typedefs.length

/-- Names stand for namespaces that are called so, and only namespaces that there are have a
place in others. -/
structure Tidy (r : Registry) : Prop where
  global : 0 < r.namespaces.length
  known : ∀ name d, r.lookup name = some d → r.Knows d
  named : ∀ name id, r.spaceNamed name = some id →
    id ≠ .global ∧ id.index < r.namespaces.length ∧ (r.space id).name = name
  inside : ∀ id last inner, r.member? id last = some (.inner inner) → inner.index < r.namespaces.length

/-- What becomes of a registry while names are declared: whatever a name newly stands for and
whatever newly has a place in a namespace has a number from the bound on, and names that are not
written keep their meaning. -/
structure Grows (bound : Nat) (written : String → Prop) (r changed : Registry) : Prop where
  count : r.namespaces.length ≤ changed.namespaces.length
  spaceOf : ∀ d, r.Knows d → changed.Knows d ∧ changed.spaceOf d = r.spaceOf d
  nameOf : ∀ d, r.Knows d → changed.nameOf d = r.nameOf d
  kind : ∀ id : NamespaceId, id.index < r.namespaces.length → (changed.space id).kind = (r.space id).kind
  fresh : ∀ name id, changed.spaceNamed name = some id → r.spaceNamed name = some id ∨ bound ≤ id.index
  inner : ∀ id last inner, changed.member? id last = some (.inner inner) →
    r.member? id last = some (.inner inner) ∨ bound ≤ inner.index
  lookup : ∀ name, ¬written name → (r.spaceNamed name).isSome → changed.lookup name = r.lookup name
  member : ∀ id last, id.index < r.namespaces.length → ¬written (r.memberName id last) →
    (r.spaceNamed (r.memberName id last)).isSome → changed.member? id last = r.member? id last

lemma Tidy.initial : Registry.initial.Tidy where
  global := by decide
  known name d known := by
    have declared := Table.mem_of_lookup known
    simp [Registry.initial] at declared
    rcases declared with ⟨-,rfl⟩ | ⟨-,rfl⟩ | ⟨-,rfl⟩ <;> rw [Knows] <;> decide
  named name id named := by
    obtain ⟨d,known,space⟩ := bind_eq_some_iff.mp named
    have declared := Table.mem_of_lookup known
    simp [Registry.initial] at declared
    rcases declared with ⟨rfl,rfl⟩ | ⟨rfl,rfl⟩ | ⟨rfl,rfl⟩ <;> cases space <;> decide
  inside id last inner has := by
    have empty : (Registry.initial.space id).members = {} := by
      rcases id with ⟨_ | _ | _ | _ | _⟩ <;> rfl
    rw [member?,empty] at has
    cases has

namespace Grows

variable {r mid changed : Registry}

lemma refl (r : Registry) : Grows bound written r r where
  count := Nat.le_refl _
  spaceOf _ known := ⟨known,rfl⟩
  nameOf _ _ := rfl
  kind _ _ := rfl
  fresh _ _ named := .inl named
  inner _ _ _ has := .inl has
  lookup _ _ _ := rfl
  member _ _ _ _ _ := rfl

lemma called (grows : Grows bound written r changed)
    (inside : id.index < r.namespaces.length) : (changed.space id).name = (r.space id).name :=
  grows.nameOf (.space id) inside

lemma memberName (grows : Grows bound written r changed) (inside : id.index < r.namespaces.length) (last : String) :
    changed.memberName id last = r.memberName id last := by
  rw [Registry.memberName,Registry.memberName,grows.called inside]

lemma spaceNamed (grows : Grows bound written r changed) (tidy : r.Tidy)
    (kept : ¬written name) (named : (r.spaceNamed name).isSome) :
    changed.spaceNamed name = r.spaceNamed name := by
  rw [Registry.spaceNamed,grows.lookup name kept named,Registry.spaceNamed]
  cases known : r.lookup name with
  | none => rfl
  | some d => exact (grows.spaceOf d (tidy.known name d known)).2

lemma trans (tidy : r.Tidy) (grows : Grows bound first r mid) (grows' : Grows bound last mid changed)
    (kept : ∀ name, ¬written name → (r.spaceNamed name).isSome →
      ¬first name ∧ (mid.lookup name = r.lookup name → ¬last name)) : Grows bound written r changed where
  count := Nat.le_trans grows.count grows'.count
  spaceOf d known := by
    obtain ⟨known',eq⟩ := grows.spaceOf d known
    obtain ⟨known'',eq'⟩ := grows'.spaceOf d known'
    exact ⟨known'',eq'.trans eq⟩
  nameOf d known := (grows'.nameOf d (grows.spaceOf d known).1).trans (grows.nameOf d known)
  kind id inside := (grows'.kind id (Nat.lt_of_lt_of_le inside grows.count)).trans (grows.kind id inside)
  fresh name id named := by
    rcases grows'.fresh name id named with named | new
    · exact grows.fresh name id named
    · exact .inr new
  inner id name inner has := by
    rcases grows'.inner id name inner has with has | new
    · exact grows.inner id name inner has
    · exact .inr new
  lookup name unwritten named := by
    obtain ⟨unwritten,unwritten'⟩ := kept name unwritten named
    have eq := grows.lookup name unwritten named
    rw [← grows.spaceNamed tidy unwritten named] at named
    exact (grows'.lookup name (unwritten' eq) named).trans eq
  member id name inside unwritten named := by
    obtain ⟨unwritten,unwritten'⟩ := kept _ unwritten named
    have eq := grows.lookup _ unwritten named
    have pre := grows.member id name inside unwritten named
    have after := grows'.member id name (Nat.lt_of_lt_of_le inside grows.count)
    rw [grows.memberName inside,grows.spaceNamed tidy unwritten named] at after
    exact (after (unwritten' eq) named).trans pre

lemma lower {lower : Nat} (grows : Grows bound written r changed) (below : lower ≤ bound) :
    Grows lower written r changed :=
  {grows with
    fresh := fun name id named => (grows.fresh name id named).imp_right (Nat.le_trans below)
    inner := fun id last inner has =>
      (grows.inner id last inner has).imp_right (Nat.le_trans below)}

end Grows

section Add

variable {r : Registry} (naming : Naming)

lemma lookup_add (name : String) : (naming.add r).lookup name =
    if naming.name = name then some (naming.declaration r) else r.lookup name := by
  cases naming <;> exact Table.get?_insert _ _ _ _

lemma lookup_add_self : (naming.add r).lookup naming.name = some (naming.declaration r) := by
  rw [lookup_add,if_pos rfl]

lemma counts_add : r.nominals.length ≤ (naming.add r).nominals.length ∧
    r.namespaces.length ≤ (naming.add r).namespaces.length ∧ r.enums.length ≤ (naming.add r).enums.length ∧
    r.typedefs.length ≤ (naming.add r).typedefs.length := by
  cases naming <;> simp [add,addNominal,modifyNominal,addEnum,addTypedef,addNamespace]

lemma nominal_add {id : NominalId} (inside : id.index < r.nominals.length) :
    (naming.add r).nominal id = r.nominal id := by
  cases naming with
  | nominal name kind jsdoc src span =>
    have apart : r.nominals.length ≠ id.index := by omega
    simp [add,addNominal,modifyNominal,nominal,apart,getElem?_append_left inside]
  | enumType | typedef | object => rfl

lemma enumDecl_add {id : EnumId} (inside : id.index < r.enums.length) : (naming.add r).enumDecl id = r.enumDecl id := by
  cases naming with
  | enumType name span => simp [add,addEnum,enumDecl,getElem?_append_left inside]
  | nominal | typedef | object => rfl

lemma typedef_add {id : TypedefId} (inside : id.index < r.typedefs.length) :
    (naming.add r).typedef id = r.typedef id := by
  cases naming with
  | typedef name meaning span =>
    simp [add,addTypedef,typedef,getElem?_append_left inside]
  | nominal | enumType | object => rfl

lemma spaceOf_add (known : r.Knows d) : (naming.add r).Knows d ∧ (naming.add r).spaceOf d = r.spaceOf d := by
  obtain ⟨nominals,namespaces,enums,typedefs⟩ := counts_add (r := r) naming
  cases d with
  | nominal id =>
    refine ⟨Nat.lt_of_lt_of_le known nominals,?_⟩
    rw [spaceOf,nominal_add naming known]
    rfl
  | space id => exact ⟨Nat.lt_of_lt_of_le known namespaces,rfl⟩
  | enumType id =>
    refine ⟨Nat.lt_of_lt_of_le known enums,?_⟩
    rw [spaceOf,enumDecl_add naming known]
    rfl
  | typedef id => exact ⟨Nat.lt_of_lt_of_le known typedefs,rfl⟩

def Makes (r : Registry) (naming : Naming) : Prop :=
  (naming.add r).namespaces.length = r.namespaces.length + 1 ∧ ((naming.add r).space r.nextNamespace).name = naming.name

lemma spaceOf_declaration : (naming.add r).Knows (naming.declaration r) ∧
    ((naming.add r).spaceOf (naming.declaration r) = none ∨
      (naming.add r).spaceOf (naming.declaration r) = some r.nextNamespace ∧ r.Makes naming) := by
  cases naming <;> simp [Knows,spaceOf,Makes,declaration,name,add,
    addNominal,modifyNominal,addEnum,addTypedef,addNamespace,nominal,enumDecl,space,
    nextNamespace]

omit naming in
lemma space_append {changed : Registry} (more : changed.namespaces = r.namespaces ++ [added]) (id : NamespaceId) :
    changed.space id = r.space id ∨ id = r.nextNamespace ∧ changed.space id = added := by
  simp only [space,more]
  rcases Nat.lt_trichotomy id.index r.namespaces.length with old | new | beyond
  · exact .inl (by rw [getElem?_append_left old])
  · refine .inr ⟨?_,by simp [new]⟩
    cases id
    simp_all [nextNamespace]
  · refine .inl ?_
    rw [getElem?_eq_none (by simp; omega),getElem?_eq_none (by omega)]

lemma space_add (id : NamespaceId) : (naming.add r).space id = r.space id ∨
    id = r.nextNamespace ∧ ((naming.add r).space id).name = naming.name ∧ ((naming.add r).space id).members = {} := by
  have placed {added : Namespace} (more : (naming.add r).namespaces = r.namespaces ++ [added])
      (called : added.name = naming.name) (empty : added.members = {}) :
      (naming.add r).space id = r.space id ∨ id = r.nextNamespace ∧
        ((naming.add r).space id).name = naming.name ∧ ((naming.add r).space id).members = {} := by
    rcases space_append more id with eq | ⟨new,eq⟩
    · exact .inl eq
    · exact .inr ⟨new,eq ▸ called,eq ▸ empty⟩
  cases naming with
  | nominal name kind jsdoc src span | enumType name span => exact placed rfl rfl rfl
  | typedef name meaning span => exact .inl rfl
  | object name real span => exact placed rfl rfl rfl

lemma space_add_of_lt (inside : id.index < r.namespaces.length) : (naming.add r).space id = r.space id := by
  rcases space_add (r := r) naming id with eq | ⟨rfl,-⟩
  · exact eq
  · exact absurd inside (Nat.lt_irrefl _)

lemma nameOf_add (known : r.Knows d) : (naming.add r).nameOf d = r.nameOf d := by
  cases d with
  | nominal id => exact congrArg Nominal.name (nominal_add naming known)
  | enumType id => exact congrArg EnumDecl.name (enumDecl_add naming known)
  | typedef id => exact congrArg TypedefDecl.name (typedef_add naming known)
  | space id => exact congrArg Namespace.name (space_add_of_lt naming known)

lemma member?_add (id : NamespaceId) (last : String) : (naming.add r).member? id last = r.member? id last := by
  rcases space_add (r := r) naming id with eq | ⟨rfl,-,empty⟩
  · rw [member?,eq,member?]
  · have absent : r.namespaces[r.nextNamespace.index]? = none := getElem?_eq_none (Nat.le_refl _)
    rw [member?,empty,member?,space,absent]
    rfl

lemma spaceNamed_add (tidy : r.Tidy) (named : (naming.add r).spaceNamed name = some id) :
    naming.name ≠ name ∧ r.spaceNamed name = some id ∨ naming.name = name ∧ id = r.nextNamespace ∧ r.Makes naming := by
  rw [spaceNamed,lookup_add] at named
  split at named
  · rename_i eq
    rcases (spaceOf_declaration (r := r) naming).2 with none | ⟨new,more⟩
    · rw [bind_some,none] at named
      cases named
    · rw [bind_some,new] at named
      exact .inr ⟨eq,(some.inj named).symm,more⟩
  · rename_i other
    obtain ⟨d,known,space⟩ := bind_eq_some_iff.mp named
    rw [(spaceOf_add naming (tidy.known name d known)).2] at space
    exact .inl ⟨other,bind_eq_some_iff.mpr ⟨d,known,space⟩⟩

lemma Grows.add (tidy : r.Tidy) (below : bound ≤ r.namespaces.length) :
    Grows bound (naming.name = ·) r (naming.add r) where
  count := (counts_add naming).2.1
  spaceOf _ known := spaceOf_add naming known
  nameOf _ known := nameOf_add naming known
  kind _ inside := congrArg Namespace.kind (space_add_of_lt naming inside)
  fresh name id named := by
    rcases spaceNamed_add naming tidy named with ⟨-,old⟩ | ⟨-,rfl,-⟩
    · exact .inl old
    · exact .inr below
  inner id last inner has := .inl (by rwa [member?_add] at has)
  lookup name other _ := by rw [lookup_add,if_neg other]
  member id last _ _ _ := member?_add naming id last

lemma Tidy.add (tidy : r.Tidy) : (naming.add r).Tidy where
  global := Nat.lt_of_lt_of_le tidy.global (counts_add naming).2.1
  known name d known := by
    rw [lookup_add] at known
    split at known
    · cases known
      exact (spaceOf_declaration naming).1
    · exact (spaceOf_add naming (tidy.known name d known)).1
  named name id named := by
    have more := (counts_add (r := r) naming).2.1
    rcases spaceNamed_add naming tidy named with ⟨-,old⟩ | ⟨rfl,rfl,more,called⟩
    · obtain ⟨inner,inside,called⟩ := tidy.named name id old
      refine ⟨inner,Nat.lt_of_lt_of_le inside more,?_⟩
      rw [(Grows.add naming tidy (Nat.le_refl _)).called inside,called]
    · have new : r.nextNamespace ≠ .global := by
        intro eq
        have := congrArg NamespaceId.index eq
        exact absurd this (Nat.ne_of_gt tidy.global)
      refine ⟨new,?_,called⟩
      rw [more]
      exact Nat.lt_succ_self _
  inside id last inner has := by
    rw [member?_add] at has
    exact Nat.lt_of_lt_of_le (tidy.inside id last inner has) (counts_add naming).2.1

end Add

section SetMember

variable {r : Registry} {id : NamespaceId} {name : String}

lemma space_setMember (other : NamespaceId) : ((r.setMember id name new).space other).name = (r.space other).name ∧
      ((r.setMember id name new).space other).kind = (r.space other).kind := by
  simp only [space,setMember,modifyNamespace,getElem?_modify]
  cases r.namespaces[other.index]? with
  | none => exact ⟨rfl,rfl⟩
  | some known => by_cases eq : id.index = other.index <;> simp [eq]

lemma count_setMember : (r.setMember id name new).namespaces.length = r.namespaces.length := length_modify _ _ _

lemma member?_setMember (inside : id.index < r.namespaces.length) (other : NamespaceId)
    (last : String) : (r.setMember id name new).member? other last =
      if id = other ∧ name = last then some new else r.member? other last := by
  by_cases eq : id = other
  · subst eq
    simp [member?,space,setMember,modifyNamespace,inside,Table.get?_insert]
  · have apart : id.index ≠ other.index := fun eq' => eq (by cases id; cases other; simp_all)
    simp [member?,space,setMember,modifyNamespace,apart,eq]

lemma spaceOf_setMember (d : Declaration) : (r.setMember id name new).spaceOf d = r.spaceOf d := by
  cases d <;> rfl

lemma nameOf_setMember (d : Declaration) : (r.setMember id name new).nameOf d = r.nameOf d := by
  cases d with
  | space other => exact (space_setMember other).1
  | nominal other | enumType other | typedef other => rfl

lemma knows_setMember (known : r.Knows d) : (r.setMember id name new).Knows d := by
  cases d with
  | space other => exact Nat.lt_of_lt_of_eq known count_setMember.symm
  | nominal other | enumType other | typedef other => exact known

lemma Grows.setMember (inside : id.index < r.namespaces.length)
    (fresh : ∀ inner, new = .inner inner → bound ≤ inner.index) :
    Grows bound (r.memberName id name = ·) r (r.setMember id name new) where
  count := Nat.le_of_eq count_setMember.symm
  spaceOf d known := ⟨knows_setMember known,spaceOf_setMember d⟩
  nameOf d _ := nameOf_setMember d
  kind other _ := (space_setMember other).2
  fresh _ _ named := .inl named
  inner other last inner has := by
    rw [member?_setMember inside] at has
    split at has
    · exact .inr (fresh inner (some.inj has))
    · exact .inl has
  lookup _ _ _ := rfl
  member other last _ unwritten _ := by
    rw [member?_setMember inside,if_neg]
    rintro ⟨rfl,rfl⟩
    exact unwritten rfl

lemma Tidy.setMember (tidy : r.Tidy) (inside : id.index < r.namespaces.length)
    (there : ∀ inner, new = .inner inner → inner.index < r.namespaces.length) :
    (r.setMember id name new).Tidy where
  global := by
    rw [count_setMember]
    exact tidy.global
  known wanted d known := knows_setMember (tidy.known wanted d known)
  named wanted other named := by
    rw [count_setMember,(space_setMember other).1]
    exact tidy.named wanted other named
  inside other last inner has := by
    rw [count_setMember]
    rw [member?_setMember inside] at has
    split at has
    · exact there inner (some.inj has)
    · exact tidy.inside other last inner has

end SetMember

section Ensure

variable {r : Registry}

/-- The namespace with the given segments, the last segment first. -/
def spaceAt (r : Registry) : List String → Option NamespaceId
  | [] => some .global
  | last :: parents => r.spaceNamed (Name.joined (last :: parents))

lemma Tidy.spaceAt (tidy : r.Tidy) (found : r.spaceAt segments = some id) : id.index < r.namespaces.length ∧
      ∀ last, r.memberName id last = Name.joined (last :: segments) := by
  cases segments with
  | nil =>
    cases found
    exact ⟨tidy.global,fun last => (Name.joined_singleton last).symm⟩
  | cons parent others =>
    obtain ⟨inner,inside,called⟩ := tidy.named _ id found
    refine ⟨inside,fun last => ?_⟩
    rw [memberName,if_neg inner,called,Name.joined_cons last (cons_ne_nil _ _)]

lemma Grows.insert (tidy : r.Tidy) (below : bound ≤ r.namespaces.length)
    (found : r.spaceAt parents = some home) (last : String) (span : Span) :
    let name := Name.joined (last :: parents)
    let made := ((Naming.object name false span).add r).setMember home last (.inner r.nextNamespace)
    made.Tidy ∧ Grows bound (name = ·) r made ∧ made.spaceNamed name = some r.nextNamespace := by
  intro name made
  obtain ⟨inside,called⟩ := tidy.spaceAt found
  have grows : Grows bound (name = ·) r _ := Grows.add (.object name false span) tidy below
  have more : ((Naming.object name false span).add r).namespaces.length =
      r.namespaces.length + 1 := by simp [Naming.add,addNamespace]
  have inside' : home.index < ((Naming.object name false span).add r).namespaces.length := by omega
  have named : ((Naming.object name false span).add r).memberName home last = name := by
    rw [grows.memberName inside,called]
  have placed : Grows bound _ _ made := Grows.setMember inside' fun inner eq => by
    cases eq
    exact below
  refine ⟨(Tidy.add _ tidy).setMember inside' fun inner eq => ?_,?_,?_⟩
  · cases eq
    rw [more]
    exact Nat.lt_succ_self _
  · apply grows.trans tidy placed
    intro other unwritten _
    rw [named]
    exact ⟨unwritten,fun _ => unwritten⟩
  · exact bind_eq_some_iff.mpr ⟨_,lookup_add_self (.object name false span),rfl⟩

/-- Making sure that there is a namespace leaves everything that has a meaning as it is. -/
lemma ensureNamespace_spec (tidy : r.Tidy) (below : bound ≤ r.namespaces.length)
    (span : Span) (segments : List String) : (r.ensureNamespace span segments).2.Tidy ∧
      Grows bound (fun _ => False) r (r.ensureNamespace span segments).2 ∧
      (r.ensureNamespace span segments).2.spaceAt segments = some (r.ensureNamespace span segments).1 := by
  induction segments with
  | nil => exact ⟨tidy,.refl r,rfl⟩
  | cons last parents ih =>
    rw [ensureNamespace]
    cases named : r.spaceNamed (".".intercalate (last :: parents).reverse) with
    | some id => exact ⟨tidy,.refl r,named⟩
    | none =>
      obtain ⟨tidy',grows,found⟩ := ih
      obtain ⟨tidy'',made,space⟩ := Grows.insert tidy' (Nat.le_trans below grows.count) found last span
      refine ⟨tidy'',grows.trans tidy made fun other _ standing => ⟨not_false,?_⟩,space⟩
      -- The name that is made had no meaning before.
      rintro - rfl
      rw [Name.joined,named] at standing
      cases standing

end Ensure

section Apply

variable {r : Registry} (naming : Naming)

/-- Where a declaration is put: it is added, and what stands for it becomes a member of the
namespace that its name says. -/
lemma exists_apply (accepted : naming.isAccepted r = true) :
    ∃ last parents, (Name.segments naming.name).reverse = last :: parents ∧
      Name.joined (last :: parents) = naming.name ∧ Name.split naming.name =
        (if parents = [] then none else some (Name.joined parents),last) ∧
      naming.apply r = ((naming.add r).ensureNamespace naming.span parents).2.setMember
          ((naming.add r).ensureNamespace naming.span parents).1 last (naming.member r) := by
  obtain ⟨last,parents,segments,joined,split⟩ := Name.exists_segments naming.name
  refine ⟨last,parents,segments,joined,split,?_⟩
  rw [apply,if_pos accepted,attach,segments]

lemma member_fresh {inner : NamespaceId} (eq : naming.member r = .inner inner) :
    inner = r.nextNamespace ∧ r.nextNamespace.index < (naming.add r).namespaces.length := by
  cases naming with
  | typedef name meaning span => cases eq
  | nominal name kind jsdoc src span =>
    cases eq
    simp [add,addNominal,modifyNominal,nextNamespace]
  | enumType name span =>
    cases eq
    simp [add,addEnum,nextNamespace]
  | object name real span =>
    cases eq
    simp [add,addNamespace,nextNamespace]

/-- Putting a new declaration into its namespace concerns no other name. -/
lemma attach_spec (tidy : r.Tidy) (accepted : naming.isAccepted r = true) : (naming.apply r).Tidy ∧
      Grows r.namespaces.length (naming.name = ·) (naming.add r) (naming.apply r) := by
  obtain ⟨last,parents,-,joined,-,applied⟩ := exists_apply naming accepted
  have tidy' := Tidy.add naming tidy
  obtain ⟨tidy'',ensured,found⟩ := ensureNamespace_spec tidy' (counts_add naming).2.1 naming.span parents
  obtain ⟨inside,called⟩ := tidy''.spaceAt found
  rw [applied]
  constructor
  · apply tidy''.setMember inside
    intro inner eq
    obtain ⟨rfl,new⟩ := member_fresh naming eq
    exact Nat.lt_of_lt_of_le new ensured.count
  · refine ensured.trans tidy' (Grows.setMember inside fun inner eq => ?_) fun name other _ => ?_
    · rw [(member_fresh naming eq).1]
      exact Nat.le_refl _
    · rw [called,joined]
      exact ⟨not_false,fun _ => other⟩

/-- Only the declared name gets another meaning, and only if the declaration is accepted. -/
lemma apply_spec (tidy : r.Tidy) : (naming.apply r).Tidy ∧
    Grows r.namespaces.length (fun name => naming.name = name ∧ naming.isAccepted r = true) r (naming.apply r) := by
  by_cases accepted : naming.isAccepted r = true
  · obtain ⟨tidy',attached⟩ := attach_spec naming tidy accepted
    refine ⟨tidy',(Grows.add naming tidy (Nat.le_refl _)).trans tidy attached ?_⟩
    intro name unwritten _
    have other : naming.name ≠ name := fun eq => unwritten ⟨eq,accepted⟩
    exact ⟨other,fun _ => other⟩
  · rw [apply,if_neg accepted]
    exact ⟨tidy,.refl r⟩

lemma spaceNamed_apply (tidy : r.Tidy) (accepted : naming.isAccepted r = true)
    (named : (naming.apply r).spaceNamed naming.name = some id) : r.namespaces.length ≤ id.index := by
  rcases (attach_spec naming tidy accepted).2.fresh _ _ named with added | new
  · rcases spaceNamed_add naming tidy added with ⟨other,-⟩ | ⟨-,rfl,-⟩
    · exact absurd rfl other
    · exact Nat.le_refl _
  · exact new

end Apply

section After

variable {r : Registry}

/-- The declarations of a name that would be accepted as things stand. -/
def rewrites (r : Registry) (namings : List Naming) (name : String) : Prop :=
  ∃ naming ∈ namings, naming.name = name ∧ naming.isAccepted r = true

lemma after_spec (tidy : r.Tidy) (namings : List Naming) : (r.after namings).Tidy ∧
    Grows r.namespaces.length (r.rewrites namings) r (r.after namings) := by
  induction namings generalizing r with
  | nil => exact ⟨tidy,.refl r⟩
  | cons naming rest ih =>
    obtain ⟨tidy',step⟩ := apply_spec naming tidy
    obtain ⟨tidy'',run⟩ := ih tidy'
    refine ⟨tidy'',step.trans tidy (run.lower step.count) fun name unwritten _ => ⟨?_,?_⟩⟩
    · rintro ⟨eq,accepted⟩
      exact unwritten ⟨naming,mem_cons_self,eq,accepted⟩
    · -- As long as the name keeps its meaning, the same declarations of it are accepted.
      rintro looked ⟨later,mem,rfl,accepted⟩
      refine unwritten ⟨later,mem_cons_of_mem _ mem,rfl,?_⟩
      rwa [isAccepted,looked] at accepted

/-- A name that is declared anew does not get its old meaning back. -/
lemma spaceNamed_of_rewrites (tidy : r.Tidy) (rewritten : r.rewrites namings name)
    (named : r.spaceNamed name = some id) : (r.after namings).spaceNamed name ≠ some id := by
  induction namings generalizing r with
  | nil =>
    obtain ⟨naming,mem,-⟩ := rewritten
    cases mem
  | cons naming rest ih =>
    obtain ⟨tidy',step⟩ := apply_spec naming tidy
    have inside := (tidy.named name id named).2.1
    by_cases here : naming.name = name ∧ naming.isAccepted r = true
    · obtain ⟨rfl,accepted⟩ := here
      intro again
      rcases (after_spec tidy' rest).2.fresh _ _ again with early | late
      · have new := spaceNamed_apply naming tidy accepted early
        omega
      · have more := step.count
        omega
    · have looked := step.lookup name here (by rw [named]; rfl)
      apply ih tidy'
      · obtain ⟨later,mem,rfl,accepted⟩ := rewritten
        rcases mem_cons.mp mem with rfl | inRest
        · exact absurd ⟨rfl,accepted⟩ here
        · exact ⟨later,inRest,rfl,by rwa [isAccepted,looked]⟩
      · rwa [step.spaceNamed tidy here (by rw [named]; rfl)]

end After

end Registry

end GradualJs
