import GradualJs.Proofs.Declarations.Kinds
import GradualJs.Proofs.Registry.Ancestors

/-! What the writes to properties come to. A type has a property if it had it from the start
or if some site writes to it, and has it declared if one of them declares it; the order of
the sites does not matter. -/
namespace GradualJs

open Registry Collecting MemberSite List

variable {id : NominalId}

namespace Registry

variable {r : Registry}

lemma mem_nominalIds : id ∈ r.nominalIds ↔ id.index < r.nominals.length := by
  constructor
  · intro mem
    obtain ⟨index,inside,rfl⟩ := mem_map.mp mem
    exact mem_range.mp inside
  · intro inside
    exact mem_map.mpr ⟨id.index,mem_range.mpr inside,rfl⟩

lemma standing_setProperty (declared : id ∈ r.nominalIds) (name : String)
    (decl : PropertyDecl) (other : NominalId) (wanted : String) :
    ((r.setProperty id name decl).nominal other).standing wanted =
      if id = other ∧ name = wanted then some decl.declared
      else (r.nominal other).standing wanted := by
  have inside := mem_nominalIds.mp declared
  by_cases eq : id = other
  · subst eq
    by_cases here : name = wanted
    · simp [setProperty,modifyNominal,nominal,inside,Nominal.standing,here]
    · simp [setProperty,modifyNominal,nominal,inside,Nominal.standing,here,Table.get?_insert_of_ne]
  · have apart : id.index ≠ other.index := fun eq' => eq (by cases id; cases other; simp_all)
    simp [setProperty,modifyNominal,nominal,Nominal.standing,apart,eq]

def Grounded (r : Registry) : Prop := ∀ name id, r.lookup name = some (.nominal id) → id ∈ r.nominalIds

structure Unwritten (r : Registry) : Prop where
  grounded : r.Grounded
  properties : ∀ id, (r.nominal id).properties = (initial.nominal id).properties
  builtin : ∀ id ∈ initial.nominalIds, (r.nominal id).kind = .classType

namespace Unwritten

lemma initial : Registry.initial.Unwritten where
  grounded := by
    intro name id found
    have declared := Table.mem_of_lookup found
    simp [Registry.initial] at declared
    rcases declared with ⟨-,rfl⟩ | ⟨-,rfl⟩ | ⟨-,rfl⟩ <;> decide
  properties _ := rfl
  builtin := by decide

section Nominals

variable {changed : Registry} (unwritten : r.Unwritten) (nominals : changed.nominals = r.nominals)
include unwritten nominals

lemma of_lookup (looked : ∀ name id, changed.lookup name = some (.nominal id) →
    r.lookup name = some (.nominal id)) : changed.Unwritten where
  grounded name id found := by
    rw [mem_nominalIds,nominals,← mem_nominalIds]
    exact unwritten.grounded name id (looked name id found)
  properties id := by
    rw [nominal,nominals]
    exact unwritten.properties id
  builtin id mem := by
    rw [nominal,nominals]
    exact unwritten.builtin id mem

lemma declare {name : String} (decls : changed.declarations = r.declarations.insert name declaration)
    (other : ∀ id, declaration ≠ .nominal id) : changed.Unwritten := by
  refine unwritten.of_lookup nominals fun wanted id found => ?_
  rw [lookup,decls,Table.get?_insert] at found
  split at found
  · cases found
    exact absurd rfl (other id)
  · exact found

lemma of_nominals (decls : changed.declarations = r.declarations) : changed.Unwritten :=
  unwritten.of_lookup nominals fun _ _ found => by rwa [lookup,decls] at found

end Nominals

lemma modifyNominal (unwritten : r.Unwritten) (id : NominalId)
    (eq : ∀ n, (f n).properties = n.properties ∧ (f n).kind = n.kind := by
      intro n; exact ⟨rfl,rfl⟩) : (r.modifyNominal id f).Unwritten where
  grounded := by
    intro name other found
    simpa [mem_nominalIds,Registry.modifyNominal] using unwritten.grounded name other found
  properties other := by
    rcases nominal_modifyNominal id other f with unchanged | ⟨-,changed⟩
    · rw [unchanged]
      exact unwritten.properties other
    · rw [changed,(eq _).1]
      exact unwritten.properties other
  builtin other mem := by
    rcases nominal_modifyNominal id other f with unchanged | ⟨-,changed⟩
    · rw [unchanged]
      exact unwritten.builtin other mem
    · rw [changed,(eq _).2]
      exact unwritten.builtin other mem

lemma addNominal (unwritten : r.Unwritten) (name : String) (kind : NominalKind) (span : Span) :
    (r.addNominal name kind span).2.Unwritten where
  grounded := by
    intro wanted id found
    have more : (r.addNominal name kind span).2.nominals.length = r.nominals.length + 1 := by
      simp [Registry.addNominal]
    rw [mem_nominalIds,more]
    rw [lookup,Registry.addNominal,Table.get?_insert] at found
    split at found
    · cases found
      exact Nat.lt_succ_self _
    · exact Nat.lt_succ_of_lt (mem_nominalIds.mp (unwritten.grounded wanted id found))
  properties id := by
    rcases nominal_addNominal name kind span id with eq | ⟨new,-,-,none⟩
    · rw [eq]
      exact unwritten.properties id
    · rw [none,← unwritten.properties id,nominal,getElem?_eq_none (Nat.le_of_eq new)]
      rfl
  builtin id mem := by
    rcases nominal_addNominal name kind span id with eq | ⟨new,-⟩
    · rw [eq]
      exact unwritten.builtin id mem
    · have undeclared := unwritten.builtin id mem
      rw [nominal,getElem?_eq_none (Nat.le_of_eq new)] at undeclared
      cases undeclared

lemma registering : Registering.Invariant Unwritten where
  addNamespace _ _ _ _ unwritten := unwritten.declare rfl rfl (by simp)
  addNominal _ name kind span unwritten := unwritten.addNominal name kind span
  describe _ id _ _ _ unwritten := unwritten.modifyNominal id
  addEnum _ _ _ unwritten := unwritten.declare rfl rfl (by simp)
  addTypedef _ _ _ _ unwritten := unwritten.declare rfl rfl (by simp)
  setMember _ _ _ _ unwritten := unwritten.of_nominals rfl rfl

lemma headings : Headings Unwritten where
  resolveTypedef _ _ _ unwritten := unwritten.of_nominals rfl rfl
  backEnum _ _ _ _ _ unwritten := unwritten.of_nominals rfl rfl
  inherit _ id _ _ _ _ unwritten := unwritten.modifyNominal id
  uproot _ id unwritten := unwritten.modifyNominal id

lemma signatures : Signatures Unwritten where
  construct _ id _ unwritten := unwritten.modifyNominal id
  addFunction _ _ unwritten := unwritten.of_nominals rfl rfl

end Unwritten

/-- Both registries give the same names to the same number of types. -/
structure SameNames (r changed : Registry) : Prop where
  declarations : changed.declarations = r.declarations
  count : changed.nominals.length = r.nominals.length

namespace SameNames

lemma grounded {changed : Registry} (eq : r.SameNames changed) (grounded : r.Grounded) :
    changed.Grounded := by
  intro name id found
  rw [mem_nominalIds,eq.count,← mem_nominalIds]
  rw [lookup,eq.declarations] at found
  exact grounded name id found

lemma modifyNominal (eq : r.SameNames changed) : r.SameNames (changed.modifyNominal id f) :=
  ⟨eq.declarations,by simpa [Registry.modifyNominal] using eq.count⟩

lemma invariant : Collecting.Invariant r.SameNames where
  resolveTypedef _ _ _ eq := ⟨eq.declarations,eq.count⟩
  backEnum _ _ _ _ _ eq := ⟨eq.declarations,eq.count⟩
  inherit _ _ _ _ _ _ eq := eq.modifyNominal
  uproot _ _ eq := eq.modifyNominal
  construct _ _ _ eq := eq.modifyNominal
  addFunction _ _ eq := ⟨eq.declarations,eq.count⟩
  setProperty _ _ _ _ eq := eq.modifyNominal
  setMember _ _ _ _ eq := ⟨eq.declarations,eq.count⟩

end SameNames

end Registry

def MemberSite.concerns (r : Registry) (id : NominalId) (name : String) (site : MemberSite) : Bool :=
  site.ofInstances && site.name = name && r.lookup site.owner = some (.nominal id)

lemma Registry.SameNames.concerns {r changed : Registry} (eq : r.SameNames changed)
    (id : NominalId) (name : String) (site : MemberSite) :
    site.concerns changed id name = site.concerns r id name := by
  rw [MemberSite.concerns,lookup,eq.declarations]
  rfl

namespace Collecting

variable {site : MemberSite} {c after : Collection} {α : Type}

lemma Alike.changed {f : α → Registry → Registry} (yields : Alike (c.registry = ·) p x y)
    (ran : (x >>= fun a => change (f a)).run c = some ((),after)) :
    ∃ a, p a ∧ after.registry = f a c.registry := by
  obtain ⟨a,mid,first,last⟩ := run_bind_iff.mp ran
  obtain ⟨good,-,eq⟩ := yields.run rfl first
  cases last
  exact ⟨a,good,by rw [eq]⟩

lemma run_instanceMember (ran : (instanceMember site id).run c = some ((),after)) :
    ∃ decl, decl.declared = (((c.registry.nominal id).standing site.name).getD false ||
        declares site) ∧ after.registry = c.registry.setProperty id site.name decl := by
  let read (site : MemberSite) : Collecting PropertyDecl := do
    let templates := ((← registry).nominal id).typeParams
    let decl ← memberDecl site templates
    let decl ← constantDecl site decl
    let decl ← abstractDecl site id decl
    let owner := (← registry).nominal id
    let decl := if owner.kind = .record && decl.type.primitives.undefined then {decl with optional := true} else decl
    mergeDecls site.owner site.name site.span decl (owner.properties.get? site.name)
  refine Alike.changed (x := read site) (y := read site.loud) ?_
    (by simpa only [read,instanceMember,bind_assoc] using ran)
  refine yields_registry.bind fun r _ => (yields_memberDecl _ _).bind fun first declared => ?_
  refine (yields_constantDecl _ _).bind fun second constant => ?_
  refine (yields_abstractDecl _ _ _).bind fun third abstract => ?_
  refine yields_registry.bind fun r eq => ?_
  subst eq
  refine (yields_mergeDecls _ _ _ _ _).mono fun merged eq => ?_
  have optional (condition : Bool) :
      (if condition then {third with optional := true} else third).declared = declares site := by
    split <;> simp [abstract,constant,declared]
  rw [eq,optional]
  rfl

lemma run_namespaceMember {id : NamespaceId} (ran : (namespaceMember site id).run c = some ((),after)) :
    after.registry.nominals = c.registry.nominals := by
  have kept : Mirrored (·.nominals = c.registry.nominals) _ _ := keeps_namespaceMember (fun _ _ _ _ eq => eq) site id
  exact (kept.run rfl ran).2.2

lemma standing_member (grounded : c.registry.Grounded)
    (ran : (member site).run c = some ((),after)) (id : NominalId) (name : String) :
    (after.registry.nominal id).standing name =
      if site.concerns c.registry id name then
        some (((c.registry.nominal id).standing name).getD false || declares site)
      else (c.registry.nominal id).standing name := by
  have read : registry.run c = some (c.registry,c) := rfl
  simp only [member,StateT.run_bind,read,Option.bind_eq_bind,Option.bind_some] at ran
  have elsewhere (eq : after.registry.nominals = c.registry.nominals)
      (unconcerned : site.concerns c.registry id name = false) :
      (after.registry.nominal id).standing name = if site.concerns c.registry id name then
          some (((c.registry.nominal id).standing name).getD false || declares site)
        else (c.registry.nominal id).standing name := by
    rw [unconcerned,nominal,eq]
    rfl
  split at ran
  · rename_i owner known ofInstances
    obtain ⟨decl,declared,changed⟩ := run_instanceMember ran
    rw [changed,standing_setProperty (grounded _ _ known)]
    by_cases here : owner = id ∧ site.name = name
    · obtain ⟨rfl,rfl⟩ := here
      simp [concerns,ofInstances,known,declared]
    · have unconcerned : site.concerns c.registry id name = false := by
        simp only [concerns,ofInstances,known,Option.some.injEq,
          Declaration.nominal.injEq,Bool.true_and,Bool.and_eq_false_iff,decide_eq_false_iff_not]
        tauto
      rw [if_neg here,unconcerned]
      rfl
  · rename_i ofSpace
    exact elsewhere (run_namespaceMember ran) (by simp [concerns,ofSpace])
  · rename_i ofSpace
    exact elsewhere (run_namespaceMember ran) (by simp [concerns,ofSpace])
  · rename_i others _ _
    cases ran
    refine elsewhere rfl (Bool.eq_false_iff.mpr fun concerned => ?_)
    simp only [concerns,Bool.and_eq_true,decide_eq_true_eq] at concerned
    exact others id concerned.2 concerned.1.1

/-- What all sites together do: every write counts for having the property, and every
declaring one for having it declared. -/
lemma standing_sites (sites : List MemberSite) (grounded : c.registry.Grounded)
    (ran : (sites.forM member).run c = some ((),after)) (id : NominalId) (name : String) :
    ((after.registry.nominal id).standing name).isSome = (((c.registry.nominal id).standing name).isSome ||
        sites.any (·.concerns c.registry id name)) ∧ ((after.registry.nominal id).standing name).getD false =
      (((c.registry.nominal id).standing name).getD false ||
        sites.any fun site => site.concerns c.registry id name && declares site) := by
  induction sites generalizing c with
  | nil =>
    cases ran
    simp
  | cons site rest ih =>
    obtain ⟨_,mid,first,last⟩ := run_bind_iff.mp ran
    have names : c.registry.SameNames mid.registry :=
      ((keeps_member SameNames.invariant.toContents site).run ⟨rfl,rfl⟩ first).2.2
    obtain ⟨held,declared⟩ := ih (names.grounded grounded) last
    simp only [names.concerns,standing_member grounded first id name] at held declared
    rw [held,declared,any_cons,any_cons]
    cases site.concerns c.registry id name with
    | false => simp
    | true => simp [Bool.or_assoc]

end Collecting

namespace Declarations

def sites (prog : Program) (externs : Option Program) : List MemberSite := (registered prog externs).members

/-- A type has the property from the start or by a write of the program. -/
def written (prog : Program) (externs : Option Program) (r : Registry) (id : NominalId) (name : String) : Bool :=
  ((initial.nominal id).standing name).isSome ||
    (sites prog externs).any (·.concerns r id name)

/-- A type declares the property from the start or by a write of the program. -/
def declared (prog : Program) (externs : Option Program) (r : Registry) (id : NominalId) (name : String) : Bool :=
  ((initial.nominal id).standing name).getD false ||
    (sites prog externs).any fun site => site.concerns r id name && declares site

variable {externs : Option Program} {decls : Declarations}

/-- Collected types hold the properties that are written to, and hold as declared those that
a write declares. -/
lemma collect_standing (collected : collect prog externs legacy = some decls)
    (id : NominalId) (name : String) : ((decls.registry.nominal id).standing name).isSome =
      written prog externs decls.registry id name ∧
    ((decls.registry.nominal id).standing name).getD false = declared prog externs decls.registry id name := by
  have registered := Registering.keeps_registration Unwritten.registering prog externs Unwritten.initial
  obtain ⟨headed,signed,filled,final,phases,frozen⟩ := collect_phases collected
  obtain ⟨-,sites,unwritten⟩ := (keeps_headings Unwritten.headings).run registered phases.headings
  obtain ⟨-,sites',unwritten⟩ := (keeps_signatures Unwritten.signatures prog externs).run unwritten phases.signatures
  have names : signed.registry.SameNames decls.registry := by
    have invariant : Collecting.Invariant signed.registry.SameNames := SameNames.invariant
    have filling := (keeps_members invariant.toContents).run ⟨rfl,rfl⟩ phases.members
    have closing := (keeps_closing invariant.setMember legacy).run filling.2.2 phases.closing
    rw [frozen]
    exact ⟨closing.2.2.declarations,closing.2.2.count⟩
  have start : (signed.registry.nominal id).standing name = (initial.nominal id).standing name := by
    rw [Nominal.standing,unwritten.properties]
    rfl
  have last : (decls.registry.nominal id).standing name = (filled.registry.nominal id).standing name := by
    have unchanged : Keeps (·.nominals = filled.registry.nominals) (closing legacy) :=
      keeps_closing (fun _ _ _ _ eq => eq) legacy
    have eq := (unchanged.run rfl phases.closing).2.2
    rw [frozen,nominal,freeze,eq]
    rfl
  have standing := standing_sites signed.members unwritten.grounded phases.members id name
  simp only [start,← last,sites',sites,← names.concerns] at standing
  exact standing

end Declarations

end GradualJs
