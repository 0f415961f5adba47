import GradualJs.Proofs.Declarations.Members
import GradualJs.Proofs.Naming.Growth

/-! How a type comes by its name, and what may take it away: declarations of the name or of the
name around it while names are declared, and global variables afterwards. -/
namespace GradualJs

open GlobalSite Option

namespace Registry

variable {r : Registry} {naming : Naming} {d : Declaration}

def home (r : Registry) (name : String) : Option NamespaceId :=
  match (Name.split name).1 with
  | none => some .global
  | some parent => r.spaceNamed parent

/-- What the namespace around a qualified name has under its last segment. -/
def entry (r : Registry) (name : String) : Option Member :=
  (r.home name).bind fun home => r.member? home (Name.split name).2

lemma home_eq {name last : String}
    (split : Name.split name = (if parents = [] then none else some (Name.joined parents),last)) :
    r.home name = r.spaceAt parents := by
  rw [home,split]
  cases parents with
  | nil | cons parent others => rfl

/-- What a declaration gives is accepted, and has a namespace of its own. -/
lemma gives_spec (gives : naming.gives r = some d) : naming.isAccepted r = true ∧ d = naming.declaration r ∧
      (naming.add r).spaceOf d = some r.nextNamespace ∧ (naming.add r).nameOf d = naming.name ∧
      naming.member r = .inner r.nextNamespace ∧ d.isType = true := by
  cases naming with
  | nominal | enumType =>
    rw [Naming.gives] at gives
    split at gives
    · rename_i accepted
      cases gives
      simp [accepted,spaceOf,nameOf,Naming.declaration,Naming.name,Naming.member,Naming.add,
        addNominal,modifyNominal,nominal,addEnum,enumDecl,Declaration.isType]
    · cases gives
  | typedef | object => cases gives

/-- The name stands for the type, and the namespace of the type has a place in the namespace
around it and nowhere else. -/
structure Named (r : Registry) (name : String) (d : Declaration) (own around : NamespaceId) : Prop where
  nameOf : r.nameOf d = name
  lookup : r.lookup name = some d
  spaceOf : r.spaceOf d = some own
  home : r.home name = some around
  entry : r.member? around (Name.split name).2 = some (.inner own)
  only : ∀ id last, r.member? id last = some (.inner own) → id = around

lemma named_apply (tidy : r.Tidy) (gives : naming.gives r = some d) :
    ∃ around, (naming.apply r).Named naming.name d r.nextNamespace around := by
  obtain ⟨accepted,rfl,space,called,isInner,-⟩ := gives_spec gives
  obtain ⟨last,parents,-,joined,split,applied⟩ := exists_apply naming accepted
  have tidy' := Tidy.add naming tidy
  obtain ⟨tidy'',ensured,found⟩ := ensureNamespace_spec tidy' (Nat.le_refl _) naming.span parents
  obtain ⟨inside,-⟩ := tidy''.spaceAt found
  have standing : ((naming.add r).spaceNamed naming.name).isSome := by
    rw [spaceNamed,lookup_add_self,bind_some,space]
    rfl
  have known := (spaceOf_declaration (r := r) naming).1
  rw [applied,isInner]
  refine ⟨((naming.add r).ensureNamespace naming.span parents).1, ?nameOf,?lookup,?spaceOf,?home,?entry,?only⟩
  case nameOf => rw [nameOf_setMember,ensured.nameOf _ known,called]
  case lookup => exact (ensured.lookup _ not_false standing).trans (lookup_add_self naming)
  case spaceOf => rw [spaceOf_setMember,(ensured.spaceOf _ known).2,space]
  case home =>
    rw [home_eq split]
    cases parents with
    | nil | cons parent others => exact found
  case entry =>
    rw [member?_setMember inside,split,if_pos ⟨rfl,rfl⟩]
  case only =>
    intro id other has
    rw [member?_setMember inside] at has
    split at has
    · rename_i here
      exact here.1.symm
    · -- What is new has no place before it is put into its namespace.
      have new := (member_fresh naming isInner).2
      rcases ensured.inner id other _ has with early | late
      · rw [member?_add] at early
        exact absurd (tidy.inside _ _ _ early) (Nat.lt_irrefl _)
      · omega

namespace Named

variable {name : String} {around : NamespaceId}

lemma spaceNamed (named : r.Named name d own around) : r.spaceNamed name = some own := by
  rw [Registry.spaceNamed,named.lookup,bind_some,named.spaceOf]

lemma memberName (tidy : r.Tidy) (named : r.Named name d own around) :
    around.index < r.namespaces.length ∧ r.memberName around (Name.split name).2 = name := by
  obtain ⟨last,parents,-,joined,split⟩ := Name.exists_segments name
  have found := named.home
  rw [home_eq split] at found
  obtain ⟨inside,called⟩ := tidy.spaceAt found
  exact ⟨inside,by rw [split,called,joined]⟩

/-- A type keeps its name through further declarations exactly if neither its name nor the name
around it is declared anew. -/
lemma after_iff (tidy : r.Tidy) (named : r.Named name d own around) (later : List Naming) :
    (r.after later).lookup name = some d ∧ (r.after later).entry name = some (.inner own) ↔
      ¬r.rewrites later name ∧ ∀ parent, (Name.split name).1 = some parent → ¬r.rewrites later parent := by
  obtain ⟨-,grows⟩ := after_spec tidy later
  have standing : (r.spaceNamed name).isSome := by
    rw [named.spaceNamed]
    rfl
  constructor
  · rintro ⟨looked,entered⟩
    constructor
    · intro rewritten
      apply spaceNamed_of_rewrites tidy rewritten named.spaceNamed
      rw [Registry.spaceNamed,looked,bind_some,(grows.spaceOf d _).2,named.spaceOf]
      exact tidy.known name d named.lookup
    · intro parent dotted rewritten
      have parentNamed := named.home
      rw [Registry.home,dotted] at parentNamed
      obtain ⟨id,atHome,has⟩ := bind_eq_some_iff.mp entered
      rw [Registry.home,dotted] at atHome
      -- The namespace of the type has a place only where it was put.
      rcases grows.inner _ _ _ has with early | late
      · rw [named.only _ _ early] at atHome
        exact spaceNamed_of_rewrites tidy rewritten parentNamed atHome
      · have inside := tidy.inside _ _ _ named.entry
        omega
  · rintro ⟨kept,parentKept⟩
    obtain ⟨inside,called⟩ := named.memberName tidy
    have atHome : (r.after later).home name = some around := by
      have pre := named.home
      rw [Registry.home] at pre ⊢
      cases parts : (Name.split name).1 with
      | none => simpa [parts] using pre
      | some parent =>
        simp only [parts] at pre ⊢
        rw [grows.spaceNamed tidy (parentKept parent parts) (by rw [pre]; rfl),pre]
    constructor
    · rw [grows.lookup name kept standing,named.lookup]
    · rw [Registry.entry,atHome,bind_some,grows.member around _ inside (by rwa [called]) (by rwa [called]),named.entry]

end Named

structure SameSpaces (r changed : Registry) : Prop where
  declarations : changed.declarations = r.declarations
  nominals : ∀ id, (changed.nominal id).statics = (r.nominal id).statics ∧
    (changed.nominal id).name = (r.nominal id).name
  enums : ∀ id, (changed.enumDecl id).space = (r.enumDecl id).space ∧ (changed.enumDecl id).name = (r.enumDecl id).name
  kinds : ∀ id, (changed.space id).kind = (r.space id).kind

namespace SameSpaces

variable {changed : Registry}

lemma modifyNominal (eq : r.SameSpaces changed) (id : NominalId)
    (kept : ∀ n, (f n).statics = n.statics ∧ (f n).name = n.name := by intro n; exact ⟨rfl,rfl⟩) :
    r.SameSpaces (changed.modifyNominal id f) where
  declarations := eq.declarations
  nominals other := by
    rw [← (eq.nominals other).1,← (eq.nominals other).2]
    rcases nominal_modifyNominal id other f with unchanged | ⟨-,written⟩
    · rw [unchanged]
      exact ⟨rfl,rfl⟩
    · rw [written]
      exact kept _
  enums := eq.enums
  kinds := eq.kinds

lemma backEnum (eq : r.SameSpaces changed) (id : EnumId) (backing : Ty) (members : Table String Span) :
    r.SameSpaces (changed.modifyEnum id ({· with backing, members})) where
  declarations := eq.declarations
  nominals := eq.nominals
  enums other := by
    rw [← (eq.enums other).1,← (eq.enums other).2]
    simp only [enumDecl,modifyEnum,List.getElem?_modify]
    cases changed.enums[other.index]? with
    | none => exact ⟨rfl,rfl⟩
    | some known => by_cases here : id.index = other.index <;> simp [here]
  kinds := eq.kinds

lemma invariant : Collecting.Invariant r.SameSpaces where
  resolveTypedef _ _ _ eq := ⟨eq.declarations,eq.nominals,eq.enums,eq.kinds⟩
  backEnum _ id backing members _ eq := eq.backEnum id backing members
  inherit _ id _ _ _ _ eq := eq.modifyNominal id
  uproot _ id eq := eq.modifyNominal id
  construct _ id _ eq := eq.modifyNominal id
  addFunction _ _ eq := ⟨eq.declarations,eq.nominals,eq.enums,eq.kinds⟩
  setProperty _ id _ _ eq := eq.modifyNominal id
  setMember _ _ _ _ eq := ⟨eq.declarations,eq.nominals,eq.enums,fun id => (space_setMember id).2.trans (eq.kinds id)⟩

lemma lookup (eq : r.SameSpaces changed) (name : String) : changed.lookup name = r.lookup name := by
  rw [Registry.lookup,eq.declarations,Registry.lookup]

lemma spaceOf (eq : r.SameSpaces changed) (d : Declaration) : changed.spaceOf d = r.spaceOf d := by
  cases d with
  | nominal id => exact congrArg some (eq.nominals id).1
  | enumType id => exact congrArg some (eq.enums id).1
  | space id | typedef id => rfl

lemma home (eq : r.SameSpaces changed) (name : String) : changed.home name = r.home name := by
  unfold Registry.home
  split
  · rfl
  · rw [spaceNamed,eq.lookup,funext eq.spaceOf]
    rfl

end SameSpaces

lemma inner_setMember_value {id inner : NamespaceId} {name : String} :
    (r.setMember id name (.value decl)).member? other last = some (.inner inner) ↔
      r.member? other last = some (.inner inner) ∧ ¬(id = other ∧ name = last ∧ id.index < r.namespaces.length) := by
  by_cases inside : id.index < r.namespaces.length
  · rw [member?_setMember inside]
    by_cases here : id = other ∧ name = last
    · rw [if_pos here]
      simp [here,here.1 ▸ inside]
    · rw [if_neg here]
      simp [inside,here]
  · have eq : r.setMember id name (.value decl) = r := by
      rw [setMember,modifyNamespace,List.modify_eq_self (Nat.le_of_not_lt inside)]
    simp [eq,inside]

end Registry

namespace Collecting

variable {c after : Collection} {inner : NamespaceId}

/-- A global variable that gets a declaration is put into the global namespace as a value. -/
lemma run_global {site : GlobalSite} (ran : (global site).run c = some ((),after)) :
    if site.isDeclared then
      ∃ decl, after.registry = c.registry.setMember .global site.name (.value decl)
    else after.registry = c.registry := by
  unfold global at ran
  cases value : site.value with
  | function fn =>
    rw [value] at ran
    cases ran
    rw [if_pos (by simp [isDeclared,value])]
    exact ⟨_,rfl⟩
  | binding kind init =>
    rw [value] at ran
    obtain ⟨decl,mid,first,last⟩ := run_bind_iff.mp ran
    have declared : Alike (c.registry = ·) _ _ _ := yields_bindingDecl site value
    obtain ⟨isSome,-,eq⟩ := declared.run rfl first
    cases decl with
    | none =>
      cases last
      rw [← isSome,isSome_none,if_neg Bool.false_ne_true,eq]
    | some decl =>
      cases last
      rw [← isSome,eq]
      exact ⟨decl,rfl⟩

lemma inner_globals (sites : List GlobalSite) (global : 0 < c.registry.namespaces.length)
    (ran : (sites.forM Collecting.global).run c = some ((),after)) :
    after.registry.member? space last = some (.inner inner) ↔ c.registry.member? space last = some (.inner inner) ∧
        ¬(space = .global ∧ ∃ site ∈ sites, site.name = last ∧ site.isDeclared = true) := by
  induction sites generalizing c with
  | nil =>
    cases ran
    simp
  | cons site rest ih =>
    obtain ⟨_,mid,first,others⟩ := run_bind_iff.mp ran
    have step := run_global first
    by_cases declared : site.isDeclared = true
    · rw [if_pos declared] at step
      obtain ⟨decl,placed⟩ := step
      have count : mid.registry.namespaces.length = c.registry.namespaces.length := by
        rw [placed,Registry.count_setMember]
      rw [ih (by rwa [count]) others,placed,Registry.inner_setMember_value]
      have inside : (NamespaceId.global).index < c.registry.namespaces.length := global
      simp only [List.mem_cons,inside,and_true]
      constructor
      · rintro ⟨⟨has,elsewhere⟩,unwritten⟩
        refine ⟨has,?_⟩
        rintro ⟨rfl,found,rfl | mem,named,isDeclared⟩
        · exact elsewhere ⟨rfl,named⟩
        · exact unwritten ⟨rfl,found,mem,named,isDeclared⟩
      · rintro ⟨has,unwritten⟩
        refine ⟨⟨has,?_⟩,?_⟩
        · rintro ⟨rfl,named⟩
          exact unwritten ⟨rfl,site,.inl rfl,named,declared⟩
        · rintro ⟨rfl,found,mem,named,isDeclared⟩
          exact unwritten ⟨rfl,found,.inr mem,named,isDeclared⟩
    · rw [if_neg declared] at step
      rw [← step] at global ⊢
      rw [ih global others]
      simp [declared]

lemma inner_namespaceMember {id : NamespaceId} (ran : (namespaceMember site id).run c = some ((),after)) :
    after.registry.member? other last = some (.inner inner) ↔ c.registry.member? other last = some (.inner inner) := by
  obtain ⟨first,c₁,ran₁,ran⟩ := run_bind_iff.mp ran
  obtain ⟨second,c₂,ran₂,ran⟩ := run_bind_iff.mp ran
  have eq : c.registry = c₂.registry := by
    have read : c.registry = c₁.registry := ((yields_memberDecl site []).run rfl ran₁).2.2
    exact ((yields_constantDecl site first).run read ran₂).2.2
  -- A value is put only where there is no namespace.
  have placed {existing : Option PropertyDecl} (free : ∀ inner, c₂.registry.member? id site.name ≠ some (.inner inner))
      (ran : (do
        let merged ← mergeDecls site.owner site.name site.span second existing
        change (·.setMember id site.name (.value merged))).run c₂ = some ((),after)) :
      after.registry.member? other last = some (.inner inner) ↔
        c₂.registry.member? other last = some (.inner inner) := by
    obtain ⟨merged,-,changed⟩ := (yields_mergeDecls _ _ _ second existing).changed ran
    rw [changed,Registry.inner_setMember_value,and_iff_left_iff_imp]
    rintro has ⟨rfl,rfl,-⟩
    exact free inner has
  rw [eq]
  obtain ⟨r,c₃,read,ran⟩ := run_bind_iff.mp ran
  cases read
  cases existing : (c₂.registry.space id).members.get? site.name with
  | none =>
    rw [existing] at ran
    exact placed (by simp [Registry.member?,existing]) ran
  | some held =>
    rw [existing] at ran
    cases held with
    | value decl => exact placed (by simp [Registry.member?,existing]) ran
    | inner space | typedef space =>
      cases ran
      rfl

lemma inner_member (ran : (member site).run c = some ((),after)) :
    after.registry.member? space last = some (.inner inner) ↔ c.registry.member? space last = some (.inner inner) := by
  have read : registry.run c = some (c.registry,c) := rfl
  simp only [member,StateT.run_bind,read,bind_eq_bind,bind_some] at ran
  split at ran
  · obtain ⟨decl,-,changed⟩ := run_instanceMember ran
    rw [changed]
    rfl
  · exact inner_namespaceMember ran
  · exact inner_namespaceMember ran
  · cases ran
    rfl

lemma inner_members (sites : List MemberSite) (ran : (sites.forM member).run c = some ((),after)) :
    after.registry.member? space last = some (.inner inner) ↔ c.registry.member? space last = some (.inner inner) := by
  induction sites generalizing c with
  | nil =>
    cases ran
    rfl
  | cons site rest ih =>
    obtain ⟨_,mid,first,others⟩ := run_bind_iff.mp ran
    rw [ih others,inner_member first]

end Collecting

end GradualJs
