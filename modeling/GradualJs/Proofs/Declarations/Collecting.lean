import GradualJs.Proofs.Declarations.Registering
import GradualJs.Proofs.Registry.Ranks

/-! What the passes after registration do to the registry. A property of the registry that each of
their writes keeps is kept by all passes. None of them reads what is suppressed. -/
namespace GradualJs

open JsDoc (loud)

variable {c after : Collection}

/-- What registration has found, apart from the registry. -/
def Collection.found (c : Collection) : Collection := {c with registry := {}, diagnostics := [], methodOwners := {}}

namespace Resolver

lemma declaredParams_loud (r : Resolver) (doc : Option JsDoc) (seenOptional : Bool)
    (params : List Identifier) : r.declaredParams (doc.map loud) seenOptional params =
      r.declaredParams doc seenOptional params := by
  induction params generalizing seenOptional with
  | nil => rfl
  | cons p rest ih =>
    have tag : (doc.map loud).bind (·.param p.name) = doc.bind (·.param p.name) := by
      cases doc <;> rfl
    simp only [declaredParams,tag,ih]

lemma signature_loud (r : Resolver) (doc : Option JsDoc) (params : List Identifier) :
    r.signature (doc.map loud) params = r.signature doc params := by
  have returnType : (doc.map loud).bind (·.returnType) = doc.bind (·.returnType) := by
    cases doc <;> rfl
  have thisType : (doc.map loud).bind (·.thisType) = doc.bind (·.thisType) := by
    cases doc <;> rfl
  simp only [signature,declaredParams_loud,returnType,thisType]

end Resolver

def GlobalSite.isDeclared (site : GlobalSite) : Bool :=
  match site.value with
  | .function _ => true
  | .binding kind init =>
    (site.jsdoc.bind (·.declaredType)).isSome ||
      match init with
      | none => site.externs
      | some value =>
        kind = .constant || (site.jsdoc.map (·.isConst)).getD false ||
          match value.kind with
          | .function fn =>
            (fn.jsdoc.map (·.hasFunctionInfo)).getD false ||
              (site.jsdoc.map (·.hasFunctionInfo)).getD false
          | _ => false

namespace Collecting

/-- What a type may be said to inherit from: only a class has a superclass, which is a class,
and the rest are interfaces. -/
structure Inheritable (r : Registry) (id : NominalId) (superclass : Option Instance)
    (interfaces : List Instance) : Prop where
  superclass : ∀ s ∈ superclass, (r.nominal s.id).kind = .classType ∧ (r.nominal id).kind = .classType
  interfaces : ∀ i ∈ interfaces, (r.nominal i.id).kind.isInterface = true

def ClassIn (r : Registry) (found : Option Instance) : Prop := ∀ s ∈ found, (r.nominal s.id).kind = .classType

def InterfacesIn (r : Registry) (found : List Instance) : Prop := ∀ i ∈ found, (r.nominal i.id).kind.isInterface = true

/-- The changes that are made while typedefs, enums and headers are read keep the property. -/
structure Headings (holds : Registry → Prop) : Prop where
  resolveTypedef : ∀ r id type, holds r → holds (r.modifyTypedef id ({· with resolved := some type}))
  backEnum : ∀ r id backing members, backing.Plain → holds r → holds (r.modifyEnum id ({· with backing, members}))
  inherit : ∀ r id superclass interfaces (access : Nominal → AccessDiscipline),
    Inheritable r id superclass interfaces → holds r →
    holds (r.modifyNominal id fun n => {n with superclass, interfaces, access := access n})
  uproot : ∀ r id, holds r → holds (r.modifyNominal id ({· with superclass := none, interfaces := []}))

/-- The changes that are made while signatures are read keep the property. -/
structure Signatures (holds : Registry → Prop) : Prop where
  construct : ∀ r id constructor, holds r → holds (r.modifyNominal id ({· with constructor}))
  addFunction : ∀ r decl, holds r → holds (r.addFunction decl)

abbrev Places (holds : Registry → Prop) : Prop := ∀ r id name member, holds r → holds (r.setMember id name member)

/-- The changes that are made while members and globals are read keep the property. -/
structure Contents (holds : Registry → Prop) : Prop where
  setProperty : ∀ r id name decl, holds r → holds (r.setProperty id name decl)
  setMember : Places holds

structure Invariant (holds : Registry → Prop) : Prop extends Headings holds, Signatures holds, Contents holds

/-- A pass that comes to an end keeps what registration has found and the property of the registry,
and has such a result. The other one does the same without suppressions. -/
def Alike (holds : Registry → Prop) {α : Type} (p : α → Prop) (x y : Collecting α) : Prop :=
  ∀ c, holds c.registry → (∀ a after, x.run c = some (a,after) → p a ∧ after.found = c.found ∧ holds after.registry) ∧
    y.run c.loud = (x.run c).map fun res => (res.1,res.2.loud)

abbrev Mirrored (holds : Registry → Prop) {α : Type} (x y : Collecting α) : Prop := Alike holds (fun _ => True) x y

abbrev Yields (holds : Registry → Prop) {α : Type} (p : α → Prop) (x : Collecting α) : Prop := Alike holds p x x
abbrev Keeps (holds : Registry → Prop) {α : Type} (x : Collecting α) : Prop := Mirrored holds x x

variable {holds : Registry → Prop} {α β : Type} {x y : Collecting α}

lemma Alike.pure (good : p a) : Yields holds p (Pure.pure a) := by
  refine fun c kept => ⟨fun b after ran => ?_,rfl⟩
  cases ran
  exact ⟨good,rfl,kept⟩

lemma Alike.bind (first : Alike holds p x y) (next : ∀ a, p a → Alike holds q (f a) (g a)) :
    Alike holds q (x >>= f) (y >>= g) := by
  intro c kept
  obtain ⟨ends,mirrored⟩ := first c kept
  simp only [StateT.run_bind,mirrored]
  cases ran : x.run c with
  | none => exact ⟨nofun,rfl⟩
  | some res =>
    obtain ⟨good,found,kept⟩ := ends _ _ ran
    obtain ⟨ends,mirrored⟩ := next _ good _ kept
    refine ⟨fun b after ran => ?_,mirrored⟩
    obtain ⟨good,eq,kept⟩ := ends b after ran
    exact ⟨good,eq.trans found,kept⟩

lemma Mirrored.bind (first : Mirrored holds x y) (next : ∀ a, Alike holds q (f a) (g a)) :
    Alike holds q (x >>= f) (y >>= g) :=
  Alike.bind first fun a _ => next a

lemma Alike.get_bind {f g : Collection → Collecting β}
    (next : ∀ c, Alike holds q (f c) (g c.loud)) : Alike holds q (get >>= f) (get >>= g) :=
  fun c kept => next c c kept

lemma Mirrored.forM {f : α → Collecting PUnit} {g : β → Collecting PUnit} {list : List α}
    (each : ∀ a, Mirrored holds (f a) (g (mirrored a))) :
    Mirrored holds (list.forM f) ((list.map mirrored).forM g) := by
  induction list with
  | nil => exact .pure trivial
  | cons a rest ih => exact (each a).bind fun _ => ih

lemma Alike.mono (yields : Alike holds p x y) (weaker : ∀ a, p a → p' a) : Alike holds p' x y := fun c kept =>
  ⟨fun a after ran => ((yields c kept).1 a after ran).imp_left (weaker a),(yields c kept).2⟩

lemma Alike.ite {_ : Decidable P} {_ : Decidable Q} (eq : P ↔ Q)
    (holding : P → Alike holds p x y) (failing : ¬P → Alike holds p x' y') :
    Alike holds p (if P then x else x') (if Q then y else y') := by
  by_cases known : P
  · rw [if_pos known,if_pos (eq.mp known)]
    exact holding known
  · rw [if_neg known,if_neg (mt eq.mpr known)]
    exact failing known

lemma keeps_modify (eq : ∀ c : Collection, (f c).found = c.found ∧ (f c).registry = c.registry)
    (mirrored : ∀ c, f c.loud = (f c).loud) : Keeps holds (modify f) := by
  refine fun c kept => ⟨fun _ after ran => ?_,congrArg (fun c => some ((),c)) (mirrored c)⟩
  cases ran
  exact ⟨trivial,(eq c).1,by rwa [(eq c).2]⟩

lemma Alike.run_found (yields : Alike holds p x y) (kept : holds c.registry)
    (ran : x.run c = some (a,after)) : p a ∧ after.found = c.found ∧ holds after.registry :=
  (yields c kept).1 a after ran

lemma Alike.keeping (yields : Alike holds p x y) (found : Collection) :
    (Lifting.runs.keeping fun c : Collection => c.found = found ∧ holds c.registry).Holds p fun _ => x := by
  rintro c ⟨rfl,kept⟩ ⟨a,after⟩ ran
  exact yields.run_found kept ran

lemma Alike.run (yields : Alike holds p x y) (kept : holds c.registry)
    (ran : x.run c = some (a,after)) : p a ∧ after.members = c.members ∧ holds after.registry := by
  obtain ⟨good,found,kept⟩ := yields.run_found kept ran
  have members : after.found.members = c.found.members := by rw [found]
  exact ⟨good,members,kept⟩

lemma keeps_report (kind : DiagnosticKind) (message : String) (span : Span) : Keeps holds (report kind message span) :=
  keeps_modify (fun _ => ⟨rfl,rfl⟩) fun _ => rfl

lemma Alike.reported (yields : Alike holds p x y) (wrong : Prop) [Decidable wrong]
    (kind : DiagnosticKind) (message : String) (span : Span) :
    Alike holds p (if wrong then (do report kind message span; x) else x)
      (if wrong then (do report kind message span; y) else y) :=
  .ite Iff.rfl (fun _ => (keeps_report _ _ _).bind fun _ => yields) fun _ => yields

lemma keeps_change {f : Registry → Registry} (keeps : ∀ r, holds r → holds (f r)) : Keeps holds (change f) := by
  refine fun c kept => ⟨fun _ after ran => ?_,rfl⟩
  cases ran
  exact ⟨trivial,rfl,keeps _ kept⟩

lemma yields_registry : Yields holds holds registry := by
  refine fun c kept => ⟨fun _ after ran => ?_,rfl⟩
  cases ran
  exact ⟨kept,rfl,kept⟩

lemma keeps_registry : Keeps holds registry := yields_registry.mono fun _ _ => trivial

lemma keeps_ask (ans : Option α) : Keeps holds (ask ans) := by
  intro c kept
  cases ans with
  | none => exact ⟨nofun,rfl⟩
  | some a =>
    refine ⟨fun b after ran => ?_,rfl⟩
    cases ran
    exact ⟨trivial,rfl,kept⟩

lemma keeps_attempt (resolution : Resolve α) : Keeps holds (attempt resolution) := by
  refine (keeps_ask _).bind fun res => ?_
  cases res with
  | ok a => exact .pure trivial
  | error e => exact Mirrored.bind (keeps_modify (fun _ => ⟨rfl,rfl⟩) fun _ => rfl) fun _ => .pure trivial

lemma keeps_exprOrUnknown (templates : List String) (e : TypeExpr) : Keeps holds (exprOrUnknown templates e) :=
  keeps_registry.bind fun _ => (keeps_attempt _).bind fun _ => .pure trivial

/-- What was read off the registry may be written down, as nothing has changed in between. -/
lemma keeps_written {x y : Registry → Collecting α} {p : Registry → α → Prop}
    {f : α → Registry → Registry} (reads : ∀ r, Alike (r = ·) (p r) (x r) (y r))
    (keeps : ∀ r a, p r a → holds r → holds (f a r)) :
    Mirrored holds (do change (f (← x (← registry)))) (do change (f (← y (← registry)))) := by
  intro c kept
  obtain ⟨ends,mirrored⟩ := reads c.registry c rfl
  constructor
  · intro _ after ran
    obtain ⟨r,_,read,ran⟩ := run_bind_iff.mp ran
    cases read
    obtain ⟨a,mid,first,last⟩ := run_bind_iff.mp ran
    obtain ⟨good,found,eq⟩ := ends a mid first
    cases last
    have written := keeps _ a good kept
    rw [eq] at written
    exact ⟨trivial,found,written⟩
  · have read (c : Collection) : registry.run c = some (c.registry,c) := rfl
    simp only [StateT.run_bind,read,Option.bind_eq_bind,Option.bind_some, Collection.registry_loud,mirrored]
    cases (x c.registry).run c <;> rfl

section Typedefs

variable (resolve : ∀ r id type, holds r → holds (r.modifyTypedef id ({· with resolved := some type})))
include resolve

lemma keeps_typedef (id : TypedefId) (hasMeaning : Bool) : Keeps holds (typedef id hasMeaning) := by
  have written (type : Ty) : Keeps holds (change (·.modifyTypedef id ({· with resolved := some type}))) :=
    keeps_change fun r => resolve r id type
  refine keeps_registry.bind fun r => ?_
  cases hasMeaning with
  | true => exact (keeps_attempt _).bind fun _ => Mirrored.bind (.pure trivial) written
  | false => exact (keeps_report _ _ _).bind fun _ => Mirrored.bind (.pure trivial) written

lemma keeps_typedefs : Keeps holds typedefs := by
  refine .get_bind fun c => ?_
  have all : Mirrored holds (c.typedefs.forM fun site => typedef site.1 site.2)
      ((c.typedefs.map id).forM fun site => typedef site.1 site.2) :=
    .forM fun site => keeps_typedef resolve site.1 site.2
  rwa [List.map_id] at all

end Typedefs

section Enums

lemma keeps_enumMembers (name : String) (backing : Ty) (done : Table String Span)
    (properties : List ObjectProperty) : Mirrored holds (enumMembers name backing done properties)
      (enumMembers name backing done (properties.map ObjectProperty.loud)) := by
  induction properties generalizing done with
  | nil => exact .pure trivial
  | cons p rest ih =>
    simp only [List.map_cons,enumMembers,ObjectProperty.key_loud, ObjectProperty.span_loud,ObjectProperty.value_loud,
      Expression.span_loud,Registry.simpleType_loud]
    refine .ite Iff.rfl (fun _ => (keeps_report _ _ _).bind fun _ => ih _) fun _ => ?_
    refine keeps_registry.bind fun r => (keeps_ask _).bind fun type => .ite Iff.rfl (fun _ => ?_) fun _ => ?_
    · exact Mirrored.bind (.pure trivial) fun fits => (ih _).reported _ _ _ _
    · exact (keeps_ask _).bind fun fits => (ih _).reported _ _ _ _

/-- One primitive type leaves no room for enums and objects. -/
lemma plain_of_isBackingType {t : Ty} (backs : isBackingType t = true) : t.Plain := by
  have counted (set : PrimitiveSet) (some : set.isEmpty = false) :
      0 < (PrimitiveSet.tags.filter set.contains).length := by
    obtain ⟨a,b,c,d,e,f⟩ := set
    revert a b c d e f
    decide
  cases t with
  | union u =>
    simp only [isBackingType,Ty.isScalarOnly,Ty.primitives,Ty.memberCount,Union.memberCount,
      Ty.isPrimitive,Bool.and_eq_true,Bool.or_eq_true,Bool.not_eq_true',List.isEmpty_iff,
      decide_eq_true_eq] at backs
    obtain ⟨⟨⟨objects,-⟩,some⟩,few | ⟨⟨⟨-,enums⟩,-⟩,-⟩⟩ := backs
    · have := counted u.primitives some
      have := of_decide_eq_true few
      exact ⟨List.length_eq_zero_iff.mp (by omega),objects⟩
    · exact ⟨enums,objects⟩
  | bottom | top | unknown => trivial

lemma yields_enumBacking (name : String) (site : EnumSite) :
    Alike holds Ty.Plain (enumBacking name site) (enumBacking name site.loud) := by
  have decided (declared : Ty) : Yields holds Ty.Plain (do
      if isBackingType declared then return declared
      report .invalidEnumBackingType
        ("enum " ++ name ++ " cannot be backed by " ++ (← registry).describe declared) site.span
      return .unknown) := by
    split
    · exact .pure (plain_of_isBackingType ‹_›)
    · exact keeps_registry.bind fun _ => (keeps_report _ _ _).bind fun _ => .pure trivial
  unfold enumBacking
  dsimp only [EnumSite.loud,loud]
  split
  · exact (keeps_exprOrUnknown _ _).bind fun type => Mirrored.bind (.pure trivial) decided
  · exact Mirrored.bind (.pure trivial) decided

variable (back : ∀ r id backing members, backing.Plain → holds r → holds (r.modifyEnum id ({· with backing, members})))
include back

lemma keeps_enumType (site : EnumSite) : Mirrored holds (enumType site) (enumType site.loud) := by
  refine keeps_registry.bind fun r => (yields_enumBacking _ site).bind fun backing plain => ?_
  have changed (members : Table String Span) :
      Keeps holds (change (·.modifyEnum site.id ({· with backing, members}))) :=
    keeps_change fun r => back r _ _ _ plain
  have empty : Keeps holds (do
      report .enumInitializerNotObjectLiteral
        ("enum " ++ (r.enumDecl site.id).name ++ " must be initialized with an object literal")
        site.span
      return ({} : Table String Span)) :=
    (keeps_report _ _ _).bind fun _ => .pure trivial
  dsimp only [EnumSite.loud]
  rcases site.initializer with _ | ⟨_,value⟩
  · exact .ite Iff.rfl (fun _ => Mirrored.bind (.pure trivial) changed) fun _ => empty.bind changed
  · cases value with
    | object properties =>
      simp only [Option.map_some,Expression.loud,ExpressionKind.loud, loudProperties_eq]
      exact (keeps_enumMembers _ _ _ _).bind changed
    | _ => exact empty.bind changed

lemma keeps_enums : Keeps holds enums := .get_bind fun _ => Mirrored.forM (keeps_enumType back)

end Enums

lemma yields_taggedSuperclass (name : String) (span : Span) (resolver : Resolver) (tags : List TypeExpr) :
    Yields holds (ClassIn resolver.registry) (taggedSuperclass name span resolver tags) := by
  cases tags with
  | nil => exact .pure (by simp [ClassIn])
  | cons tag others =>
    refine Alike.reported ((keeps_attempt _).bind fun found => ?_) _ _ _ _
    cases found with
    | none => exact .pure (by simp [ClassIn])
    | some parent =>
      dsimp only
      split
      · rename_i isClass
        refine .pure fun s eq => ?_
        cases eq
        exact isClass
      · exact (keeps_report _ _ _).bind fun _ => .pure (by simp [ClassIn])

lemma yields_writtenSuperclass (name : String) (resolver : Resolver) (tagged : Option Instance)
    (e : Expression) (isClass : ClassIn resolver.registry tagged) : Alike holds (ClassIn resolver.registry)
      (writtenSuperclass name resolver.registry tagged e)
      (writtenSuperclass name resolver.registry tagged e.loud) := by
  unfold writtenSuperclass
  dsimp only
  rw [e.qualifiedName_loud,e.span_loud]
  split
  · exact (keeps_report _ _ _).bind fun _ => .pure isClass
  · exact Alike.reported (.pure isClass) _ _ _ _
  · split
    · rename_i parent _ parentClass
      refine .pure fun s found => ?_
      cases found
      exact parentClass
    · exact (keeps_report _ _ _).bind fun _ => .pure (by simp [ClassIn])

lemma yields_taggedInterfaces (resolver : Resolver) (kind : DiagnosticKind)
    (message : TypeExpr → Instance → String) (tags : List TypeExpr) :
    Yields holds (InterfacesIn resolver.registry) (taggedInterfaces resolver kind message tags) := by
  induction tags with
  | nil => exact .pure (by simp [InterfacesIn])
  | cons tag rest ih =>
    refine (keeps_attempt _).bind fun found => ?_
    have appended (kept : List Instance) (interfaces : InterfacesIn resolver.registry kept) :
        Yields holds (InterfacesIn resolver.registry)
          (do return kept ++ (← taggedInterfaces resolver kind message rest)) := by
      refine ih.bind fun others good => .pure fun i mem => ?_
      rcases List.mem_append.mp mem with inKept | inOthers
      · exact interfaces i inKept
      · exact good i inOthers
    dsimp only
    split
    · exact appended [] (by simp [InterfacesIn])
    · rename_i i
      split
      · rename_i isInterface
        refine appended [i] fun j mem => ?_
        rw [List.mem_singleton.mp mem]
        exact isInterface
      · exact (keeps_report _ _ _).bind fun _ => appended [] (by simp [InterfacesIn])

lemma supertypes_loud (jsdoc : Option JsDoc) : (jsdoc.map loud).map (·.supertypes) = jsdoc.map (·.supertypes) ∧
      (jsdoc.map loud).map (·.interfaces) = jsdoc.map (·.interfaces) := by
  cases jsdoc <;> exact ⟨rfl,rfl⟩

lemma yields_classHeader (site : NominalSite) (decl : Nominal) (resolver : Resolver) : Alike holds (fun found =>
        ClassIn resolver.registry found.1 ∧ InterfacesIn resolver.registry found.2)
      (classHeader site decl resolver) (classHeader site.loud decl resolver) := by
  obtain ⟨extended,implemented⟩ := supertypes_loud site.jsdoc
  unfold classHeader
  dsimp only [NominalSite.loud]
  rw [extended,implemented]
  refine (yields_taggedSuperclass _ _ resolver _).bind fun tagged isClass => ?_
  have named (superclass : Option Instance) (tags : List TypeExpr)
      (isClass : ClassIn resolver.registry superclass) : Yields holds (fun found =>
        ClassIn resolver.registry found.1 ∧ InterfacesIn resolver.registry found.2) (do
        let interfaces ← taggedInterfaces resolver .implementsNonInterface (fun tag _ =>
          decl.name ++ " implements " ++ tag.label ++ ", which is not an interface") tags
        return (superclass,interfaces)) :=
    (yields_taggedInterfaces _ _ _ _).bind fun _ interfaces => .pure ⟨isClass,interfaces⟩
  rcases site.source with _ | ⟨name,superclass,members,jsdoc,span⟩
  · exact Alike.bind (.pure isClass) fun _ => named _ _
  · cases superclass with
    | none => exact Alike.bind (.pure isClass) fun _ => named _ _
    | some e => exact (yields_writtenSuperclass _ resolver tagged e isClass).bind fun _ => named _ _

lemma yields_interfaceHeader (site : NominalSite) (decl : Nominal) (resolver : Resolver) :
    Alike holds (fun found => found.1 = none ∧ InterfacesIn resolver.registry found.2)
      (interfaceHeader site decl resolver) (interfaceHeader site.loud decl resolver) := by
  obtain ⟨extended,implemented⟩ := supertypes_loud site.jsdoc
  unfold interfaceHeader
  dsimp only [NominalSite.loud]
  rw [extended,implemented]
  refine Alike.reported ?_ _ _ _ _
  exact (yields_taggedInterfaces resolver _ _ _).bind fun _ interfaces => .pure ⟨rfl,interfaces⟩

lemma keeps_header (site : NominalSite) (inherit : ∀ r superclass interfaces (access : Nominal → AccessDiscipline),
      Inheritable r site.id superclass interfaces → holds r → holds (r.modifyNominal site.id fun n =>
        {n with superclass, interfaces, access := access n})) :
    Mirrored holds (header site) (header site.loud) := by
  -- What the tags name is looked up in the registry as it is, and nothing has changed when it
  -- is written down.
  let read (site : NominalSite) (r : Registry) : Collecting (Bool × Option Instance × List Instance) :=
    let decl := r.nominal site.id
    if decl.kind = .classType then
      return (true,← classHeader site decl (r.resolver decl.typeParams))
    else return (false,← interfaceHeader site decl (r.resolver decl.typeParams))
  have eq (site : NominalSite) : header site = (do
      let (isClass,superclass,interfaces) ← read site (← registry)
      let opens := isClass && !site.explicitAccess && superclass.isSome
      change (·.modifyNominal site.id fun n => {n with
        superclass, interfaces, access := if opens then .unrestricted else n.access})) := by
    unfold header
    refine bind_congr fun r => ?_
    dsimp only [read]
    split <;> simp [*]
  rw [eq,eq]
  refine keeps_written (p := fun r found => Inheritable r site.id found.2.1 found.2.2)
    (fun r => .ite Iff.rfl (fun isClass => ?_) fun _ => ?_) fun r found => inherit r _ _ _
  · refine (yields_classHeader site _ _).bind fun header legal => .pure ?_
    exact ⟨fun s mem => ⟨legal.1 s mem,isClass⟩,legal.2⟩
  · refine (yields_interfaceHeader site _ _).bind fun header legal => .pure ?_
    exact ⟨by simp [legal.1],legal.2⟩

lemma keeps_headers (inv : Headings holds) : Keeps holds headers :=
  .get_bind fun _ => Mirrored.forM fun site => keeps_header site fun r => inv.inherit r site.id

lemma keeps_breakCycle (inv : Headings holds) (id : NominalId) : Keeps holds (breakCycle id) := by
  refine keeps_registry.bind fun r => ?_
  split
  · exact (keeps_report _ _ _).bind fun _ => keeps_change fun r => inv.uproot r _
  · exact .pure trivial

lemma keeps_breakCycles (inv : Headings holds) : Keeps holds breakCycles :=
  .get_bind fun _ => Mirrored.forM fun site => keeps_breakCycle inv site.id

section Functions

lemma keeps_bindMethodOwners : Keeps holds bindMethodOwners := by
  refine keeps_modify (fun _ => ⟨rfl,rfl⟩) fun c => ?_
  simp only [Collection.loud,List.foldl_map]
  congr 2
  funext owners site
  obtain ⟨owner,ofInstances,name,jsdoc,value,constructor,externs,span⟩ := site
  cases value with
  | function fn =>
    dsimp only [MemberSite.loud,MemberValue.loud]
    cases ofInstances <;> cases c.registry.nominalNamed? owner <;> simp
  | _ => rfl

lemma keeps_lenient (resolution : Resolver.Lenient α) : Keeps holds (lenient resolution) :=
  (keeps_ask _).bind fun _ => Mirrored.bind (keeps_modify (fun _ => ⟨rfl,rfl⟩) fun _ => rfl) fun _ => .pure trivial

lemma keeps_functionLiteral (inv : Signatures holds) (templates : List String)
    (externs : Bool) (fn : FunctionLiteral) : Mirrored holds (functionLiteral templates externs fn)
      (functionLiteral templates externs fn.loud) := by
  refine .get_bind fun c => ?_
  have name (owner : Option NominalId) : functionName c.registry fn.loud owner = functionName c.registry fn owner := by
    simp only [functionName,fn.name_loud,fn.span_loud]
  have own (name : String) : ownTemplates name fn.loud = ownTemplates name fn := by
    unfold ownTemplates
    rw [fn.id_loud,fn.jsdoc_loud]
    cases fn.jsdoc <;> rfl
  simp only [Collection.registry_loud,Collection.constructors_loud,
    Collection.methodOwners_loud,fn.id_loud,fn.span_loud,
    fn.jsdoc_loud,fn.parameters_loud,Resolver.signature_loud,
    name,own]
  refine (keeps_lenient _).bind fun declared => ?_
  have added (decl : FunctionDecl) (scope : List String) :
      Keeps holds (change (·.addFunction decl) >>= fun _ => pure scope) :=
    (keeps_change fun r => inv.addFunction r _).bind fun _ => .pure trivial
  split
  · exact (keeps_change fun r => inv.construct r _ _).bind fun _ => added _ _
  · exact added _ _

mutual
lemma keeps_functions (inv : Signatures holds) (templates : List String) (externs : Bool) :
    (nodes : List Node) → Mirrored holds (functions templates externs nodes)
      (functions templates externs (loudNodes nodes))
  | [] => .pure trivial
  | node :: rest => by
    rw [loudNodes,functions,functions]
    exact (keeps_function inv templates externs node).bind fun _ =>
      keeps_functions inv templates externs rest

lemma keeps_function (inv : Signatures holds) (templates : List String) (externs : Bool) :
    (node : Node) → Mirrored holds (function templates externs node) (function templates externs node.loud)
  | .function fn inner => by
    rw [Node.loud,function,function]
    exact (keeps_functionLiteral inv templates externs fn).bind fun scope =>
      keeps_functions inv scope externs inner
  | .statement _ | .expression _ => .pure trivial
end

variable (constructing : ∀ r id constructor, holds r → holds (r.modifyNominal id ({· with constructor})))
include constructing

lemma keeps_inheritConstructor (id : NominalId) : Keeps holds (inheritConstructor id) := by
  refine keeps_registry.bind fun r => ?_
  dsimp only
  split
  · split
    · exact .pure trivial
    · exact keeps_change fun r => constructing r _ _
  · exact .pure trivial

lemma keeps_inheritConstructors : Keeps holds inheritConstructors :=
  .get_bind fun _ => Mirrored.forM fun site => keeps_inheritConstructor constructing site.id

end Functions

section Properties
variable (site : MemberSite) (templates : List String)

lemma keeps_stubFunction (doc : JsDoc) :
    Mirrored holds (stubFunction templates doc) (stubFunction templates doc.loud) := by
  refine keeps_registry.bind fun r => ?_
  have signature := (r.resolver templates).signature_loud (some doc)
  dsimp only [Option.map_some] at signature
  rw [signature]
  exact (keeps_lenient _).bind fun _ => .pure trivial

lemma yields_typedDecl (type : TypeExpr) (span : Span) :
    Yields holds (·.declared = true) (typedDecl templates type span) := by
  unfold typedDecl
  split
  · exact (keeps_exprOrUnknown _ _).bind fun _ => .pure rfl
  · exact (keeps_exprOrUnknown _ _).bind fun _ => .pure rfl

lemma isConst_loud (jsdoc : Option JsDoc) : (jsdoc.map loud).map (·.isConst) = jsdoc.map (·.isConst) := by
  cases jsdoc <;> rfl

lemma yields_inferredDecl : Alike holds (·.declared = (site.jsdoc.map (·.isConst)).getD false) (inferredDecl site)
      (inferredDecl site.loud) := by
  unfold inferredDecl
  dsimp only [MemberSite.loud]
  rw [isConst_loud]
  cases site.value with
  | expression e =>
    refine keeps_registry.bind fun r => ?_
    rw [Registry.simpleType_loud]
    exact (keeps_ask _).bind fun _ => .pure rfl
  | stub | function fn => exact Mirrored.bind (.pure trivial) fun _ => .pure rfl

/-- Whether a property is declared where it is written, and not only given a value: by a
function, a constant, or a comment that says of what type it is. -/
def declares (site : MemberSite) : Bool :=
  match site.value, site.jsdoc with
  | .function _, _ => true
  | _, none => false
  | value, some doc =>
    doc.declaredType.isSome || doc.hasFunctionInfo && isStub value || doc.isConst

lemma yields_memberDecl : Alike holds (·.declared = declares site) (memberDecl site templates)
      (memberDecl site.loud templates) := by
  have inferred : Alike holds _ _ _ := yields_inferredDecl site
  obtain ⟨owner,ofInstances,name,jsdoc,value,constructor,externs,span⟩ := site
  cases value with
  | function fn =>
    refine keeps_registry.bind fun r => ?_
    rw [fn.id_loud]
    exact .pure rfl
  | stub | expression =>
    cases jsdoc with
    | none => exact inferred
    | some doc =>
      -- A comment speaks for any value but a function.
      obtain ⟨declaredType⟩ := doc
      cases declaredType with
      | some type => exact yields_typedDecl _ _ _
      | none =>
        refine .ite Iff.rfl (fun described => ?_) fun undescribed => ?_
        · refine (keeps_stubFunction _ _).bind fun _ => .pure ?_
          simp [declares,described]
        · refine inferred.mono fun decl eq => eq.trans ?_
          simp [declares,undescribed]

lemma yields_mergeDecls (owner name : String) (span : Span) (incoming : PropertyDecl) (existing : Option PropertyDecl) :
    Yields holds (·.declared = ((existing.map (·.declared)).getD false || incoming.declared))
      (mergeDecls owner name span incoming existing) := by
  unfold mergeDecls
  split
  · exact .pure (by simp)
  · refine keeps_registry.bind fun r => ?_
    dsimp only
    split
    · rename_i declared _
      exact (keeps_ask _).bind fun agree =>
        Alike.reported (.pure (by simp [declared])) _ _ _ _
    · rename_i declared _
      exact .pure (by simp [declared])
    · rename_i inferred declared
      exact .pure (by simp [declared])
    · rename_i inferred inferred'
      exact (keeps_ask _).bind fun _ => .pure (by simp [inferred,inferred'])

lemma yields_constantDecl (decl : PropertyDecl) :
    Alike holds (·.declared = decl.declared) (constantDecl site decl) (constantDecl site.loud decl) := by
  have isConst := isConst_loud site.jsdoc
  have stub : isStub site.value.loud = isStub site.value := by cases site.value <;> rfl
  refine .ite (by rw [← isConst]; rfl) (fun _ => ?_) fun _ => .pure rfl
  refine .ite (by rw [← stub]; rfl) (fun _ => ?_) fun _ => .pure rfl
  exact (keeps_report _ _ _).bind fun _ => .pure rfl

lemma yields_abstractDecl (id : NominalId) (decl : PropertyDecl) :
    Alike holds (·.declared = decl.declared) (abstractDecl site id decl) (abstractDecl site.loud id decl) := by
  have isAbstract : (site.jsdoc.map loud).map (·.isAbstract) = site.jsdoc.map (·.isAbstract) := by
    cases site.jsdoc <;> rfl
  refine .ite (by rw [← isAbstract]; rfl) (fun _ => ?_) fun _ => .pure rfl
  refine keeps_registry.bind fun r => .ite Iff.rfl (fun _ => ?_) fun _ => .pure rfl
  exact (keeps_report _ _ _).bind fun _ => .pure rfl

lemma keeps_instanceMember (inv : Contents holds) (site : MemberSite) (id : NominalId) :
    Mirrored holds (instanceMember site id) (instanceMember site.loud id) := by
  refine keeps_registry.bind fun r => (yields_memberDecl _ _).bind fun decl _ => ?_
  refine (yields_constantDecl _ _).bind fun decl _ => (yields_abstractDecl _ _ _).bind fun decl _ => ?_
  refine keeps_registry.bind fun r => (yields_mergeDecls _ _ _ _ _).bind fun merged _ => ?_
  exact keeps_change fun r => inv.setProperty r _ _ _

lemma keeps_namespaceMember (placing : Places holds) (site : MemberSite) (id : NamespaceId) :
    Mirrored holds (namespaceMember site id) (namespaceMember site.loud id) := by
  refine (yields_memberDecl _ _).bind fun decl _ => (yields_constantDecl _ _).bind fun decl _ => ?_
  have placed (existing : Option PropertyDecl) : Keeps holds (do
      let merged ← mergeDecls site.owner site.name site.span decl existing
      change (·.setMember id site.name (.value merged))) :=
    (yields_mergeDecls _ _ _ _ _).bind fun _ _ => keeps_change fun r => placing r _ _ _
  refine keeps_registry.bind fun r => ?_
  dsimp only [MemberSite.loud]
  split
  · exact placed _
  · exact .pure trivial
  · exact placed none

lemma keeps_member (inv : Contents holds) (site : MemberSite) : Mirrored holds (member site) (member site.loud) := by
  refine keeps_registry.bind fun r => ?_
  dsimp only [MemberSite.loud]
  split
  · exact keeps_instanceMember inv site _
  · exact keeps_namespaceMember inv.setMember site _
  · exact keeps_namespaceMember inv.setMember site _
  · exact .pure trivial

lemma keeps_members (inv : Contents holds) : Keeps holds members :=
  .get_bind fun _ => Mirrored.forM fun site => keeps_member inv site

lemma described_loud (jsdoc : Option JsDoc) : ((jsdoc.map loud).map (·.hasFunctionInfo)).getD false =
      (jsdoc.map (·.hasFunctionInfo)).getD false := by
  cases jsdoc <;> rfl

lemma yields_bindingDecl (site : GlobalSite) {init : Option Expression} (binding : site.value = .binding kind init) :
    Alike holds (·.isSome = site.isDeclared) (bindingDecl site kind init)
      (bindingDecl site.loud kind (init.map Expression.loud)) := by
  have declaredType : (site.jsdoc.map loud).bind (·.declaredType) = site.jsdoc.bind (·.declaredType) := by
    cases site.jsdoc <;> rfl
  unfold bindingDecl
  simp only [GlobalSite.loud,isConst_loud,declaredType,Option.isNone_map]
  apply Alike.reported
  cases typed : site.jsdoc.bind (·.declaredType) with
  | some type =>
    refine (keeps_exprOrUnknown _ _).bind fun _ => .pure ?_
    simp [GlobalSite.isDeclared,binding,typed]
  | none =>
    rcases init with _ | ⟨_,value⟩
    · refine .ite Iff.rfl (fun externs => .pure ?_) fun externs => .pure ?_ <;>
        simp [GlobalSite.isDeclared,binding,typed,externs]
    · refine .ite Iff.rfl (fun constant => ?_) fun mutable => ?_
      · refine keeps_registry.bind fun r => ?_
        rw [Registry.simpleType_loud]
        refine (keeps_ask _).bind fun _ => .pure ?_
        simp only [Option.isSome_some,GlobalSite.isDeclared,binding,typed,constant, Bool.true_or,Bool.or_true]
      · rw [Bool.not_eq_true] at mutable
        cases value with
        | function fn =>
          simp only [Expression.loud,ExpressionKind.loud, fn.jsdoc_loud,fn.id_loud,described_loud]
          refine .ite Iff.rfl (fun described => keeps_registry.bind fun _ => .pure ?_) fun undescribed => .pure ?_
          · simp only [Option.isSome_some,GlobalSite.isDeclared,binding,typed,mutable,described,
              Option.isSome_none,Bool.false_or]
          · rw [Bool.not_eq_true] at undescribed
            simp only [GlobalSite.isDeclared,binding,typed,mutable,undescribed, Option.isSome_none,Bool.false_or]
        | _ =>
          refine .pure ?_
          simp only [GlobalSite.isDeclared,binding,typed,mutable,Option.isSome_none,Bool.false_or]

lemma keeps_global (placing : Places holds) (site : GlobalSite) : Mirrored holds (global site) (global site.loud) := by
  unfold global
  dsimp only [GlobalSite.loud]
  cases value : site.value with
  | function fn =>
    refine keeps_registry.bind fun r => ?_
    rw [fn.id_loud]
    simp only [pure_bind]
    exact keeps_change fun r => placing r _ _ _
  | binding kind init =>
    refine (yields_bindingDecl site value).bind fun decl _ => ?_
    cases decl with
    | none => exact .pure trivial
    | some decl => exact keeps_change fun r => placing r _ _ _

lemma keeps_globals (placing : Places holds) : Keeps holds globals :=
  .get_bind fun _ => Mirrored.forM fun site => keeps_global placing site

end Properties

section Checks
variable (legacy : Bool) (id : NominalId)

lemma keeps_checkAccess : Keeps holds (checkAccess id) := by
  refine keeps_registry.bind fun r => ?_
  dsimp only
  split
  · exact .pure trivial
  · split
    · exact keeps_report _ _ _
    · exact keeps_report _ _ _
    · exact .pure trivial

lemma keeps_overrideLattice : Keeps holds (overrideLattice legacy) := keeps_registry.bind fun _ => .pure trivial

lemma keeps_reportAll (found : List Diagnostic) : Keeps holds (reportAll found) :=
  keeps_modify (fun _ => ⟨rfl,rfl⟩) fun _ => rfl

lemma keeps_checkOverrides : Keeps holds (checkOverrides legacy id) :=
  (keeps_overrideLattice legacy).bind fun _ => (keeps_ask _).bind fun _ => keeps_reportAll _

lemma keeps_checkInterfaces : Keeps holds (checkInterfaces legacy id) :=
  (keeps_overrideLattice legacy).bind fun _ => (keeps_ask _).bind fun _ => keeps_reportAll _

lemma keeps_checkAbstract : Keeps holds (checkAbstract id) := by
  refine keeps_registry.bind fun r => ?_
  dsimp only
  split
  · exact .pure trivial
  · exact keeps_reportAll _

lemma keeps_checkSuperInterfaces : Keeps holds (checkSuperInterfaces id) := by
  refine keeps_registry.bind fun r => ?_
  dsimp only
  split
  · exact .pure trivial
  · exact (keeps_ask _).bind fun _ => keeps_reportAll _

lemma keeps_checkNominal : Keeps holds (checkNominal legacy id) := by
  refine (keeps_checkAccess id).bind fun _ => (keeps_checkOverrides legacy id).bind fun _ => ?_
  refine keeps_registry.bind fun r => ?_
  split
  · exact (keeps_checkInterfaces legacy id).bind fun _ => keeps_checkAbstract id
  · exact keeps_checkSuperInterfaces id

lemma keeps_checkNominals : Keeps holds (checkNominals legacy) :=
  .get_bind fun _ => Mirrored.forM fun site => keeps_checkNominal legacy site.id

end Checks

/-- The passes in groups: what types are, what functions take and give, what there is in
types, and what is left. -/
def headings : Collecting Unit := do
  typedefs
  enums
  headers
  breakCycles
  bindMethodOwners

def signatures (prog : Program) (externs : Option Program) : Collecting Unit := do
  match externs with
  | some e => functions [] true (statementNodes e.statements)
  | none => pure ()
  functions [] false (statementNodes prog.statements)
  inheritConstructors

def closing (legacy : Bool) : Collecting Unit := do
  globals
  checkNominals legacy

lemma resolution_eq (prog : Program) (externs : Option Program) (legacy : Bool) :
    Declarations.resolution prog externs legacy = (do
      headings
      signatures prog externs
      members
      closing legacy) := by
  cases externs <;> simp [Declarations.resolution,headings,signatures,closing,bind_assoc]

lemma keeps_headings (inv : Headings holds) : Keeps holds headings := by
  refine (keeps_typedefs inv.resolveTypedef).bind fun _ => ?_
  refine (keeps_enums inv.backEnum).bind fun _ => ?_
  refine (keeps_headers inv).bind fun _ => (keeps_breakCycles inv).bind fun _ => ?_
  exact keeps_bindMethodOwners

lemma keeps_signatures (inv : Signatures holds) (prog : Program)
    (externs : Option Program) : Mirrored holds (signatures prog externs)
      (signatures prog.loud (externs.map Program.loud)) := by
  have nodes (p : Program) : statementNodes p.loud.statements = loudNodes (statementNodes p.statements) := by
    rw [loudNodes_eq]
    exact statementNodes_loud p.statements
  have bodies : Mirrored holds (do
      functions [] false (statementNodes prog.statements)
      inheritConstructors) (do
      functions [] false (loudNodes (statementNodes prog.statements))
      inheritConstructors) :=
    (keeps_functions inv [] false _).bind fun _ => keeps_inheritConstructors inv.construct
  unfold signatures
  rw [nodes prog]
  cases externs with
  | none => exact bodies
  | some e =>
    dsimp only [Option.map_some]
    rw [nodes e]
    exact (keeps_functions inv [] true _).bind fun _ => bodies

lemma keeps_closing (placing : Places holds) (legacy : Bool) : Keeps holds (closing legacy) :=
  (keeps_globals placing).bind fun _ => keeps_checkNominals legacy

lemma keeps_resolution (inv : Invariant holds) (prog : Program) (externs : Option Program) (legacy : Bool) :
    Mirrored holds (Declarations.resolution prog externs legacy) (Declarations.resolution
      prog.loud (externs.map Program.loud) legacy) := by
  rw [resolution_eq,resolution_eq]
  refine (keeps_headings inv.toHeadings).bind fun _ => ?_
  refine (keeps_signatures inv.toSignatures prog externs).bind fun _ => ?_
  exact (keeps_members inv.toContents).bind fun _ => keeps_closing inv.setMember legacy

end Collecting

namespace Declarations

structure Phases (prog : Program) (externs : Option Program) (legacy : Bool)
    (headed signed filled final : Collection) : Prop where
  headings : Collecting.headings.run (registered prog externs) = some ((),headed)
  signatures : (Collecting.signatures prog externs).run headed = some ((),signed)
  members : Collecting.members.run signed = some ((),filled)
  closing : (Collecting.closing legacy).run filled = some ((),final)

lemma collect_phases {decls : Declarations} (collected : collect prog externs legacy = some decls) :
    ∃ headed signed filled final, Phases prog externs legacy headed signed filled final ∧
      decls.registry = final.registry.freeze := by
  obtain ⟨⟨_,final⟩,resolved,eq⟩ := Option.bind_eq_some_iff.mp collected
  cases eq
  rw [Collecting.resolution_eq] at resolved
  obtain ⟨_,headed,headings,resolved⟩ := run_bind_iff.mp resolved
  obtain ⟨_,signed,signatures,resolved⟩ := run_bind_iff.mp resolved
  obtain ⟨_,filled,members,closing⟩ := run_bind_iff.mp resolved
  exact ⟨headed,signed,filled,final,⟨headings,signatures,members,closing⟩,rfl⟩

end Declarations
end GradualJs
