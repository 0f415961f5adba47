import GradualJs.Proofs.Naming.Syntax
import GradualJs.Proofs.Suppression.Mirror
import Mathlib.Tactic.Tauto

/-! Registration makes of the registry what the declared names make of it, one after the other. It
reads nothing of what is suppressed. -/
namespace GradualJs

open Naming Registry
open JsDoc (loud kind_loud)

/-- The nominal types and enums that have been accepted. -/
def Collection.types (c : Collection) : List Declaration :=
  c.nominals.map (.nominal ·.id) ++ c.enums.map (.enumType ·.id)

namespace Collection

lemma mem_types_addNominal (c : Collection) (site : NominalSite) (d : Declaration) :
    d ∈ ({c with nominals := c.nominals ++ [site]} : Collection).types ↔ d ∈ c.types ∨ d = .nominal site.id := by
  simp only [types,List.map_append,List.map_cons,List.map_nil,List.mem_append,List.mem_singleton]
  tauto

lemma mem_types_addEnum (c : Collection) (site : EnumSite) (d : Declaration) :
    d ∈ ({c with enums := c.enums ++ [site]} : Collection).types ↔ d ∈ c.types ∨ d = .enumType site.id := by
  simp only [types,List.map_append,List.map_cons,List.map_nil,List.mem_append,List.mem_singleton]
  tauto

end Collection

namespace Registering

variable {α β : Type}

/-- The computation does to the registry what the declarations do, and accepts the types that
they add. -/
def Names (namings : List Naming) (x : Registering α) : Prop :=
  ∀ c, (x.run c).2.registry = c.registry.after namings ∧
    ∀ d, d ∈ (x.run c).2.types ↔ d ∈ c.types ∨ d ∈ c.registry.gained namings

namespace Names

lemma pure (a : α) : Names [] (Pure.pure a : Registering α) :=
  fun _ => ⟨rfl,fun _ => (or_iff_left List.not_mem_nil).symm⟩

lemma bind (names : Names first x) (next : ∀ a, Names last (f a)) : Names (first ++ last) (x >>= f) := by
  intro c
  obtain ⟨registry,types⟩ := names c
  obtain ⟨registry',types'⟩ := next (x.run c).1 (x.run c).2
  constructor
  · rw [after_append,← registry]
    exact registry'
  · intro d
    rw [gained_append,List.mem_append,← or_assoc,← types d,← registry]
    exact types' d

lemma quietly (names : Names namings x) (next : ∀ a, Names [] (f a)) : Names namings (x >>= f) := by
  have both := names.bind next
  rwa [List.append_nil] at both

lemma forM {list : List α} (each : ∀ a, Names (namings a) (f a)) : Names (list.flatMap namings) (list.forM f) := by
  induction list with
  | nil => exact pure _
  | cons a rest ih => exact (each a).bind fun _ => ih

lemma forM_quietly {list : List α} (each : ∀ a, Names [] (f a)) : Names [] (list.forM f) := by
  induction list with
  | nil => exact pure _
  | cons a rest ih => exact (each a).quietly fun _ => ih

end Names

lemma names_modify (eq : ∀ c, (f c).registry = c.registry ∧ (f c).types = c.types) : Names [] (modify f) :=
  fun c => ⟨(eq c).1,fun d => by
    rw [gained,or_iff_left List.not_mem_nil]
    exact iff_of_eq (congrArg (d ∈ ·) (eq c).2)⟩

lemma run_bind (x : Registering α) (f : α → Registering β) (c : Collection) :
    (x >>= f).run c = (f (x.run c).1).run (x.run c).2 := rfl

variable (name : String) (kind : DeclarationKind) (jsdoc : Option JsDoc) (source : NominalSource)
  (span : Span) (externs : Bool) (tgt : String)

lemma run_ensureNamespace (segments : List String) (c : Collection) : (ensureNamespace span segments).run c =
      ((c.registry.ensureNamespace span segments).1,
        {c with registry := (c.registry.ensureNamespace span segments).2}) := by
  induction segments generalizing c with
  | nil => rfl
  | cons last parents ih =>
    unfold ensureNamespace Registry.ensureNamespace Registry.spaceNamed
    simp only [StateT.run_bind,StateT.run_get,pure_bind]
    cases c.registry.lookup (".".intercalate (last :: parents).reverse) with
    | none =>
      simp only [StateT.run_bind,ih]
      rfl
    | some known =>
      cases known with
      | nominal id | space id | enumType id => rfl
      | typedef id =>
        simp only [StateT.run_bind,ih]
        rfl

lemma run_attach (member : Member) (span : Span) (c : Collection) : (attach name member span).run c =
      ((),{c with registry := c.registry.attach name member span}) := by
  unfold attach Registry.attach
  cases (Name.segments name).reverse with
  | nil => rfl
  | cons last parents =>
    rw [run_bind,run_ensureNamespace]
    rfl

lemma run_isTypeName (naming : Naming) (isType : naming.isType = true) (c : Collection) :
    (isTypeName naming.name).run c = (!naming.isAccepted c.registry,c) := by
  have read : (isTypeName naming.name).run c = ((c.registry.lookup naming.name).any (·.isType),c) := by
    unfold isTypeName
    simp only [StateT.run_bind,StateT.run_get,pure_bind]
    cases c.registry.lookup naming.name with
    | none => rfl
    | some known => cases known <;> rfl
  rw [read,isAccepted,isType]
  cases c.registry.lookup naming.name with
  | none => rfl
  | some known => simp

lemma names_unlessTaken (naming : Naming) (isType : naming.isType = true) {span : Span}
    {register : Registering α} (registered : ∀ c, naming.isAccepted c.registry = true →
      (register.run c).2.registry = naming.apply c.registry ∧
        ∀ d, d ∈ (register.run c).2.types ↔ d ∈ c.types ∨ d ∈ naming.gives c.registry) :
    Names [naming] (unlessTaken naming.name span register) := by
  intro c
  have split : (unlessTaken naming.name span register).run c =
      if naming.isAccepted c.registry then (some <$> register).run c
      else (report .duplicateTypeDeclaration
        ("type " ++ naming.name ++ " is declared more than once") span >>= fun _ => pure none).run c := by
    unfold unlessTaken
    simp only [StateT.run_bind,run_isTypeName naming isType]
    cases naming.isAccepted c.registry <;> rfl
  have one (d : Declaration) : d ∈ c.registry.gained [naming] ↔ d ∈ naming.gives c.registry := by
    rw [gained,gained,List.append_nil,Option.mem_toList]
    rfl
  simp only [split,one]
  by_cases accepted : naming.isAccepted c.registry = true
  · rw [if_pos accepted]
    exact registered c accepted
  · have gives : naming.gives c.registry = none := by
      cases naming <;> simp [gives,accepted]
    have eq : naming.apply c.registry = c.registry := if_neg accepted
    rw [if_neg accepted,gives,after_cons,eq]
    exact ⟨rfl,fun d => by simp; rfl⟩

lemma names_constructorBody (owner : String) (fn : FunctionLiteral) (externs : Bool) :
    Names [] (constructorBody owner fn externs) :=
  .forM_quietly fun _ => names_modify fun _ => ⟨rfl,rfl⟩

lemma run_place (kind : NominalKind) (span : Span) (access : AccessDiscipline)
    (isAbstract : Bool) (typeParams : List String) (f : NominalId → Registering α) (c : Collection) :
    (do
      let id ← add (·.addNominal name kind span)
      change (·.modifyNominal id ({· with access, isAbstract, typeParams}))
      attach name (.inner ((← get).registry.nominal id).statics) span
      f id : Registering α).run c =
    (f ⟨c.registry.nominals.length⟩).run {c with
      registry := ((c.registry.addNominal name kind span).2.modifyNominal
        ⟨c.registry.nominals.length⟩ ({· with access, isAbstract, typeParams})).attach name
          (.inner c.registry.nextNamespace) span} := by
  have statics : (((c.registry.addNominal name kind span).2.modifyNominal
      ⟨c.registry.nominals.length⟩ ({· with access, isAbstract, typeParams})).nominal
        ⟨c.registry.nominals.length⟩).statics = c.registry.nextNamespace := by
    simp [Registry.addNominal,Registry.modifyNominal,Registry.nominal]
  rw [← statics,run_bind,run_bind,run_bind,run_bind,run_attach]
  rfl

/-- What is noted about a new type before it is entered in the list of types. -/
def noteSource (name : String) (source : NominalSource) (externs : Bool) (id : NominalId) : Registering Unit :=
  match source with
  | .function fn => do
    modify fun c => {c with constructors := c.constructors.insert fn.id id}
    constructorBody name fn externs
  | .classDecl _ => pure ()

lemma names_noteSource (id : NominalId) : Names [] (noteSource name source externs id) := by
  cases source with
  | function fn => exact Names.quietly (names_modify fun _ => ⟨rfl,rfl⟩) fun _ => names_constructorBody _ _ _
  | classDecl _ => exact .pure ()

lemma nominal_eq : nominal name kind jsdoc source span externs = unlessTaken name span (do
      let id ← add (·.addNominal name (kindOf kind) span)
      change (·.modifyNominal id fun n => {n with
        access := (jsdoc.bind (·.access)).getD (defaultAccess source (kindOf kind))
        isAbstract := (jsdoc.map (·.isAbstract)).getD false
        typeParams := ((jsdoc.map (·.templates)).getD []).map (Name.qualify name)})
      attach name (.inner ((← get).registry.nominal id).statics) span
      noteSource name source externs id
      modify fun c => {c with nominals := c.nominals ++
        [{id, jsdoc, source, explicitAccess := (jsdoc.bind (·.access)).isSome}]}
      return id) := by
  cases source with
  | function fn => simp only [nominal,noteSource,bind_assoc]
  | classDecl d => simp only [nominal,noteSource,pure_bind]

lemma names_nominal : Names [.nominal name kind jsdoc source span] (nominal name kind jsdoc source span externs) := by
  rw [nominal_eq]
  refine names_unlessTaken (.nominal name kind jsdoc source span) rfl fun c accepted => ?_
  rw [apply,if_pos accepted,gives,if_pos accepted,run_place]
  simp only [StateT.run_bind]
  generalize placed : ({c with registry := _} : Collection) = c'
  obtain ⟨registry,types⟩ := names_noteSource name source externs ⟨c.registry.nominals.length⟩ c'
  subst placed
  refine ⟨registry,fun d => (Collection.mem_types_addNominal _ _ _).trans ?_⟩
  have pre := types d
  rw [gained,or_iff_left List.not_mem_nil] at pre
  rw [pre,Option.mem_some_iff,eq_comm]
  rfl

lemma run_placeEnum (f : EnumId → Registering α) (c : Collection) : (do
      let id ← add (·.addEnum name .number span)
      attach name (.inner ((← get).registry.enumDecl id).space) span
      f id : Registering α).run c =
    (f ⟨c.registry.enums.length⟩).run {c with
      registry := (c.registry.addEnum name .number span).2.attach name (.inner c.registry.nextNamespace) span} := by
  have space : ((c.registry.addEnum name .number span).2.enumDecl
      ⟨c.registry.enums.length⟩).space = c.registry.nextNamespace := by
    simp [addEnum,enumDecl]
  rw [← space,run_bind,run_bind,run_bind,run_attach]
  rfl

lemma names_enumType (jsdoc : JsDoc) (initializer : Option Expression) (externs : Bool) (span : Span) :
    Names [.enumType name span] (enumType name jsdoc initializer externs span) := by
  unfold enumType
  refine Names.quietly ?_ fun _ => .pure ()
  refine names_unlessTaken (.enumType name span) rfl fun c accepted => ?_
  rw [apply,if_pos accepted,gives,if_pos accepted,run_placeEnum]
  refine ⟨rfl,fun d => (Collection.mem_types_addEnum _ _ _).trans ?_⟩
  rw [Option.mem_some_iff,eq_comm]
  rfl

lemma names_typedef (jsdoc : JsDoc) (span : Span) :
    Names [.typedef name jsdoc.typedefType span] (typedef name jsdoc span) := by
  unfold typedef
  refine Names.quietly ?_ fun _ => .pure ()
  refine names_unlessTaken (.typedef name jsdoc.typedefType span) rfl fun c accepted => ?_
  rw [apply,if_pos accepted]
  rw [run_bind,run_bind,run_attach]
  exact ⟨rfl,fun d => (or_iff_left (Option.not_mem_none d)).symm⟩

lemma names_ensureLiteral (real : Bool) (span : Span) :
    Names [.object name real span] (ensureLiteral name real span) := by
  intro c
  have made : (do
      let id ← add (·.addNamespace name (if real then .real else .incidental) span)
      attach name (.inner id) span : Registering Unit).run c = ((),{c with
        registry := ((object name real span).add c.registry).attach name
          ((object name real span).member c.registry) span}) := by
    rw [run_bind,run_attach]
    rfl
  have nothing (d : Declaration) : d ∈ c.types ↔ d ∈ c.types ∨ d ∈ c.registry.gained [.object name real span] :=
    (or_iff_left List.not_mem_nil).symm
  have accepted : (object name real span).isAccepted c.registry =
      (c.registry.lookup name).all (·.isType != false) := rfl
  have read : (get : Registering Collection).run c = (c,c) := rfl
  rw [after_cons,after_nil,apply,accepted,ensureLiteral,run_bind,read]
  dsimp only
  cases c.registry.lookup name with
  | none => exact ⟨congrArg (·.2.registry) made,fun d => made ▸ nothing d⟩
  | some declaration =>
    cases declaration with
    | space id => exact ⟨rfl,nothing⟩
    | nominal | enumType | typedef => exact ⟨congrArg (·.2.registry) made,fun d => made ▸ nothing d⟩

/-- The computation declares the names, and the other one does without suppressions what it does. -/
structure Reads (namings : List Naming) (x y : Registering α) : Prop where
  names : Names namings x
  mirrors : Mirrors x y

namespace Reads

variable {x : Registering α}

lemma pure (a : α) : Reads [] (Pure.pure a) (Pure.pure a) := ⟨.pure a,.pure a⟩

lemma bind (reads : Reads first x y) (next : ∀ a, Reads last (f a) (g a)) : Reads (first ++ last) (x >>= f) (y >>= g) :=
  ⟨reads.names.bind fun a => (next a).names,reads.mirrors.bind fun a => (next a).mirrors⟩

lemma quietly (reads : Reads first x y) (next : ∀ a, Reads [] (f a) (g a)) : Reads first (x >>= f) (y >>= g) :=
  ⟨reads.names.quietly fun a => (next a).names,reads.mirrors.bind fun a => (next a).mirrors⟩

lemma ite {_ : Decidable p} {_ : Decidable q} (eq : p ↔ q)
    (holds : Reads first x y) (fails : Reads last x' y') :
    Reads (if p then first else last) (if p then x else x') (if q then y else y') := by
  refine ⟨?_,.ite eq holds.mirrors fails.mirrors⟩
  split
  · exact holds.names
  · exact fails.names

end Reads

lemma reads_report (kind : DiagnosticKind) (message : String) (span : Span) :
    Reads [] (report kind message span) (report kind message span) :=
  ⟨names_modify fun _ => ⟨rfl,rfl⟩,blind_report _ _ _⟩

lemma reads_addMember (site : MemberSite) : Reads [] (modify (·.addMember site)) (modify (·.addMember site.loud)) :=
  ⟨names_modify fun _ => ⟨rfl,rfl⟩,mirrors_addMember site⟩

lemma reads_addGlobal (site : GlobalSite) : Reads [] (modify (·.addGlobal site)) (modify (·.addGlobal site.loud)) :=
  ⟨names_modify fun _ => ⟨rfl,rfl⟩,mirrors_modify fun c => by simp [Collection.addGlobal,Collection.loud]⟩

lemma reads_nominal : Reads [.nominal name kind jsdoc source span] (nominal name kind jsdoc source span externs)
      (nominal name kind (jsdoc.map loud) source.loud span externs) :=
  ⟨names_nominal _ _ _ _ _ _,mirrors_nominal _ _ _ _ _ _⟩

lemma reads_enumType (doc : JsDoc) (initializer : Option Expression) (externs : Bool) (span : Span) :
    Reads [.enumType name span] (enumType name doc initializer externs span)
      (enumType name doc.loud (initializer.map Expression.loud) externs span) :=
  ⟨names_enumType _ _ _ _ _,mirrors_enumType _ _ _ _ _⟩

lemma reads_typedef (doc : JsDoc) (span : Span) :
    Reads [.typedef name doc.typedefType span] (typedef name doc span) (typedef name doc.loud span) :=
  ⟨names_typedef _ _ _,mirrors_typedef _ _ _⟩

lemma reads_classMember (owner : String) (id : NominalId) (externs : Bool) :
    (member : ClassMember) → Reads [] (classMember owner id externs member) (classMember owner id externs member.loud)
  | ⟨name,kind,fn⟩ => by
    unfold classMember
    simp only [ClassMember.loud,FunctionLiteral.id_loud, FunctionLiteral.jsdoc_loud,FunctionLiteral.span_loud]
    cases kind with
    | constructor =>
      exact .quietly ⟨names_modify fun _ => ⟨rfl,rfl⟩,mirrors_modify fun _ => rfl⟩ fun _ =>
        ⟨names_constructorBody _ _ _,mirrors_constructorBody _ _ _⟩
    | method => exact .quietly ⟨names_modify fun _ => ⟨rfl,rfl⟩,mirrors_modify fun _ => rfl⟩ fun _ => reads_addMember _
    | staticMethod => exact reads_addMember _

lemma reads_classDeclaration : (d : ClassDeclaration) →
    Reads (ofClass d) (classDeclaration d externs) (classDeclaration d.loud externs)
  | ⟨name,superclass,members,jsdoc,span⟩ => by
    unfold classDeclaration
    have kind : (jsdoc.map loud).bind (·.kind) = jsdoc.bind (·.kind) := by
      cases jsdoc <;> rfl
    simp only [ClassDeclaration.loud,kind]
    refine (reads_nominal name.name _ jsdoc (.classDecl _) span externs).quietly fun placed => ?_
    cases placed with
    | none => exact .pure _
    | some id =>
      rw [loudMembers_eq]
      exact ⟨.forM_quietly fun member => (reads_classMember _ id externs member).names,
        .forM fun member => (reads_classMember _ id externs member).mirrors⟩

mutual
lemma reads_namespaceValue (name : String) (real externs : Bool) : (e : Expression) →
    Reads (ofValue name real e) (namespaceValue name real externs e) (namespaceValue name real externs e.loud)
  | ⟨span,kind⟩ => by
    rw [Expression.loud,namespaceValue,namespaceValue,ofValue]
    exact reads_namespaceKind name real externs span kind

lemma reads_namespaceKind (name : String) (real externs : Bool) (span : Span) :
    (kind : ExpressionKind) → Reads (ofKind name real span kind) (namespaceKind name real externs span kind)
      (namespaceKind name real externs span kind.loud)
  | .object properties => by
    rw [ExpressionKind.loud,namespaceKind,namespaceKind,ofKind]
    exact Reads.bind ⟨names_ensureLiteral _ _ _,blind_ensureLiteral _ _ _⟩ fun _ =>
      reads_namespaceProperties name externs properties
  | .literal _ | .identifier _ | .this | .member _ _ _ | .index _ _ | .call _ _ | .new _ _
  | .function _ | .array _ | .unary _ _ | .update _ _ _ | .binary _ _ _ | .logical _ _ _
  | .conditional _ _ _ | .assignment _ _ _ | .cast _ _ => .pure _

lemma reads_namespaceProperties (name : String) (externs : Bool) :
    (properties : List ObjectProperty) → Reads (ofProperties name properties)
      (namespaceProperties name externs properties)
      (namespaceProperties name externs (loudProperties properties))
  | [] => .pure _
  | p :: rest => by
    rw [loudProperties,namespaceProperties,namespaceProperties,ofProperties]
    exact (reads_namespaceProperty name externs p).bind fun _ =>
      reads_namespaceProperties name externs rest

lemma reads_namespaceProperty (name : String) (externs : Bool) : (p : ObjectProperty) →
    Reads (ofProperty name p) (namespaceProperty name externs p) (namespaceProperty name externs p.loud)
  | ⟨key,value,jsdoc,span⟩ => by
    rw [ObjectProperty.loud]
    unfold namespaceProperty ofProperty
    dsimp only
    rw [namespaceLiteral?_loud]
    split
    · exact reads_namespaceValue _ true externs value
    · cases jsdoc with
      | none => exact reads_addMember _
      | some doc =>
        obtain ⟨place,kind⟩ := value
        refine .ite Iff.rfl (reads_enumType _ _ (some _) _ _) ?_
        rw [JsDoc.kind_loud]
        cases doc.kind with
        | none => exact reads_addMember _
        | some declared =>
          cases kind with
          | function fn =>
            exact (reads_nominal _ declared (some doc) (.function fn) _ _).quietly fun _ => .pure _
          | _ => exact reads_addMember _
end

lemma reads_typeDeclaration (value : Option Expression) (span : Span) (externs : Bool) :
    Reads (ofTypeDeclaration name kind jsdoc span value) (typeDeclaration name kind jsdoc value span externs)
      (typeDeclaration name kind (jsdoc.map loud) (value.map Expression.loud) span externs) := by
  rcases value with _ | ⟨_,value⟩
  · exact reads_report _ _ _
  · cases value with
    | function fn =>
      exact (reads_nominal _ kind jsdoc (.function fn) _ _).quietly fun _ => .pure _
    | _ => exact reads_report _ _ _

lemma reads_plainDeclarator (kind : VarKind) (jsdoc : Option JsDoc) (externs : Bool) :
    (d : Declarator) → Reads (ofPlainDeclarator d jsdoc) (plainDeclarator kind d jsdoc externs)
      (plainDeclarator kind d.loud (jsdoc.map loud) externs)
  | ⟨name,own,initializer⟩ => by
    unfold plainDeclarator ofPlainDeclarator
    dsimp only [Declarator.loud]
    rw [loudExpression?_eq]
    cases initializer with
    | none => exact reads_addGlobal _
    | some value =>
      dsimp only [Option.map_some]
      rw [namespaceLiteral?_loud]
      cases namespaceLiteral? jsdoc value with
      | some real => exact reads_namespaceValue _ _ _ value
      | none => exact reads_addGlobal _

lemma reads_declarator (kind : VarKind) (d : Declarator) (jsdoc : Option JsDoc)
    (externs : Bool) : Reads (ofDeclarator d jsdoc) (declarator kind d jsdoc externs)
      (declarator kind d.loud (jsdoc.map loud) externs) := by
  have name : d.loud.name = d.name := by cases d; rfl
  have initializer : d.loud.initializer = d.initializer.map Expression.loud := by
    cases d
    exact loudExpression?_eq _
  unfold declarator ofDeclarator
  dsimp only
  rw [name,initializer]
  cases jsdoc with
  | none => exact reads_plainDeclarator kind none externs d
  | some doc =>
    dsimp only [Option.map_some]
    rw [kind_loud]
    cases doc.kind with
    | some declared => exact reads_typeDeclaration _ declared (some doc) _ _ _
    | none =>
      refine .ite Iff.rfl (reads_enumType _ doc _ _ _) ?_
      exact .ite Iff.rfl (reads_typedef _ doc _) (reads_plainDeclarator kind (some doc) externs d)

lemma reads_plainAssignment (jsdoc : Option JsDoc) (value : Expression) (externs : Bool) (span : Span) :
    Reads (ofPlainAssignment tgt jsdoc value) (plainAssignment tgt jsdoc value externs span)
      (plainAssignment tgt (jsdoc.map loud) value.loud externs span) := by
  unfold plainAssignment ofPlainAssignment
  dsimp only
  rw [memberValue_loud,namespaceLiteral?_loud]
  cases Name.splitPrototype tgt with
  | some parts => exact reads_addMember _
  | none =>
    obtain ⟨parent,last⟩ := Name.split tgt
    cases parent with
    | none => exact .pure _
    | some parent =>
      dsimp only
      cases namespaceLiteral? jsdoc value with
      | some real => exact reads_namespaceValue _ _ _ value
      | none => exact reads_addMember _

lemma reads_assignment (jsdoc : Option JsDoc) (value : Expression) (externs : Bool) (span : Span) :
    Reads (ofAssignment tgt jsdoc value span) (assignment tgt jsdoc value externs span)
      (assignment tgt (jsdoc.map loud) value.loud externs span) := by
  unfold assignment ofAssignment
  split
  · exact .pure _
  · cases jsdoc with
    | none => exact reads_plainAssignment _ none _ _ _
    | some doc =>
      dsimp only [Option.map_some]
      rw [kind_loud]
      cases doc.kind with
      | some kind => exact reads_typeDeclaration _ kind (some doc) (some value) _ _
      | none =>
        exact .ite Iff.rfl (reads_enumType _ doc (some value) _ _) (reads_plainAssignment _ (some doc) _ _ _)

lemma reads_stub (doc : JsDoc) (externs : Bool) (span : Span) :
    Reads (ofStub tgt doc span) (stub tgt doc externs span) (stub tgt doc.loud externs span) := by
  unfold stub ofStub
  refine .ite Iff.rfl (reads_typedef _ doc _) (.ite Iff.rfl (reads_enumType _ doc none _ _) ?_)
  split
  · exact .pure _
  · split
    · exact reads_addMember _
    · split
      · exact reads_addMember _
      · exact .pure _

lemma reads_expressionStatement (e : Expression) (jsdoc : Option JsDoc) (externs : Bool) :
    Reads (ofExpression e jsdoc) (expressionStatement e jsdoc externs)
      (expressionStatement e.loud (jsdoc.map loud) externs) := by
  unfold expressionStatement ofExpression
  rw [e.qualifiedName_loud,e.span_loud,e.kind_loud]
  cases e.kind with
  | assignment op tgt value =>
    cases op with
    | some _ => exact .pure _
    | none =>
      dsimp only [ExpressionKind.loud]
      rw [tgt.qualifiedName_loud]
      cases tgt.qualifiedName with
      | some name => exact reads_assignment _ _ _ _ _
      | none => exact .pure _
  | member object property propertySpan =>
    cases e.qualifiedName with
    | none => exact .pure _
    | some name =>
      cases jsdoc with
      | none => exact .pure _
      | some doc => exact reads_stub name doc externs _
  | _ => exact .pure _

lemma reads_functionDeclaration (name : Identifier) (fn : FunctionLiteral)
    (externs : Bool) : Reads (ofFunction name fn) (functionDeclaration name fn externs)
      (functionDeclaration name fn.loud externs) := by
  unfold functionDeclaration ofFunction
  have kind : (fn.jsdoc.map loud).bind (·.kind) = fn.jsdoc.bind (·.kind) := by
    cases fn.jsdoc <;> rfl
  rw [fn.jsdoc_loud,fn.span_loud,kind]
  cases fn.jsdoc.bind (·.kind) with
  | some kind =>
    exact (reads_nominal _ _ fn.jsdoc (.function fn) _ _).quietly fun _ => .pure _
  | none => exact reads_addGlobal _

mutual
/-- What every declaration does alike, the walk over all statements does alike. -/
lemma reads_statement (externs : Bool) : (s : Statement) →
    Reads (ofStatement s) (statement externs s) (statement externs s.loud)
  | .function name fn => reads_functionDeclaration name fn externs
  | .classDecl d => reads_classDeclaration externs d
  | .var kind declarators jsdoc _ => by
    rw [Statement.loud,statement,statement,loudDeclarators_eq]
    refine ⟨.forM fun d => (reads_declarator kind d _ externs).names,.forM fun d => ?_⟩
    rw [governingDoc_loud]
    exact (reads_declarator kind d _ externs).mirrors
  | .expression e jsdoc => reads_expressionStatement e jsdoc externs
  | .ifStmt _ consequent alternative _ =>
    (reads_statement externs consequent).bind fun _ => reads_optionalStatement externs alternative
  | .block body => reads_block externs body
  | .tryStmt body handler finalizer _ => by
    rw [ofStatement,List.append_assoc]
    exact (reads_block externs body).bind fun _ =>
      (reads_optionalHandler externs handler).bind fun _ => reads_optionalBlock externs finalizer
  | .whileLoop _ body _ | .doWhile body _ _ | .forIn _ _ _ body _ => reads_statement externs body
  | .forLoop start _ _ body _ =>
    (reads_optionalStatement externs start).bind fun _ => reads_statement externs body
  | .switch _ cases _ => reads_switchCases externs cases
  | .returnStmt _ _ | .breakStmt _ | .continueStmt _ | .throwStmt _ _ | .empty _ => .pure _

lemma reads_optionalStatement (externs : Bool) : (s : Option Statement) →
    Reads (ofOptional s) (optionalStatement externs s) (optionalStatement externs (loudStatement? s))
  | none => .pure _
  | some s => reads_statement externs s

lemma reads_statements (externs : Bool) : (list : List Statement) →
    Reads (ofStatements list) (statements externs list) (statements externs (loudStatements list))
  | [] => .pure _
  | s :: rest => (reads_statement externs s).bind fun _ => reads_statements externs rest

lemma reads_block (externs : Bool) : (b : Block) → Reads (ofBlock b) (block externs b) (block externs b.loud)
  | ⟨body,_⟩ => reads_statements externs body

lemma reads_optionalBlock (externs : Bool) : (b : Option Block) →
    Reads (ofOptionalBlock b) (optionalBlock externs b) (optionalBlock externs (loudBlock? b))
  | none => .pure _
  | some b => reads_block externs b

lemma reads_optionalHandler (externs : Bool) : (h : Option CatchClause) →
    Reads (ofOptionalHandler h) (optionalHandler externs h) (optionalHandler externs (loudHandler? h))
  | none => .pure _
  | some ⟨_,body⟩ => reads_block externs body

lemma reads_switchCases (externs : Bool) : (cases : List SwitchCase) →
    Reads (ofCases cases) (switchCases externs cases) (switchCases externs (loudCases cases))
  | [] => .pure _
  | ⟨_,body⟩ :: rest => (reads_statements externs body).bind fun _ => reads_switchCases externs rest
end

end Registering

namespace Declarations

def registered (prog : Program) (externs : Option Program) : Collection := ((registration prog externs).run {}).2

lemma reads_registration (prog : Program) (externs : Option Program) :
    Registering.Reads (namings prog externs) (registration prog externs)
      (registration prog.loud (externs.map Program.loud)) := by
  unfold registration namings
  cases externs with
  | none => exact Registering.reads_statements false prog.statements
  | some e =>
    exact (Registering.reads_statements true e.statements).bind fun _ =>
      Registering.reads_statements false prog.statements

/-- Registration makes of the registry what the declared names make of it. -/
lemma registry_registered (prog : Program) (externs : Option Program) :
    (registered prog externs).registry = initial.after (namings prog externs) :=
  ((reads_registration prog externs).names {}).1

lemma mem_types_registered :
    d ∈ (registered prog externs).types ↔ d ∈ initial.gained (namings prog externs) :=
  (((reads_registration prog externs).names {}).2 d).trans (or_iff_right List.not_mem_nil)

end Declarations

end GradualJs
