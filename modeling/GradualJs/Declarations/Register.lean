import GradualJs.Declarations.Site
import GradualJs.Syntax.Traversal

/-! Registering names: one walk over the statements outside functions finds everything
that is declared, and gives types, enums, typedefs and namespaces their places in the
registry. -/
namespace GradualJs

abbrev Registering := StateM Collection

namespace Registering

def report (kind : DiagnosticKind) (message : String) (span : Span) : Registering Unit :=
  modify (·.report kind message span)

def add (addition : Registry → α × Registry) : Registering α :=
  modifyGet fun c =>
    let (a,registry) := addition c.registry
    (a,{c with registry})

def change (f : Registry → Registry) : Registering Unit :=
  modify fun c => {c with registry := f c.registry}

/-- Finds or makes the namespace with the given segments, the last segment first. Without
segments it is the global one. -/
def ensureNamespace (span : Span) : List String → Registering NamespaceId
  | [] => pure .global
  | last :: parents => do
    let name := ".".intercalate (last :: parents).reverse
    let registry := (← get).registry
    match registry.lookup name with
    | some (.space id) => return id
    | some (.nominal id) => return (registry.nominal id).statics
    | some (.enumType id) => return (registry.enumDecl id).space
    | _ =>
      let parent ← ensureNamespace span parents
      let id ← add (·.addNamespace name .incidental span)
      change (·.setMember parent last (.inner id))
      return id

def attach (name : String) (member : Member) (span : Span) : Registering Unit := do
  match (Name.segments name).reverse with
  | [] => return
  | last :: parents =>
    let parent ← ensureNamespace span parents
    change (·.setMember parent last member)

def isTypeName (name : String) : Registering Bool := do
  return match (← get).registry.lookup name with
    | some (.nominal _) | some (.enumType _) | some (.typedef _) => true
    | _ => false

def unlessTaken (name : String) (span : Span) (register : Registering α) : Registering (Option α) := do
  if ← isTypeName name then
    report .duplicateTypeDeclaration ("type " ++ name ++ " is declared more than once") span
    return none
  some <$> register

def kindOf : DeclarationKind → NominalKind
  | .constructor => .classType
  | .interface => .interface
  | .record => .record

/-- A class written as such without a superclass is a struct; a constructor function
leaves access open. -/
def defaultAccess (source : NominalSource) (kind : NominalKind) : AccessDiscipline :=
  match kind, source with
  | .interface, _ | .record, _ => .struct
  | .classType, .classDecl declaration =>
    if declaration.superclass.isNone then .struct else .unrestricted
  | .classType, .function _ => .unrestricted

/-- Writes to properties of `this` in a constructor, and mere mentions of them, which may
carry a comment. -/
def thisWrite? : Node → Option (String × Option Expression × Option JsDoc × Span)
  | .statement (.expression ⟨span,.assignment none ⟨_,.member ⟨_,.this⟩ property _⟩ value⟩
      jsdoc) => some (property,some value,jsdoc,span)
  | .statement (.expression ⟨span,.member ⟨_,.this⟩ property _⟩ jsdoc) =>
    some (property,none,jsdoc,span)
  | _ => none

def constructorBody (owner : String) (literal : FunctionLiteral) (externs : Bool) : Registering Unit :=
  (literal.body.nodes.filterMap thisWrite?).forM fun (name,value,jsdoc,span) =>
    modify (·.addMember {
      owner
      ofInstances := true
      name
      jsdoc
      value := match value with
        | some e => .expression e
        | none => .stub
      constructor := some literal.id
      externs
      span })

def nominal (name : String) (kind : DeclarationKind) (jsdoc : Option JsDoc)
    (source : NominalSource) (span : Span) (externs : Bool) : Registering (Option NominalId) :=
  unlessTaken name span do
    let kind := kindOf kind
    let id ← add (·.addNominal name kind span)
    let explicit := jsdoc.bind (·.access)
    change (·.modifyNominal id fun n => { n with
      access := explicit.getD (defaultAccess source kind)
      isAbstract := (jsdoc.map (·.isAbstract)).getD false
      typeParams := ((jsdoc.map (·.templates)).getD []).map (Name.qualify name) })
    attach name (.inner ((← get).registry.nominal id).statics) span
    match source with
    | .function literal =>
      modify fun c => {c with constructors := c.constructors.insert literal.id id}
      constructorBody name literal externs
    | .classDecl _ => pure ()
    modify fun c => { c with
      nominals := c.nominals ++ [{id, jsdoc, source, explicitAccess := explicit.isSome}] }
    return id

def classMember (owner : String) (id : NominalId) (externs : Bool) (m : ClassMember) : Registering Unit := do
  let literal := m.function
  let site : MemberSite := {
    owner
    ofInstances := m.kind = .method
    name := m.name
    jsdoc := literal.jsdoc
    value := .function literal
    externs
    span := literal.span }
  match m.kind with
  | .constructor =>
    modify fun c => {c with constructors := c.constructors.insert literal.id id}
    constructorBody owner literal externs
  | .method =>
    modify fun c => {c with methodOwners := c.methodOwners.insert literal.id id}
    modify (·.addMember site)
  | .staticMethod => modify (·.addMember site)

def classDeclaration (d : ClassDeclaration) (externs : Bool) : Registering Unit := do
  let kind := (d.jsdoc.bind (·.kind)).getD .constructor
  match ← nominal d.name.name kind d.jsdoc (.classDecl d) d.span externs with
  | some id => d.members.forM (classMember d.name.name id externs)
  | none => return

def enumType (name : String) (jsdoc : JsDoc) (initializer : Option Expression) (externs : Bool)
    (span : Span) : Registering Unit := do
  let _ ← unlessTaken name span do
    let id ← add (·.addEnum name .number span)
    attach name (.inner ((← get).registry.enumDecl id).space) span
    modify fun c => {c with enums := c.enums ++ [{id, jsdoc, initializer, externs, span}]}

def typedef (name : String) (jsdoc : JsDoc) (span : Span) : Registering Unit := do
  let _ ← unlessTaken name span do
    let id ← add (·.addTypedef name jsdoc.typedefType span)
    attach name (.typedef id) span
    modify fun c => {c with typedefs := c.typedefs ++ [(id,jsdoc.typedefType.isSome)]}

/-- Whether a value makes its name a namespace: an object literal that is declared
constant (a real one), or an empty one. A declared type rules it out. -/
def namespaceLiteral? (jsdoc : Option JsDoc) (value : Expression) : Option Bool :=
  match value.kind with
  | .object properties =>
    if (jsdoc.bind (·.declaredType)).isSome then none
    else if (jsdoc.map (·.isConst)).getD false then some true
    else if properties.isEmpty then some false
    else none
  | _ => none

/-- The namespace of a name that is given an object literal. One that is there already is
left as it is. -/
def ensureLiteral (name : String) (real : Bool) (span : Span) : Registering Unit := do
  match (← get).registry.lookup name with
  | some (.space _) => return
  | _ =>
    let id ← add (·.addNamespace name (if real then .real else .incidental) span)
    attach name (.inner id) span

mutual
def namespaceValue (name : String) (real externs : Bool) : Expression → Registering Unit
  | ⟨span,kind⟩ => namespaceKind name real externs span kind

def namespaceKind (name : String) (real externs : Bool) (span : Span) : ExpressionKind → Registering Unit
  | .object properties => do
    ensureLiteral name real span
    namespaceProperties name externs properties
  | _ => pure ()

def namespaceProperties (name : String) (externs : Bool) : List ObjectProperty → Registering Unit
  | [] => pure ()
  | p :: rest => do
    namespaceProperty name externs p
    namespaceProperties name externs rest

def namespaceProperty (name : String) (externs : Bool) : ObjectProperty → Registering Unit
  | ⟨key,value,jsdoc,span⟩ =>
    let qualified := Name.property name key
    let member : MemberSite := {
      owner := name
      ofInstances := false
      name := key
      jsdoc
      value := .expression value
      externs
      span }
    if namespaceLiteral? jsdoc value = some true then namespaceValue qualified true externs value
    else match jsdoc with
      | none => modify (·.addMember member)
      | some doc =>
        if doc.isEnum then enumType qualified doc (some value) externs span
        else match doc.kind, value.kind with
          | some kind, .function literal => do
            let _ ← nominal qualified kind jsdoc (.function literal) span externs
          | _, _ => modify (·.addMember member)
end

def notAFunction (name : String) (span : Span) : Registering Unit :=
  report .misplacedTag (name ++ " is annotated as a type declaration but is not a function") span

def typeDeclaration (name : String) (kind : DeclarationKind) (jsdoc : Option JsDoc)
    (value : Option Expression) (span : Span) (externs : Bool) : Registering Unit :=
  match value with
  | some ⟨_,.function literal⟩ => do
    let _ ← nominal name kind jsdoc (.function literal) span externs
  | _ => notAFunction name span

def plainDeclarator (kind : VarKind) (d : Declarator) (jsdoc : Option JsDoc) (externs : Bool) : Registering Unit :=
  let global : GlobalSite := {
    name := d.name.name
    jsdoc
    value := .binding kind d.initializer
    externs
    span := d.name.span }
  match d.initializer with
  | none => modify (·.addGlobal global)
  | some initializer =>
    match namespaceLiteral? jsdoc initializer with
    | some real => namespaceValue d.name.name real externs initializer
    | none => modify (·.addGlobal global)

def declarator (kind : VarKind) (d : Declarator) (jsdoc : Option JsDoc) (externs : Bool) : Registering Unit :=
  let name := d.name.name
  let span := d.name.span
  match jsdoc with
  | none => plainDeclarator kind d jsdoc externs
  | some doc =>
    match doc.kind with
    | some declared => typeDeclaration name declared jsdoc d.initializer span externs
    | none =>
      if doc.isEnum then enumType name doc d.initializer externs span
      else if doc.isTypedef then typedef name doc span
      else plainDeclarator kind d jsdoc externs

def memberValue (value : Expression) : MemberValue :=
  match value.kind with
  | .function literal => .function literal
  | _ => .expression value

/-- A property of instances, as in `C.prototype.p = …`, a property of a namespace, or a
namespace of its own. -/
def plainAssignment (target : String) (jsdoc : Option JsDoc) (value : Expression)
    (externs : Bool) (span : Span) : Registering Unit :=
  let member (owner : String) (ofInstances : Bool) (name : String) : Registering Unit :=
    modify (·.addMember {owner, ofInstances, name, jsdoc, value := memberValue value, externs, span})
  match Name.splitPrototype target with
  | some (owner,name) => member owner true name
  | none =>
    match Name.split target with
    | (none,_) => pure ()
    | (some parent,last) =>
      match namespaceLiteral? jsdoc value with
      | some real => namespaceValue target real externs value
      | none => member parent false last

def isOfThis (target : String) : Bool := Name.startsWith "this." target

def assignment (target : String) (jsdoc : Option JsDoc) (value : Expression) (externs : Bool)
    (span : Span) : Registering Unit :=
  if isOfThis target then pure ()
  else match jsdoc with
    | none => plainAssignment target jsdoc value externs span
    | some doc =>
      match doc.kind with
      | some kind => typeDeclaration target kind jsdoc (some value) span externs
      | none =>
        if doc.isEnum then enumType target doc (some value) externs span
        else plainAssignment target jsdoc value externs span

def stub (target : String) (doc : JsDoc) (externs : Bool) (span : Span) : Registering Unit :=
  let member (owner : String) (ofInstances : Bool) (name : String) : Registering Unit :=
    modify (·.addMember {owner, ofInstances, name, jsdoc := some doc, value := .stub, externs, span})
  if doc.isTypedef then typedef target doc span
  else if doc.isEnum then enumType target doc none externs span
  else if isOfThis target then pure ()
  else match Name.splitPrototype target with
    | some (owner,name) => member owner true name
    | none =>
      match Name.split target with
      | (some parent,last) => member parent false last
      | (none,_) => pure ()

def expressionStatement (e : Expression) (jsdoc : Option JsDoc) (externs : Bool) : Registering Unit :=
  match e.kind with
  | .assignment none target value =>
    match target.qualifiedName with
    | some name => assignment name jsdoc value externs e.span
    | none => pure ()
  | .member _ _ _ =>
    match e.qualifiedName, jsdoc with
    | some name, some doc => stub name doc externs e.span
    | _, _ => pure ()
  | _ => pure ()

def functionDeclaration (name : Identifier) (literal : FunctionLiteral) (externs : Bool) : Registering Unit :=
  match literal.jsdoc.bind (·.kind) with
  | some kind => do
    let _ ← nominal name.name kind literal.jsdoc (.function literal) literal.span externs
  | none => modify (·.addGlobal {
      name := name.name
      jsdoc := literal.jsdoc
      value := .function literal
      externs
      span := name.span })

mutual
def statement (externs : Bool) : Statement → Registering Unit
  | .function name literal => functionDeclaration name literal externs
  | .classDecl d => classDeclaration d externs
  | .var kind declarators jsdoc _ =>
    declarators.forM fun d => declarator kind d (d.governingDoc declarators jsdoc) externs
  | .expression e jsdoc => expressionStatement e jsdoc externs
  | .ifStmt _ consequent alternative _ => do
    statement externs consequent
    optionalStatement externs alternative
  | .block body => block externs body
  | .tryStmt body handler finalizer _ => do
    block externs body
    optionalHandler externs handler
    optionalBlock externs finalizer
  | .whileLoop _ body _ => statement externs body
  | .doWhile body _ _ => statement externs body
  | .forLoop start _ _ body _ => do
    optionalStatement externs start
    statement externs body
  | .forIn _ _ _ body _ => statement externs body
  | .switch _ cases _ => switchCases externs cases
  | .returnStmt _ _ | .breakStmt _ | .continueStmt _ | .throwStmt _ _ | .empty _ => pure ()

def optionalStatement (externs : Bool) : Option Statement → Registering Unit
  | none => pure ()
  | some s => statement externs s

def statements (externs : Bool) : List Statement → Registering Unit
  | [] => pure ()
  | s :: rest => do
    statement externs s
    statements externs rest

def block (externs : Bool) : Block → Registering Unit
  | ⟨body,_⟩ => statements externs body

def optionalBlock (externs : Bool) : Option Block → Registering Unit
  | none => pure ()
  | some b => block externs b

def optionalHandler (externs : Bool) : Option CatchClause → Registering Unit
  | none => pure ()
  | some ⟨_,body⟩ => block externs body

def switchCases (externs : Bool) : List SwitchCase → Registering Unit
  | [] => pure ()
  | ⟨_,body⟩ :: rest => do
    statements externs body
    switchCases externs rest
end

end Registering
end GradualJs
