import GradualJs.Declarations
import Mathlib.Tactic.Lemma

/-! The names that a program declares. Only declarations of types, enums and typedefs, and object
literals that stand for namespaces, give names a meaning; what each of them does to the registry
depends on nothing but the registry. -/
namespace GradualJs

namespace Registry

def spaceOf (r : Registry) : Declaration → Option NamespaceId
  | .nominal id => some (r.nominal id).statics
  | .space id => some id
  | .enumType id => some (r.enumDecl id).space
  | .typedef _ => none

def spaceNamed (r : Registry) (name : String) : Option NamespaceId := (r.lookup name).bind r.spaceOf

def ensureNamespace (r : Registry) (span : Span) : List String → NamespaceId × Registry
  | [] => (.global,r)
  | last :: parents =>
    let name := ".".intercalate (last :: parents).reverse
    match r.spaceNamed name with
    | some id => (id,r)
    | none =>
      let (parent,r) := r.ensureNamespace span parents
      let (id,r) := r.addNamespace name .incidental span
      (id,r.setMember parent last (.inner id))

def attach (r : Registry) (name : String) (member : Member) (span : Span) : Registry :=
  match (Name.segments name).reverse with
  | [] => r
  | last :: parents =>
    let (parent,r) := r.ensureNamespace span parents
    r.setMember parent last member

end Registry

namespace Declaration

def isType : Declaration → Bool
  | .nominal _ | .enumType _ | .typedef _ => true
  | .space _ => false

end Declaration

/-- A declaration that gives a name a meaning. -/
inductive Naming where
  | nominal (name : String) (kind : DeclarationKind) (jsdoc : Option JsDoc) (src : NominalSource) (span : Span)
  | enumType (name : String) (span : Span)
  | typedef (name : String) (meaning : Option TypeExpr) (span : Span)
  /-- An object literal that makes its name a namespace. -/
  | object (name : String) (real : Bool) (span : Span)

namespace Naming

def name : Naming → String
  | .nominal name _ _ _ _ | .enumType name _ | .typedef name _ _ | .object name _ _ => name

def span : Naming → Span
  | .nominal _ _ _ _ span | .enumType _ span | .typedef _ _ span | .object _ _ span => span

def declaration (r : Registry) : Naming → Declaration
  | .nominal _ _ _ _ _ => .nominal ⟨r.nominals.length⟩
  | .enumType _ _ => .enumType ⟨r.enums.length⟩
  | .typedef _ _ _ => .typedef ⟨r.typedefs.length⟩
  | .object _ _ _ => .space r.nextNamespace

def isType : Naming → Bool
  | .nominal _ _ _ _ _ | .enumType _ _ | .typedef _ _ _ => true
  | .object _ _ _ => false

/-- Types do not replace types, and object literals do not replace namespaces. -/
def isAccepted (r : Registry) (naming : Naming) : Bool :=
  (r.lookup naming.name).all fun known => known.isType != naming.isType

def add (r : Registry) : Naming → Registry
  | .nominal name kind jsdoc src span =>
    let (id,r) := r.addNominal name (Registering.kindOf kind) span
    r.modifyNominal id fun n => {n with
      access := (jsdoc.bind (·.access)).getD (Registering.defaultAccess src (Registering.kindOf kind))
      isAbstract := (jsdoc.map (·.isAbstract)).getD false
      typeParams := ((jsdoc.map (·.templates)).getD []).map (Name.qualify name)}
  | .enumType name span => (r.addEnum name .number span).2
  | .typedef name meaning span => (r.addTypedef name meaning span).2
  | .object name real span => (r.addNamespace name (if real then .real else .incidental) span).2

/-- What stands for the declaration in the namespace it belongs to. -/
def member (r : Registry) : Naming → Member
  | .typedef _ _ _ => .typedef ⟨r.typedefs.length⟩
  | .nominal _ _ _ _ _ | .enumType _ _ | .object _ _ _ => .inner r.nextNamespace

def apply (naming : Naming) (r : Registry) : Registry :=
  if naming.isAccepted r then (naming.add r).attach naming.name (naming.member r) naming.span
  else r

/-- The nominal type or enum that is declared, if it is accepted. -/
def gives (naming : Naming) (r : Registry) : Option Declaration :=
  match naming with
  | .nominal _ _ _ _ _ | .enumType _ _ =>
    if naming.isAccepted r then some (naming.declaration r) else none
  | .typedef _ _ _ | .object _ _ _ => none

open Registering (namespaceLiteral? isOfThis)

mutual
/-- The names that an object literal declares when it is the value of the given name. -/
def ofValue (name : String) (real : Bool) : Expression → List Naming
  | ⟨span,kind⟩ => ofKind name real span kind

def ofKind (name : String) (real : Bool) (span : Span) : ExpressionKind → List Naming
  | .object properties => .object name real span :: ofProperties name properties
  | _ => []

def ofProperties (name : String) : List ObjectProperty → List Naming
  | [] => []
  | p :: rest => ofProperty name p ++ ofProperties name rest

def ofProperty (name : String) : ObjectProperty → List Naming
  | ⟨key,value,jsdoc,span⟩ =>
    let qualified := Name.property name key
    if namespaceLiteral? jsdoc value = some true then ofValue qualified true value
    else match jsdoc with
      | none => []
      | some doc =>
        if doc.isEnum then [.enumType qualified span]
        else match doc.kind, value.kind with
          | some kind, .function fn =>
            [.nominal qualified kind jsdoc (.function fn) span]
          | _, _ => []
end

def ofTypeDeclaration (name : String) (kind : DeclarationKind) (jsdoc : Option JsDoc)
    (span : Span) : Option Expression → List Naming
  | some ⟨_,.function fn⟩ => [.nominal name kind jsdoc (.function fn) span]
  | _ => []

def ofPlainDeclarator (d : Declarator) (jsdoc : Option JsDoc) : List Naming :=
  match d.initializer with
  | none => []
  | some initializer =>
    match namespaceLiteral? jsdoc initializer with
    | some real => ofValue d.name.name real initializer
    | none => []

def ofDeclarator (d : Declarator) (jsdoc : Option JsDoc) : List Naming :=
  match jsdoc with
  | none => ofPlainDeclarator d jsdoc
  | some doc =>
    match doc.kind with
    | some declared => ofTypeDeclaration d.name.name declared jsdoc d.name.span d.initializer
    | none =>
      if doc.isEnum then [.enumType d.name.name d.name.span]
      else if doc.isTypedef then [.typedef d.name.name doc.typedefType d.name.span]
      else ofPlainDeclarator d jsdoc

def ofPlainAssignment (tgt : String) (jsdoc : Option JsDoc) (value : Expression) : List Naming :=
  match Name.splitPrototype tgt, Name.split tgt with
  | some _, _ | none, (none,_) => []
  | none, (some _,_) =>
    match namespaceLiteral? jsdoc value with
    | some real => ofValue tgt real value
    | none => []

def ofAssignment (tgt : String) (jsdoc : Option JsDoc) (value : Expression) (span : Span) : List Naming :=
  if isOfThis tgt then []
  else match jsdoc with
    | none => ofPlainAssignment tgt jsdoc value
    | some doc =>
      match doc.kind with
      | some kind => ofTypeDeclaration tgt kind jsdoc span (some value)
      | none =>
        if doc.isEnum then [.enumType tgt span] else ofPlainAssignment tgt jsdoc value

def ofStub (tgt : String) (doc : JsDoc) (span : Span) : List Naming :=
  if doc.isTypedef then [.typedef tgt doc.typedefType span]
  else if doc.isEnum then [.enumType tgt span]
  else []

def ofExpression (e : Expression) (jsdoc : Option JsDoc) : List Naming :=
  match e.kind with
  | .assignment none tgt value =>
    match tgt.qualifiedName with
    | some name => ofAssignment name jsdoc value e.span
    | none => []
  | .member _ _ _ =>
    match e.qualifiedName, jsdoc with
    | some name, some doc => ofStub name doc e.span
    | _, _ => []
  | _ => []

def ofFunction (name : Identifier) (fn : FunctionLiteral) : List Naming :=
  match fn.jsdoc.bind (·.kind) with
  | some kind => [.nominal name.name kind fn.jsdoc (.function fn) fn.span]
  | none => []

def ofClass (d : ClassDeclaration) : List Naming :=
  [.nominal d.name.name ((d.jsdoc.bind (·.kind)).getD .constructor) d.jsdoc (.classDecl d) d.span]

mutual
def ofStatement : Statement → List Naming
  | .function name fn => ofFunction name fn
  | .classDecl d => ofClass d
  | .var _ declarators jsdoc _ =>
    declarators.flatMap fun d => ofDeclarator d (d.governingDoc declarators jsdoc)
  | .expression e jsdoc => ofExpression e jsdoc
  | .ifStmt _ consequent alternative _ => ofStatement consequent ++ ofOptional alternative
  | .block body => ofBlock body
  | .tryStmt body handler finalizer _ =>
    ofBlock body ++ ofOptionalHandler handler ++ ofOptionalBlock finalizer
  | .whileLoop _ body _ | .doWhile body _ _ | .forIn _ _ _ body _ => ofStatement body
  | .forLoop start _ _ body _ => ofOptional start ++ ofStatement body
  | .switch _ cases _ => ofCases cases
  | .returnStmt _ _ | .breakStmt _ | .continueStmt _ | .throwStmt _ _ | .empty _ => []

def ofOptional : Option Statement → List Naming
  | none => []
  | some s => ofStatement s

def ofStatements : List Statement → List Naming
  | [] => []
  | s :: rest => ofStatement s ++ ofStatements rest

def ofBlock : Block → List Naming
  | ⟨body,_⟩ => ofStatements body

def ofOptionalBlock : Option Block → List Naming
  | none => []
  | some b => ofBlock b

def ofOptionalHandler : Option CatchClause → List Naming
  | none => []
  | some ⟨_,body⟩ => ofBlock body

def ofCases : List SwitchCase → List Naming
  | [] => []
  | ⟨_,body⟩ :: rest => ofStatements body ++ ofCases rest
end

end Naming

def Declarations.namings (prog : Program) (externs : Option Program) : List Naming :=
  (match externs with
    | some e => Naming.ofStatements e.statements
    | none => []) ++ Naming.ofStatements prog.statements

def Registry.after (r : Registry) (namings : List Naming) : Registry := namings.foldl (fun r naming => naming.apply r) r

namespace Registry

/-- The nominal types and enums that the declarations add. -/
def gained (r : Registry) : List Naming → List Declaration
  | [] => []
  | naming :: rest => (naming.gives r).toList ++ (naming.apply r).gained rest

variable {r : Registry}

@[simp] lemma after_nil : r.after [] = r := rfl

@[simp] lemma after_cons (naming : Naming) (rest : List Naming) :
    r.after (naming :: rest) = (naming.apply r).after rest := rfl

lemma after_append (first last : List Naming) : r.after (first ++ last) = (r.after first).after last :=
  List.foldl_append

lemma gained_append (first last : List Naming) :
    r.gained (first ++ last) = r.gained first ++ (r.after first).gained last := by
  induction first generalizing r with
  | nil => rfl
  | cons naming rest ih => simp only [List.cons_append,gained,ih,after_cons,List.append_assoc]

lemma mem_gained (mem : declaration ∈ r.gained namings) :
    ∃ pre naming later, namings = pre ++ naming :: later ∧ naming.gives (r.after pre) = some declaration := by
  induction namings generalizing r with
  | nil => cases mem
  | cons naming rest ih =>
    rcases List.mem_append.mp mem with here | there
    · exact ⟨[],naming,rest,rfl,Option.mem_toList.mp here⟩
    · obtain ⟨pre,later,rest',rfl,gives⟩ := ih there
      exact ⟨naming :: pre,later,rest',rfl,gives⟩

end Registry

end GradualJs
