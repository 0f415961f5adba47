import GradualJs.Call
import GradualJs.Resolve
import GradualJs.Syntax.Traversal

/-! Scopes. The top level of a program and every function literal in it is a scope with its
own locals. Scopes are numbered from the outside in, in source order. -/
namespace GradualJs

inductive LocalKind where
  | parameter
  | binding
  | function (id : Nat)
  | classType
  | caught
  deriving DecidableEq

structure Local where
  kind : LocalKind
  declared : Option Ty := none
  constant : Bool := false
  function : Option Nat := none

abbrev ScopeId := Nat

structure Scope where
  /-- The enclosing scopes, the innermost first. -/
  outer : List ScopeId
  function : Option FunctionLiteral
  body : List Statement
  name : String
  locals : Table String Local
  templates : List String

namespace Scope

instance : Inhabited Scope := ⟨⟨[],none,[], "",{},[]⟩⟩

def parent? (s : Scope) : Option ScopeId := s.outer.head?

end Scope

/-- Declares a name. The first declaration of a name counts. -/
def addLocal (r : Registry) (topLevel : Bool) (locals : Table String Local) (name : String)
    (l : Local) : Table String Local :=
  if topLevel && (r.lookup name).isSome then locals else locals.insertNew name l

def Registry.typeOrReport (r : Registry) (templates : List String) (e : TypeExpr) : Reporting Ty := do
  let (type,errors) ← Reporting.ask (((r.resolver templates).exprOrNote e).run [])
  modify (· ++ errors.map ResolveError.toDiagnostic)
  return type

/-- Names that are registered belong to the registry and are not locals of the top
level. -/
def addDeclarator (r : Registry) (templates : List String) (topLevel : Bool) (kind : VarKind)
    (locals : Table String Local) (d : Declarator) (jsdoc : Option JsDoc) :
    Reporting (Table String Local) := do
  if topLevel && (r.lookup d.name.name).isSome then return locals
  let declared ← (jsdoc.bind (·.declaredType)).mapM (r.typeOrReport templates)
  let function := match d.initializer with
    | some ⟨_,.function literal⟩ => some literal.id
    | _ => none
  let constant := kind = .constant || (jsdoc.map (·.isConst)).getD false
  return locals.insertNew d.name.name {kind := .binding, declared, constant, function}

/-- The names that a node declares. `let` and `const` bind in the whole function. -/
def addNodeLocals (r : Registry) (templates : List String) (topLevel : Bool)
    (locals : Table String Local) : Node → Reporting (Table String Local)
  | .statement (.var kind declarators jsdoc _) =>
    declarators.foldlM (fun locals d =>
      addDeclarator r templates topLevel kind locals d (d.governingDoc declarators jsdoc)) locals
  | .statement (.function name literal) =>
    return addLocal r topLevel locals name.name {kind := .function literal.id, function := some literal.id}
  | .statement (.forIn key (some _) _ _ _) =>
    return locals.insertNew key.name {kind := .binding}
  | .statement (.tryStmt _ (some ⟨some parameter,_⟩) _ _) =>
    return locals.insertNew parameter.name {kind := .caught}
  | .statement (.classDecl d) =>
    return addLocal r topLevel locals d.name.name {kind := .classType}
  | _ => return locals

def parameterLocals (r : Registry) (literal : FunctionLiteral) : Table String Local :=
  let params := ((r.function? literal.id).map (·.signature.params)).getD []
  .ofList (literal.parameters.zipIdx.map fun (p,index) =>
    (p.name,{kind := .parameter, declared := (params[index]?).bind (·.type)}))

structure ScopeList where
  scopes : List Scope := []
  diagnostics : List Diagnostic := []

abbrev Scoping := StateT ScopeList Option

namespace Scoping

def localsOf (r : Registry) (templates : List String) (topLevel : Bool)
    (parameters : Table String Local) (nodes : List Node) : Scoping (Table String Local) := do
  let collected := nodes.foldlM (addNodeLocals r templates topLevel) parameters
  let (locals,diagnostics) ← StateT.lift (collected.run (← get).diagnostics)
  modify ({· with diagnostics})
  return locals

def add (s : Scope) : Scoping ScopeId := do
  let id := (← get).scopes.length
  modify fun list => {list with scopes := list.scopes ++ [s]}
  return id

def functionName (r : Registry) (literal : FunctionLiteral) : String :=
  match r.function? literal.id with
  | some decl => decl.name
  | none => s!"<anonymous@{literal.span.line}>"

/-- The template variables of a function: those around it, those of the type that owns it,
and its own. -/
def functionTemplates (r : Registry) (around : List String) (id : Nat) : List String :=
  dropAdjacent (match r.function? id with
    | some decl =>
      let owned := (decl.owner.map fun owner => (r.nominal owner).typeParams).getD []
      around ++ owned ++ decl.signature.typeParams
    | none => around)

mutual
def ofNode (r : Registry) (outer : List ScopeId) (around : List String) : Node → Scoping Unit
  | .statement _ | .expression _ => pure ()
  | .function literal inner => do
    let templates := functionTemplates r around literal.id
    let locals ← localsOf r templates false (parameterLocals r literal) inner
    let id ← add {
      outer, function := some literal, body := literal.body.statements
      name := functionName r literal, locals, templates }
    ofNodes r (id :: outer) templates inner

def ofNodes (r : Registry) (outer : List ScopeId) (around : List String) : List Node → Scoping Unit
  | [] => pure ()
  | node :: rest => do
    ofNode r outer around node
    ofNodes r outer around rest
end

def ofProgram (r : Registry) (p : Program) : Scoping Unit := do
  let nodes := statementNodes p.statements
  let locals ← localsOf r [] true {} nodes
  let id ← add {
    outer := [], function := none, body := p.statements, name := "<top-level>", locals
    templates := [] }
  ofNodes r [id] [] nodes

end Scoping

structure ScopeTree where
  scopes : List Scope

namespace ScopeTree

def root : ScopeId := 0
def scope (t : ScopeTree) (id : ScopeId) : Scope := (t.scopes[id]?).getD default

/-- The scope of a function literal; of several with one number the last. -/
def ofFunction? (t : ScopeTree) (id : Nat) : Option ScopeId :=
  (t.scopes.zipIdx.reverse.find? fun (s,_) => s.function.map (·.id) = some id).map (·.2)

def resolve (t : ScopeTree) (id : ScopeId) (name : String) : Option (ScopeId × Local) :=
  (id :: (t.scope id).outer).findSome? fun candidate =>
    ((t.scope candidate).locals.get? name).map fun l => (candidate,l)

def children (t : ScopeTree) (id : ScopeId) : List ScopeId :=
  (List.range t.scopes.length).filter fun child => (t.scope child).parent? = some id

/-- The scopes that the body of `child` calls by a name which `parent` binds to them. -/
def callees (t : ScopeTree) (parent child : ScopeId) : List ScopeId :=
  (Node.calledNames (statementNodes (t.scope child).body)).filterMap fun name =>
    (((t.scope parent).locals.get? name).bind (·.function)).bind t.ofFunction?

/-- Puts a scope behind the scopes it calls. Scopes that wait for each other are placed in
the order in which they are met. -/
def place (callees : ScopeId → List ScopeId) : Nat → List ScopeId → List ScopeId → ScopeId → List ScopeId
  | 0, _, placed, _ => placed
  | levels + 1, waiting, placed, child =>
    if placed.contains child || waiting.contains child then placed
    else (callees child).foldl (place callees levels (child :: waiting)) placed ++ [child]

def orderedChildren (t : ScopeTree) (id : ScopeId) : List ScopeId :=
  (t.children id).foldl (place (t.callees id) (t.scopes.length + 1) []) []

def orderFrom (t : ScopeTree) : Nat → ScopeId → List ScopeId
  | 0, _ => []
  | levels + 1, id => id :: (t.orderedChildren id).flatMap (orderFrom t levels)

/-- Every scope after the scope around it; among siblings a callee comes first. -/
def analysisOrder (t : ScopeTree) : List ScopeId := t.orderFrom t.scopes.length root

end ScopeTree
end GradualJs
