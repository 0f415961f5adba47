import GradualJs.Name
import GradualJs.Syntax.Tree

/-! Putting programs together without a source text. Every node gets a line of its own
and a composite node covers its parts, so reports point to distinct places and regions
nest as they would in a text. Function literals are numbered in the order they are
made. -/
namespace GradualJs

structure BuildState where
  line : Nat := 1
  function : Nat := 0

inductive BuildError where
  /-- Function numbers are 64-bit words and the last one was handed out. -/
  | numbersExhausted
  deriving DecidableEq

abbrev Build := StateT BuildState (Except BuildError)

namespace Build

def lastNumber : Nat := .pow 2 64 - 1

def fresh : Build Span := do
  let state ← get
  set {state with line := state.line + 1}
  return ⟨state.line,1,state.line,2⟩

def cover (parts : List Span) : Build Span := do
  return parts.foldl Span.cover (← fresh)

def nextFunction : Build Nat := do
  let state ← get
  if state.function < lastNumber then
    set {state with function := state.function + 1}
    return state.function
  else throw .numbersExhausted

def expression (kind : ExpressionKind) (parts : List Span) : Build Expression := do
  return ⟨← cover parts,kind⟩

def literal (value : Literal) : Build Expression := expression (.literal value) []
def identifier (name : String) : Build Identifier := do return ⟨name,← fresh⟩

def ident (name : String) : Build Expression := do
  let id ← identifier name
  return ⟨id.span,.identifier id⟩

def this : Build Expression := expression .this []

def member (object : Expression) (property : String) : Build Expression := do
  let propertySpan ← fresh
  expression (.member object property propertySpan) [object.span,propertySpan]

def path (dotted : String) : Build Expression :=
  match Name.segments dotted with
  | [] => ident ""
  | first :: rest => do rest.foldlM member (← if first = "this" then this else ident first)

def index (object key : Expression) : Build Expression := expression (.index object key) [object.span,key.span]

def call (callee : Expression) (arguments : List Expression) : Build Expression :=
  expression (.call callee arguments) (callee.span :: arguments.map (·.span))

def new (callee : Expression) (arguments : List Expression) : Build Expression :=
  expression (.new callee arguments) (callee.span :: arguments.map (·.span))

def functionLiteral (name : Option String) (parameters : List String) (body : List Statement)
    (jsdoc : Option JsDoc) (isArrow : Bool) : Build FunctionLiteral := do
  let id ← nextFunction
  let parameters ← parameters.mapM identifier
  let bodySpan ← cover (body.map Statement.span)
  let span ← cover (parameters.map (·.span) ++ [bodySpan])
  return {id, name, parameters, body := ⟨body,bodySpan⟩, jsdoc, isArrow, span}

def functionValue (literal : FunctionLiteral) : Expression := ⟨literal.span,.function literal⟩

def function (jsdoc : Option JsDoc) (parameters : List String) (body : List Statement) : Build Expression := do
  return functionValue (← functionLiteral none parameters body jsdoc false)

def arrow (parameters : List String) (body : List Statement) : Build Expression := do
  return functionValue (← functionLiteral none parameters body none true)

def property (key : String) (jsdoc : Option JsDoc) (value : Expression) : Build ObjectProperty := do
  return {key, value, jsdoc, span := ← cover [value.span]}

def object (properties : List (String × Option JsDoc × Expression)) : Build Expression := do
  let properties ← properties.mapM fun (key,jsdoc,value) => property key jsdoc value
  expression (.object properties) (properties.map (·.span))

def array (elements : List Expression) : Build Expression := expression (.array elements) (elements.map (·.span))

def unary (operator : UnaryOperator) (operand : Expression) : Build Expression :=
  expression (.unary operator operand) [operand.span]

def increment (target : Expression) : Build Expression := expression (.update .increment false target) [target.span]

def binary (operator : BinaryOperator) (left right : Expression) : Build Expression :=
  expression (.binary operator left right) [left.span,right.span]

def logical (operator : LogicalOperator) (left right : Expression) : Build Expression :=
  expression (.logical operator left right) [left.span,right.span]

def conditional (test consequent alternative : Expression) : Build Expression :=
  expression (.conditional test consequent alternative) [test.span,consequent.span,alternative.span]

def assign (operator : Option BinaryOperator) (target value : Expression) : Build Expression :=
  expression (.assignment operator target value) [target.span,value.span]

def cast (typeExpr : TypeExpr) (operand : Expression) : Build Expression :=
  expression (.cast typeExpr operand) [operand.span]

/-- The comment of a statement also documents the function literal it stores, unless the
literal has a comment of its own. -/
def documentFunction (doc : JsDoc) (value : Expression) : Expression :=
  match value.kind with
  | .function literal =>
    ⟨value.span,.function {literal with jsdoc := literal.jsdoc.or (some doc)}⟩
  | _ => value

def declare (kind : VarKind) (jsdoc : Option JsDoc) (name : String)
    (initializer : Option Expression) : Build Statement := do
  let initializer := match jsdoc with
    | some doc => initializer.map (documentFunction doc)
    | none => initializer
  let name ← identifier name
  let span ← cover (name.span :: initializer.toList.map (·.span))
  return .var kind [{name, initializer}] jsdoc span

def functionDeclaration (jsdoc : Option JsDoc) (name : String) (parameters : List String)
    (body : List Statement) : Build Statement := do
  let id ← identifier name
  return .function id (← functionLiteral (some name) parameters body jsdoc false)

/-- An expression statement. A comment on an assignment documents the function it
stores. -/
def expressionStatement (jsdoc : Option JsDoc) (value : Expression) : Statement :=
  match jsdoc, value with
  | some doc, ⟨span,.assignment operator target stored⟩ =>
    .expression ⟨span,.assignment operator target (documentFunction doc stored)⟩ jsdoc
  | _, _ => .expression value jsdoc

def makeBlock (statements : List Statement) : Build Block := do
  return ⟨statements,← cover (statements.map Statement.span)⟩

def block (statements : List Statement) : Build Statement := do
  return .block (← makeBlock statements)

def returnValue (value : Option Expression) : Build Statement := do
  return .returnStmt value (← cover (value.toList.map (·.span)))

def branch (condition : Expression) (consequent : List Statement)
    (alternative : Option (List Statement)) : Build Statement := do
  let consequent ← block consequent
  let alternative ← alternative.mapM block
  let span ← cover (condition.span :: consequent.span :: alternative.toList.map Statement.span)
  return .ifStmt condition consequent alternative span

def whileLoop (condition : Expression) (body : List Statement) : Build Statement := do
  let body ← block body
  return .whileLoop condition body (← cover [condition.span,body.span])

def doWhile (body : List Statement) (condition : Expression) : Build Statement := do
  let body ← block body
  return .doWhile body condition (← cover [body.span,condition.span])

def forLoop (start : Option Statement) (condition update : Option Expression)
    (body : List Statement) : Build Statement := do
  let body ← block body
  let span ← cover (start.toList.map Statement.span ++ condition.toList.map (·.span) ++
    update.toList.map (·.span) ++ [body.span])
  return .forLoop start condition update body span

def forIn (key : String) (object : Expression) (body : List Statement) : Build Statement := do
  let key ← identifier key
  let body ← block body
  return .forIn key (some .var) object body (← cover [key.span,object.span,body.span])

def breakLoop : Build Statement := do return .breakStmt (← fresh)
def continueLoop : Build Statement := do return .continueStmt (← fresh)

def throwValue (value : Expression) : Build Statement := do
  return .throwStmt value (← cover [value.span])

def handler (parameter : Option String) (body : List Statement) : Build CatchClause := do
  let parameter ← parameter.mapM identifier
  return ⟨parameter,← makeBlock body⟩

def tryBlock (body : List Statement) (clause : Option (Option String × List Statement))
    (finalizer : Option (List Statement)) : Build Statement := do
  let body ← makeBlock body
  let clause ← clause.mapM fun (parameter,statements) => handler parameter statements
  let finalizer ← finalizer.mapM makeBlock
  let span ← cover (body.span :: clause.toList.map (·.body.span) ++ finalizer.toList.map (·.span))
  return .tryStmt body clause finalizer span

def switch (discriminant : Expression) (cases : List SwitchCase) : Build Statement := do
  let spans := cases.flatMap fun c => c.test.toList.map (·.span) ++ c.body.map Statement.span
  return .switch discriminant cases (← cover (discriminant.span :: spans))

def classDeclaration (jsdoc : Option JsDoc) (name : String) (superclass : Option Expression)
    (members : List ClassMember) : Build Statement := do
  let name ← identifier name
  let span ← cover (name.span :: superclass.toList.map (·.span) ++ members.map (·.function.span))
  return .classDecl {name, superclass, members, jsdoc, span}

def classMember (kind : MemberKind) (name : String) (jsdoc : Option JsDoc)
    (parameters : List String) (body : List Statement) : Build ClassMember := do
  return {name, kind, function := ← functionLiteral (some name) parameters body jsdoc false}

def program (first : Nat) (statements : Build (List Statement)) : Except BuildError Program :=
  (fun result => ⟨result.1⟩) <$> statements.run {function := first}

end Build

namespace TypeExpr

def named (name : String) (arguments : List TypeExpr) : TypeExpr := ⟨.named name arguments,{}⟩

end TypeExpr

namespace JsDoc

def withEnum (doc : JsDoc) (backing : TypeExpr) : JsDoc := {doc with isEnum := true, enumType := some backing}

def withTypedef (doc : JsDoc) (meaning : TypeExpr) : JsDoc := {doc with isTypedef := true, typedefType := some meaning}

end JsDoc
end GradualJs
