import GradualJs.Syntax.TypeExpr
import GradualJs.Syntax.Operator

/-! Parsed programs. Every function literal carries a number that stands for its
scope in all later passes. -/
namespace GradualJs

structure Identifier where
  name : String
  span : Span := {}
  deriving DecidableEq, Inhabited

inductive Literal where
  | number (value : Float)
  | string (value : String)
  | boolean (value : Bool)
  | null
  | undefined

inductive VarKind where
  | var
  | letBinding
  | constant
  deriving DecidableEq

inductive MemberKind where
  | constructor
  | method
  | staticMethod
  deriving DecidableEq

mutual
structure Expression where
  span : Span := {}
  kind : ExpressionKind

inductive ExpressionKind where
  | literal (value : Literal)
  | identifier (id : Identifier)
  | this
  | member (object : Expression) (property : String) (propertySpan : Span)
  | index (object : Expression) (key : Expression)
  | call (callee : Expression) (arguments : List Expression)
  | new (callee : Expression) (arguments : List Expression)
  | function (literal : FunctionLiteral)
  | object (properties : List ObjectProperty)
  | array (elements : List Expression)
  | unary (operator : UnaryOperator) (operand : Expression)
  | update (operator : UpdateOperator) (before : Bool) (target : Expression)
  | binary (operator : BinaryOperator) (left right : Expression)
  | logical (operator : LogicalOperator) (left right : Expression)
  | conditional (test consequent alternative : Expression)
  | assignment (operator : Option BinaryOperator) (target value : Expression)
  | cast (typeExpr : TypeExpr) (operand : Expression)

structure ObjectProperty where
  key : String
  value : Expression
  jsdoc : Option JsDoc := none
  span : Span := {}

structure FunctionLiteral where
  id : Nat
  name : Option String := none
  parameters : List Identifier
  body : Block
  jsdoc : Option JsDoc := none
  isArrow : Bool := false
  span : Span := {}

structure Block where
  statements : List Statement
  span : Span := {}

structure Declarator where
  name : Identifier
  jsdoc : Option JsDoc := none
  initializer : Option Expression := none

structure ClassMember where
  name : String
  kind : MemberKind
  function : FunctionLiteral

structure ClassDeclaration where
  name : Identifier
  superclass : Option Expression := none
  members : List ClassMember
  jsdoc : Option JsDoc := none
  span : Span := {}

structure CatchClause where
  parameter : Option Identifier := none
  body : Block

/-- A case without a test is the default one. -/
structure SwitchCase where
  test : Option Expression := none
  body : List Statement

inductive Statement where
  | var (kind : VarKind) (declarators : List Declarator) (jsdoc : Option JsDoc) (span : Span)
  | function (name : Identifier) (literal : FunctionLiteral)
  | classDecl (declaration : ClassDeclaration)
  | expression (value : Expression) (jsdoc : Option JsDoc)
  | returnStmt (value : Option Expression) (span : Span)
  | ifStmt (condition : Expression) (consequent : Statement) (alternative : Option Statement) (span : Span)
  | whileLoop (condition : Expression) (body : Statement) (span : Span)
  | doWhile (body : Statement) (condition : Expression) (span : Span)
  | forLoop (start : Option Statement) (condition update : Option Expression) (body : Statement) (span : Span)
  | forIn (key : Identifier) (declaration : Option VarKind) (object : Expression) (body : Statement) (span : Span)
  | block (body : Block)
  | breakStmt (span : Span)
  | continueStmt (span : Span)
  | throwStmt (value : Expression) (span : Span)
  | tryStmt (body : Block) (handler : Option CatchClause) (finalizer : Option Block) (span : Span)
  | switch (discriminant : Expression) (cases : List SwitchCase) (span : Span)
  | empty (span : Span)
end

structure Program where
  statements : List Statement

instance : Inhabited ExpressionKind := ⟨.this⟩
instance : Inhabited Expression := ⟨⟨{},.this⟩⟩
instance : Inhabited Block := ⟨⟨[],{}⟩⟩
instance : Inhabited Statement := ⟨.empty {}⟩
instance : Inhabited Program := ⟨⟨[]⟩⟩

namespace Expression

mutual
def qualifiedName : Expression → Option String
  | ⟨_,kind⟩ => qualifiedNameKind kind
def qualifiedNameKind : ExpressionKind → Option String
  | .identifier id => some id.name
  | .this => some "this"
  | .member object property _ => (qualifiedName object).map (· ++ "." ++ property)
  | _ => none
end

end Expression

namespace Statement

def span : Statement → Span
  | .var _ _ _ span => span
  | .function _ literal => literal.span
  | .classDecl declaration => declaration.span
  | .expression value _ => value.span
  | .returnStmt _ span => span
  | .ifStmt _ _ _ span => span
  | .whileLoop _ _ span => span
  | .doWhile _ _ span => span
  | .forLoop _ _ _ _ span => span
  | .forIn _ _ _ _ span => span
  | .block body => body.span
  | .breakStmt span => span
  | .continueStmt span => span
  | .throwStmt _ span => span
  | .tryStmt _ _ _ span => span
  | .switch _ _ span => span
  | .empty span => span

end Statement

/-- The comment that governs one name of a declaration: its own, or that of the whole
declaration when this is its only name. -/
def Declarator.governingDoc (d : Declarator) (declarators : List Declarator) (whole : Option JsDoc) : Option JsDoc :=
  match d.jsdoc with
  | some doc => some doc
  | none => if declarators.length = 1 then whole else none

end GradualJs
