import GradualJs.Syntax.Tree

/-! The nodes of a piece of syntax, parents before children and in source order. A
function literal is one node that holds the nodes of its body apart, so that a reader
chooses whether to look inside. -/
namespace GradualJs

inductive Node where
  | statement (s : Statement)
  | expression (e : Expression)
  | function (literal : FunctionLiteral) (inner : List Node)

mutual
def Expression.nodes : Expression → List Node
  | ⟨span,kind⟩ => .expression ⟨span,kind⟩ :: kind.nodes

def ExpressionKind.nodes : ExpressionKind → List Node
  | .literal _ | .identifier _ | .this => []
  | .member object _ _ => object.nodes
  | .index object key => object.nodes ++ key.nodes
  | .call callee arguments | .new callee arguments => callee.nodes ++ expressionNodes arguments
  | .function literal => literal.nodes
  | .object properties => propertyNodes properties
  | .array elements => expressionNodes elements
  | .unary _ operand => operand.nodes
  | .update _ _ target => target.nodes
  | .binary _ left right => left.nodes ++ right.nodes
  | .logical _ left right => left.nodes ++ right.nodes
  | .conditional test consequent alternative =>
    test.nodes ++ consequent.nodes ++ alternative.nodes
  | .assignment _ target value => target.nodes ++ value.nodes
  | .cast _ operand => operand.nodes

def expressionNodes : List Expression → List Node
  | [] => []
  | e :: rest => e.nodes ++ expressionNodes rest

def ObjectProperty.nodes : ObjectProperty → List Node
  | ⟨_,value,_,_⟩ => value.nodes

def propertyNodes : List ObjectProperty → List Node
  | [] => []
  | p :: rest => p.nodes ++ propertyNodes rest

def FunctionLiteral.nodes : FunctionLiteral → List Node
  | ⟨id,name,parameters,body,jsdoc,isArrow,span⟩ =>
    [.function ⟨id,name,parameters,body,jsdoc,isArrow,span⟩ body.nodes]

def Block.nodes : Block → List Node
  | ⟨statements,_⟩ => statementNodes statements

def optionalExpressionNodes : Option Expression → List Node
  | none => []
  | some e => e.nodes

def Declarator.nodes : Declarator → List Node
  | ⟨_,_,initializer⟩ => optionalExpressionNodes initializer

def declaratorNodes : List Declarator → List Node
  | [] => []
  | d :: rest => d.nodes ++ declaratorNodes rest

def ClassMember.nodes : ClassMember → List Node
  | ⟨_,_,function⟩ => function.nodes

def memberNodes : List ClassMember → List Node
  | [] => []
  | m :: rest => m.nodes ++ memberNodes rest

def ClassDeclaration.nodes : ClassDeclaration → List Node
  | ⟨_,superclass,members,_,_⟩ => optionalExpressionNodes superclass ++ memberNodes members

def CatchClause.nodes : CatchClause → List Node
  | ⟨_,body⟩ => body.nodes

def optionalHandlerNodes : Option CatchClause → List Node
  | none => []
  | some handler => handler.nodes

def optionalBlockNodes : Option Block → List Node
  | none => []
  | some body => body.nodes

def SwitchCase.nodes : SwitchCase → List Node
  | ⟨test,body⟩ => optionalExpressionNodes test ++ statementNodes body

def caseNodes : List SwitchCase → List Node
  | [] => []
  | c :: rest => c.nodes ++ caseNodes rest

def Statement.nodes : Statement → List Node
  | .var kind declarators jsdoc span =>
    .statement (.var kind declarators jsdoc span) :: declaratorNodes declarators
  | .function name literal => .statement (.function name literal) :: literal.nodes
  | .classDecl declaration => .statement (.classDecl declaration) :: declaration.nodes
  | .expression value jsdoc => .statement (.expression value jsdoc) :: value.nodes
  | .returnStmt value span =>
    .statement (.returnStmt value span) :: optionalExpressionNodes value
  | .ifStmt condition consequent alternative span =>
    .statement (.ifStmt condition consequent alternative span) ::
      condition.nodes ++ consequent.nodes ++ optionalStatementNodes alternative
  | .whileLoop condition body span =>
    .statement (.whileLoop condition body span) :: condition.nodes ++ body.nodes
  | .doWhile body condition span =>
    .statement (.doWhile body condition span) :: body.nodes ++ condition.nodes
  | .forLoop start condition update body span =>
    .statement (.forLoop start condition update body span) ::
      optionalStatementNodes start ++ optionalExpressionNodes condition ++ optionalExpressionNodes update ++ body.nodes
  | .forIn key declaration object body span =>
    .statement (.forIn key declaration object body span) :: object.nodes ++ body.nodes
  | .block body => .statement (.block body) :: body.nodes
  | .breakStmt span => [.statement (.breakStmt span)]
  | .continueStmt span => [.statement (.continueStmt span)]
  | .throwStmt value span => .statement (.throwStmt value span) :: value.nodes
  | .tryStmt body handler finalizer span =>
    .statement (.tryStmt body handler finalizer span) ::
      body.nodes ++ optionalHandlerNodes handler ++ optionalBlockNodes finalizer
  | .switch discriminant cases span =>
    .statement (.switch discriminant cases span) :: discriminant.nodes ++ caseNodes cases
  | .empty span => [.statement (.empty span)]

def optionalStatementNodes : Option Statement → List Node
  | none => []
  | some s => s.nodes

def statementNodes : List Statement → List Node
  | [] => []
  | s :: rest => s.nodes ++ statementNodes rest
end

namespace Node

def childFunctions (nodes : List Node) : List FunctionLiteral :=
  nodes.filterMap fun
    | .function literal _ => some literal
    | _ => none

/-- Names called directly, as in `f(x)` and `new f(x)`, outside nested functions. -/
def calledNames (nodes : List Node) : List String :=
  nodes.filterMap fun
    | .expression ⟨_,.call ⟨_,.identifier id⟩ _⟩ => some id.name
    | .expression ⟨_,.new ⟨_,.identifier id⟩ _⟩ => some id.name
    | _ => none

mutual
/-- All nodes in one list: each function literal is followed by its body. -/
def deep : Node → List Node
  | .statement s => [.statement s]
  | .expression e => [.expression e]
  | .function literal inner => .function literal inner :: deepList inner

def deepList : List Node → List Node
  | [] => []
  | node :: rest => deep node ++ deepList rest
end

end Node
end GradualJs
