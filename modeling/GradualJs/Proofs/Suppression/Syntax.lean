import GradualJs.Declarations.Register
import GradualJs.Declarations.SimpleType
import Mathlib.Tactic.Lemma

/-! Programs whose comments suppress nothing. Two programs differ only in what they suppress if
they are the same once nothing is suppressed. -/
namespace GradualJs

open Expression

def JsDoc.loud (doc : JsDoc) : JsDoc := {doc with suppressions := []}

mutual
def Expression.loud : Expression → Expression
  | ⟨span,kind⟩ => ⟨span,kind.loud⟩

def ExpressionKind.loud : ExpressionKind → ExpressionKind
  | .literal value => .literal value
  | .identifier id => .identifier id
  | .this => .this
  | .member object prop span => .member object.loud prop span
  | .index object key => .index object.loud key.loud
  | .call callee args => .call callee.loud (loudExpressions args)
  | .new callee args => .new callee.loud (loudExpressions args)
  | .function fn => .function fn.loud
  | .object properties => .object (loudProperties properties)
  | .array elements => .array (loudExpressions elements)
  | .unary op operand => .unary op operand.loud
  | .update op pre tgt => .update op pre tgt.loud
  | .binary op left right => .binary op left.loud right.loud
  | .logical op left right => .logical op left.loud right.loud
  | .conditional test consequent alternative =>
    .conditional test.loud consequent.loud alternative.loud
  | .assignment op tgt value =>
    .assignment op tgt.loud value.loud
  | .cast typeExpr operand => .cast typeExpr operand.loud

def loudExpressions : List Expression → List Expression
  | [] => []
  | e :: rest => e.loud :: loudExpressions rest

def ObjectProperty.loud : ObjectProperty → ObjectProperty
  | ⟨key,value,jsdoc,span⟩ => ⟨key,value.loud,jsdoc.map JsDoc.loud,span⟩

def loudProperties : List ObjectProperty → List ObjectProperty
  | [] => []
  | p :: rest => p.loud :: loudProperties rest

def FunctionLiteral.loud : FunctionLiteral → FunctionLiteral
  | ⟨id,name,params,body,jsdoc,isArrow,span⟩ =>
    ⟨id,name,params,body.loud,jsdoc.map JsDoc.loud,isArrow,span⟩

def Block.loud : Block → Block
  | ⟨stmts,span⟩ => ⟨loudStatements stmts,span⟩

def loudExpression? : Option Expression → Option Expression
  | none => none
  | some e => some e.loud

def Declarator.loud : Declarator → Declarator
  | ⟨name,jsdoc,init⟩ =>
    ⟨name,jsdoc.map JsDoc.loud,loudExpression? init⟩

def loudDeclarators : List Declarator → List Declarator
  | [] => []
  | d :: rest => d.loud :: loudDeclarators rest

def ClassMember.loud : ClassMember → ClassMember
  | ⟨name,kind,function⟩ => ⟨name,kind,function.loud⟩

def loudMembers : List ClassMember → List ClassMember
  | [] => []
  | m :: rest => m.loud :: loudMembers rest

def ClassDeclaration.loud : ClassDeclaration → ClassDeclaration
  | ⟨name,superclass,members,jsdoc,span⟩ =>
    ⟨name,loudExpression? superclass,loudMembers members, jsdoc.map JsDoc.loud,span⟩

def CatchClause.loud : CatchClause → CatchClause
  | ⟨parameter,body⟩ => ⟨parameter,body.loud⟩

def loudHandler? : Option CatchClause → Option CatchClause
  | none => none
  | some handler => some handler.loud

def loudBlock? : Option Block → Option Block
  | none => none
  | some body => some body.loud

def SwitchCase.loud : SwitchCase → SwitchCase
  | ⟨test,body⟩ => ⟨loudExpression? test,loudStatements body⟩

def loudCases : List SwitchCase → List SwitchCase
  | [] => []
  | c :: rest => c.loud :: loudCases rest

def Statement.loud : Statement → Statement
  | .var kind declarators jsdoc span =>
    .var kind (loudDeclarators declarators) (jsdoc.map JsDoc.loud) span
  | .function name fn => .function name fn.loud
  | .classDecl decl => .classDecl decl.loud
  | .expression value jsdoc => .expression value.loud (jsdoc.map JsDoc.loud)
  | .returnStmt value span => .returnStmt (loudExpression? value) span
  | .ifStmt condition consequent alternative span =>
    .ifStmt condition.loud consequent.loud (loudStatement? alternative) span
  | .whileLoop condition body span => .whileLoop condition.loud body.loud span
  | .doWhile body condition span => .doWhile body.loud condition.loud span
  | .forLoop start condition update body span =>
    .forLoop (loudStatement? start) (loudExpression? condition) (loudExpression? update) body.loud span
  | .forIn key decl object body span =>
    .forIn key decl object.loud body.loud span
  | .block body => .block body.loud
  | .breakStmt span => .breakStmt span
  | .continueStmt span => .continueStmt span
  | .throwStmt value span => .throwStmt value.loud span
  | .tryStmt body handler finalizer span =>
    .tryStmt body.loud (loudHandler? handler) (loudBlock? finalizer) span
  | .switch subject cases span =>
    .switch subject.loud (loudCases cases) span
  | .empty span => .empty span

def loudStatement? : Option Statement → Option Statement
  | none => none
  | some s => some s.loud

def loudStatements : List Statement → List Statement
  | [] => []
  | s :: rest => s.loud :: loudStatements rest
end

def Program.loud (p : Program) : Program := ⟨loudStatements p.statements⟩

mutual
def Node.loud : Node → Node
  | .statement s => .statement s.loud
  | .expression e => .expression e.loud
  | .function fn inner => .function fn.loud (loudNodes inner)

def loudNodes : List Node → List Node
  | [] => []
  | node :: rest => node.loud :: loudNodes rest
end

lemma eq_map_of_cons {α β : Type} {f : List α → List β} {g : α → β} (nil : f [] = [])
    (cons : ∀ a rest, f (a :: rest) = g a :: f rest) (list : List α) : f list = list.map g := by
  induction list with
  | nil => exact nil
  | cons a rest ih => rw [cons,ih,List.map_cons]

@[simp] lemma loudProperties_eq (list : List ObjectProperty) : loudProperties list = list.map ObjectProperty.loud :=
  eq_map_of_cons rfl (fun _ _ => rfl) list

@[simp] lemma loudDeclarators_eq (list : List Declarator) : loudDeclarators list = list.map Declarator.loud :=
  eq_map_of_cons rfl (fun _ _ => rfl) list

@[simp] lemma loudMembers_eq (list : List ClassMember) : loudMembers list = list.map ClassMember.loud :=
  eq_map_of_cons rfl (fun _ _ => rfl) list

@[simp] lemma loudNodes_eq (list : List Node) : loudNodes list = list.map Node.loud :=
  eq_map_of_cons rfl (fun _ _ => rfl) list

@[simp] lemma loudExpression?_eq (e : Option Expression) : loudExpression? e = e.map loud := by
  cases e <;> rfl

section Reading

@[simp] lemma JsDoc.kind_loud (doc : JsDoc) : doc.loud.kind = doc.kind := rfl

@[simp] lemma Expression.span_loud (e : Expression) : e.loud.span = e.span := by
  cases e
  rfl

@[simp] lemma Expression.kind_loud (e : Expression) : e.loud.kind = e.kind.loud := by
  cases e
  rfl

variable (fn : FunctionLiteral) (p : ObjectProperty)

@[simp] lemma ObjectProperty.key_loud : p.loud.key = p.key := by
  cases p
  rfl

@[simp] lemma ObjectProperty.value_loud : p.loud.value = p.value.loud := by
  cases p
  rfl

@[simp] lemma ObjectProperty.span_loud : p.loud.span = p.span := by
  cases p
  rfl

@[simp] lemma FunctionLiteral.id_loud : fn.loud.id = fn.id := by
  cases fn
  rfl

@[simp] lemma FunctionLiteral.name_loud : fn.loud.name = fn.name := by
  cases fn
  rfl

@[simp] lemma FunctionLiteral.parameters_loud : fn.loud.parameters = fn.parameters := by
  cases fn
  rfl

@[simp] lemma FunctionLiteral.body_loud : fn.loud.body = fn.body.loud := by
  cases fn
  rfl

@[simp] lemma FunctionLiteral.jsdoc_loud : fn.loud.jsdoc = fn.jsdoc.map JsDoc.loud := by
  cases fn
  rfl

@[simp] lemma FunctionLiteral.span_loud : fn.loud.span = fn.span := by
  cases fn
  rfl

@[simp] lemma Expression.qualifiedName_loud : (e : Expression) → e.loud.qualifiedName = e.qualifiedName
  | ⟨_,.member object prop span⟩ => by
    have parent := qualifiedName_loud object
    simp [loud,ExpressionKind.loud,qualifiedName,qualifiedNameKind,parent]
  | ⟨_,.literal _⟩ | ⟨_,.identifier _⟩ | ⟨_,.this⟩ | ⟨_,.index _ _⟩ | ⟨_,.call _ _⟩
  | ⟨_,.new _ _⟩ | ⟨_,.function _⟩ | ⟨_,.object _⟩ | ⟨_,.array _⟩ | ⟨_,.unary _ _⟩
  | ⟨_,.update _ _ _⟩ | ⟨_,.binary _ _ _⟩ | ⟨_,.logical _ _ _⟩ | ⟨_,.conditional _ _ _⟩
  | ⟨_,.assignment _ _ _⟩ | ⟨_,.cast _ _⟩ => rfl

end Reading

lemma statementNodes_loud (list : List Statement) :
    statementNodes (loudStatements list) = (statementNodes list).map Node.loud := by
  let agree (plain nodes : List Node) : Prop := plain = nodes.map Node.loud
  apply statementNodes.induct (fun e => agree e.loud.nodes e.nodes) (fun kind => agree kind.loud.nodes kind.nodes)
    (fun list => agree (propertyNodes (loudProperties list)) (propertyNodes list))
    (fun p => agree p.loud.nodes p.nodes)
    (fun fn => agree fn.loud.nodes fn.nodes)
    (fun body => agree body.loud.nodes body.nodes)
    (fun list => agree (statementNodes (loudStatements list)) (statementNodes list))
    (fun s => agree s.loud.nodes s.nodes)
    (fun list => agree (caseNodes (loudCases list)) (caseNodes list))
    (fun c => agree c.loud.nodes c.nodes)
    (fun e => agree (optionalExpressionNodes (loudExpression? e)) (optionalExpressionNodes e))
    (fun body => agree (optionalBlockNodes (loudBlock? body)) (optionalBlockNodes body))
    (fun handler => agree (optionalHandlerNodes (loudHandler? handler)) (optionalHandlerNodes handler))
    (fun handler => agree handler.loud.nodes handler.nodes)
    (fun s => agree (optionalStatementNodes (loudStatement? s)) (optionalStatementNodes s))
    (fun d => agree d.loud.nodes d.nodes)
    (fun list => agree (memberNodes (loudMembers list)) (memberNodes list))
    (fun m => agree m.loud.nodes m.nodes)
    (fun list => agree (declaratorNodes (loudDeclarators list)) (declaratorNodes list))
    (fun d => agree d.loud.nodes d.nodes)
    (fun list => agree (expressionNodes (loudExpressions list)) (expressionNodes list))
  all_goals intros
  all_goals simp_all only [agree]
  all_goals first
    | rfl
    | assumption
    | simp_all only [loud,nodes,ExpressionKind.loud,
        ExpressionKind.nodes,loudExpressions,expressionNodes,loudProperties,
        propertyNodes,FunctionLiteral.loud,FunctionLiteral.nodes,loudDeclarators,
        declaratorNodes,loudMembers,memberNodes,ClassDeclaration.loud,
        ClassDeclaration.nodes,SwitchCase.loud,SwitchCase.nodes,loudCases,caseNodes,
        Statement.loud,Statement.nodes,loudStatements,statementNodes,
        Node.loud,loudNodes_eq,List.map_append,List.map_cons,List.map_nil]

example : (statementNodes (loudStatements [.empty {}])).length = 1 := by decide +kernel

lemma Block.nodes_loud (body : Block) : body.loud.nodes = body.nodes.map Node.loud := by
  cases body
  exact statementNodes_loud _

namespace Registry

variable (r : Registry) (constructor : Option Nat)

mutual
lemma simpleType_loud : (e : Expression) → r.simpleType constructor e.loud = r.simpleType constructor e
  | ⟨_,kind⟩ => by
    rw [loud,simpleType,simpleType]
    exact simpleTypeKind_loud kind

lemma simpleTypeKind_loud : (kind : ExpressionKind) →
    r.simpleTypeKind constructor kind.loud = r.simpleTypeKind constructor kind
  | .object properties => by
    simp only [ExpressionKind.loud,simpleTypeKind,simpleFields_loud properties]
  | .array elements => by
    simp only [ExpressionKind.loud,simpleTypeKind,simpleTypes_loud elements]
  | .function fn => by
    simp only [ExpressionKind.loud,simpleTypeKind,FunctionLiteral.id_loud]
  | .new callee _ => by
    simp only [ExpressionKind.loud,simpleTypeKind,qualifiedName_loud]
  | .binary op left right => by
    simp only [ExpressionKind.loud,simpleTypeKind,simpleType_loud left, simpleType_loud right]
  | .literal _ | .identifier _ | .this | .member _ _ _ | .index _ _ | .call _ _ | .unary _ _
  | .update _ _ _ | .logical _ _ _ | .conditional _ _ _ | .assignment _ _ _ | .cast _ _ => rfl

lemma simpleTypes_loud : (list : List Expression) →
    r.simpleTypes constructor (loudExpressions list) = r.simpleTypes constructor list
  | [] => rfl
  | e :: rest => by
    simp only [loudExpressions,simpleTypes,simpleType_loud e,simpleTypes_loud rest]

lemma simpleFields_loud : (list : List ObjectProperty) →
    r.simpleFields constructor (loudProperties list) = r.simpleFields constructor list
  | [] => rfl
  | ⟨_,value,_,_⟩ :: rest => by
    simp only [loudProperties,ObjectProperty.loud,simpleFields, simpleType_loud value,simpleFields_loud rest]
end

end Registry

end GradualJs
