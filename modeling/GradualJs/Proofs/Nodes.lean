import GradualJs.Syntax.Traversal
import Mathlib.Data.List.Basic

/-! The nodes of statements. A literal that a declaration binds to a name stands among the nodes of
the declaration. -/
namespace GradualJs

open List
open Node (childFunctions deepList)

/-- What nodes have in common if it holds of no nodes, is kept when nodes are put together, and
comes from the parts of a statement or a function to the whole. -/
lemma statementNodes_induction {P : List Node → Prop} (nil : P [])
    (append : ∀ first second, P first → P second → P (first ++ second)) (expression : ∀ e, P [.expression e])
    (statement : ∀ s parts, s.nodes = .statement s :: parts → P parts → P (.statement s :: parts))
    (function : ∀ fn : FunctionLiteral, P (statementNodes fn.body.statements) →
      P [.function fn (statementNodes fn.body.statements)])
    (list : List Statement) : P (statementNodes list) := by
  apply statementNodes.induct (P ·.nodes) (P ·.nodes) (P <| propertyNodes ·) (P ·.nodes) (P ·.nodes)
    (P ·.nodes) (P <| statementNodes ·) (P ·.nodes) (P <| caseNodes ·) (P ·.nodes)
    (P <| optionalExpressionNodes ·) (P <| optionalBlockNodes ·) (P <| optionalHandlerNodes ·)
    (P ·.nodes) (P <| optionalStatementNodes ·) (P ·.nodes) (P <| memberNodes ·) (P ·.nodes)
    (P <| declaratorNodes ·) (P ·.nodes) (P <| expressionNodes ·)
  case case20 =>
    rintro id name params ⟨stmts,_⟩ jsdoc isArrow span held
    exact function ⟨id,name,params,⟨stmts,_⟩,jsdoc,isArrow,span⟩ held
  all_goals intros
  all_goals first
    | exact append [_] _ (expression _) ‹_›
    | refine statement _ _ rfl ?_
    | skip
  all_goals repeat first | exact nil | assumption | refine append _ _ ?_ ?_

namespace Node

/-- The node has its parts among the nodes, as far as they declare functions. -/
def Rooted (nodes : List Node) : Node → Prop
  | .function fn inner => inner = statementNodes fn.body.statements
  | .statement (.function _ fn) => fn ∈ childFunctions nodes
  | .statement (.var _ declarators _ _) =>
    ∀ d ∈ declarators, ∀ span fn, d.initializer = some ⟨span,.function fn⟩ → fn ∈ childFunctions nodes
  | _ => True

end Node

lemma childFunctions_append (first second : List Node) : childFunctions (first ++ second) =
    childFunctions first ++ childFunctions second :=
  filterMap_append

lemma mem_childFunctions_literal : (fn : FunctionLiteral) → fn ∈ childFunctions fn.nodes
  | ⟨_,_,_,_,_,_,_⟩ => mem_cons_self

lemma mem_childFunctions_declarators {d : Declarator} (mem : d ∈ list)
    {span : Span} (initial : d.initializer = some ⟨span,.function fn⟩) :
    fn ∈ childFunctions (declaratorNodes list) := by
  induction list with
  | nil => cases mem
  | cons first rest ih =>
    rw [declaratorNodes,childFunctions_append,mem_append]
    rcases mem_cons.mp mem with rfl | later
    · obtain ⟨name,jsdoc,_⟩ := d
      cases initial
      exact .inl (mem_childFunctions_literal fn)
    · exact .inr (ih later)

lemma rooted_statementNodes (list : List Statement) :
    ∀ node ∈ statementNodes list, node.Rooted (statementNodes list) := by
  have grows {few many : List Node} (part : few ⊆ many) (node : Node) (held : node.Rooted few) : node.Rooted many := by
    have functions : childFunctions few ⊆ childFunctions many := filterMap_subset _ part
    unfold Node.Rooted at held ⊢
    split <;> grind
  refine statementNodes_induction (P := fun nodes => ∀ node ∈ nodes, node.Rooted nodes) nofun ?_ ?_ ?_ ?_ list
  · intro first second inFirst inSecond
    refine forall_mem_append.mpr ⟨fun node mem => ?_,fun node mem => ?_⟩
    · exact grows (subset_append_left _ _) node (inFirst node mem)
    · exact grows (subset_append_right _ _) node (inSecond node mem)
  · simp [Node.Rooted]
  · intro s parts eq held
    refine forall_mem_cons.mpr ⟨?_,fun node mem => ?_⟩
    · unfold Node.Rooted
      split
      · contradiction
      · rename_i isFunction
        cases isFunction
        cases eq
        exact mem_childFunctions_literal _
      · rename_i isVar
        cases isVar
        cases eq
        exact fun d mem span fn initial => mem_childFunctions_declarators mem initial
      · trivial
    · exact grows (subset_cons_self _ _) node (held node mem)
  · intro fn held
    simp [Node.Rooted]
mutual
def Expression.literals : Expression → List FunctionLiteral
  | ⟨_,.literal _⟩ | ⟨_,.identifier _⟩ | ⟨_,.this⟩ => []
  | ⟨_,.member e _ _⟩ | ⟨_,.unary _ e⟩ | ⟨_,.update _ _ e⟩ | ⟨_,.cast _ e⟩ => e.literals
  | ⟨_,.index a b⟩ | ⟨_,.binary _ a b⟩ | ⟨_,.logical _ a b⟩ | ⟨_,.assignment _ a b⟩ =>
    a.literals ++ b.literals
  | ⟨_,.call callee args⟩ | ⟨_,.new callee args⟩ =>
    callee.literals ++ expressionLiterals args
  | ⟨_,.function fn⟩ => fn.literals
  | ⟨_,.object properties⟩ => propertyLiterals properties
  | ⟨_,.array elements⟩ => expressionLiterals elements
  | ⟨_,.conditional a b c⟩ => a.literals ++ b.literals ++ c.literals

def expressionLiterals : List Expression → List FunctionLiteral
  | [] => []
  | e :: rest => e.literals ++ expressionLiterals rest

def propertyLiterals : List ObjectProperty → List FunctionLiteral
  | [] => []
  | ⟨_,value,_,_⟩ :: rest => value.literals ++ propertyLiterals rest

def FunctionLiteral.literals : FunctionLiteral → List FunctionLiteral
  | ⟨id,name,params,⟨body,span⟩,jsdoc,isArrow,at'⟩ =>
    ⟨id,name,params,⟨body,span⟩,jsdoc,isArrow,at'⟩ :: statementLiterals body

def optionalLiterals : Option Expression → List FunctionLiteral
  | none => []
  | some e => e.literals

def declaratorLiterals : List Declarator → List FunctionLiteral
  | [] => []
  | ⟨_,_,init⟩ :: rest => optionalLiterals init ++ declaratorLiterals rest

def memberLiterals : List ClassMember → List FunctionLiteral
  | [] => []
  | ⟨_,_,function⟩ :: rest => function.literals ++ memberLiterals rest

def caseLiterals : List SwitchCase → List FunctionLiteral
  | [] => []
  | ⟨test,body⟩ :: rest => optionalLiterals test ++ statementLiterals body ++ caseLiterals rest

def Statement.literals : Statement → List FunctionLiteral
  | .var _ declarators _ _ => declaratorLiterals declarators
  | .function _ fn => fn.literals
  | .classDecl ⟨_,superclass,members,_,_⟩ => optionalLiterals superclass ++ memberLiterals members
  | .expression e _ | .throwStmt e _ => e.literals
  | .returnStmt e _ => optionalLiterals e
  | .ifStmt e s none _ | .whileLoop e s _ | .forIn _ _ e s _ => e.literals ++ s.literals
  | .ifStmt e s (some s') _ => e.literals ++ s.literals ++ s'.literals
  | .doWhile s e _ => s.literals ++ e.literals
  | .forLoop none e e' s _ => optionalLiterals e ++ optionalLiterals e' ++ s.literals
  | .forLoop (some start) e e' s _ =>
    start.literals ++ optionalLiterals e ++ optionalLiterals e' ++ s.literals
  | .block ⟨body,_⟩ => statementLiterals body
  | .breakStmt _ | .continueStmt _ | .empty _ => []
  | .tryStmt ⟨body,_⟩ none none _ => statementLiterals body
  | .tryStmt ⟨body,_⟩ (some ⟨_,⟨handler,_⟩⟩) none _ => statementLiterals body ++ statementLiterals handler
  | .tryStmt ⟨body,_⟩ none (some ⟨last,_⟩) _ => statementLiterals body ++ statementLiterals last
  | .tryStmt ⟨body,_⟩ (some ⟨_,⟨handler,_⟩⟩) (some ⟨last,_⟩) _ =>
    statementLiterals body ++ statementLiterals handler ++ statementLiterals last
  | .switch e cases _ => e.literals ++ caseLiterals cases

def statementLiterals : List Statement → List FunctionLiteral
  | [] => []
  | s :: rest => s.literals ++ statementLiterals rest
end

@[simp] lemma Node.deepList_append (first second : List Node) :
    deepList (first ++ second) = deepList first ++ deepList second := by
  induction first with
  | nil => rfl
  | cons node rest ih => simp [deepList,ih]

lemma statementLiterals_eq (list : List Statement) :
    childFunctions (deepList (statementNodes list)) = statementLiterals list := by
  let found (nodes : List Node) : List FunctionLiteral := childFunctions (deepList nodes)
  have append (a b : List Node) : found (a ++ b) = found a ++ found b := by
    simp [found,childFunctions_append]
  have expression (e : Expression) (rest : List Node) : found (.expression e :: rest) = found rest := rfl
  have statement (s : Statement) (rest : List Node) : found (.statement s :: rest) = found rest := rfl
  have function (fn : FunctionLiteral) (inner : List Node) : found [.function fn inner] = fn :: found inner := by
    simp [found,deepList,Node.deep,childFunctions]
  have nothing : found [] = [] := rfl
  apply statementLiterals.induct (fun e => found e.nodes = e.literals)
    (fun list => found (propertyNodes list) = propertyLiterals list)
    (fun fn => found fn.nodes = fn.literals)
    (fun list => found (statementNodes list) = statementLiterals list)
    (fun s => found s.nodes = s.literals)
    (fun list => found (caseNodes list) = caseLiterals list)
    (fun e => found (optionalExpressionNodes e) = optionalLiterals e)
    (fun list => found (memberNodes list) = memberLiterals list)
    (fun list => found (declaratorNodes list) = declaratorLiterals list)
    (fun list => found (expressionNodes list) = expressionLiterals list)
  all_goals intros
  all_goals first
    | rfl
    | assumption
    | simp_all only [Expression.nodes,ExpressionKind.nodes,expressionNodes,propertyNodes,
        ObjectProperty.nodes,FunctionLiteral.nodes,Block.nodes,declaratorNodes,Declarator.nodes,
        memberNodes,ClassMember.nodes,ClassDeclaration.nodes,caseNodes,SwitchCase.nodes,
        Statement.nodes,optionalStatementNodes,optionalHandlerNodes,CatchClause.nodes,
        optionalBlockNodes,statementNodes,Expression.literals,expressionLiterals,propertyLiterals,
        FunctionLiteral.literals,declaratorLiterals,memberLiterals,caseLiterals,Statement.literals,
        statementLiterals,cons_append,nil_append,append_nil]

/-- All function literals of a program, each before the literals inside it. -/
def Program.literals (p : Program) : List FunctionLiteral := statementLiterals p.statements

end GradualJs
