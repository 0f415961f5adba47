import GradualJs.Diagnostic
import GradualJs.Registry.Basic
import GradualJs.Syntax.Tree

/-! Places in a program where something is declared. Names are registered first, so that
type expressions may mention types declared later; what the places say about the types
is resolved once all names are known. -/
namespace GradualJs

inductive NominalSource where
  | function (literal : FunctionLiteral)
  | classDecl (declaration : ClassDeclaration)

structure NominalSite where
  id : NominalId
  jsdoc : Option JsDoc
  source : NominalSource
  explicitAccess : Bool

structure EnumSite where
  id : EnumId
  jsdoc : JsDoc
  initializer : Option Expression
  externs : Bool
  span : Span

inductive MemberValue where
  | stub
  | expression (value : Expression)
  | function (literal : FunctionLiteral)

structure MemberSite where
  owner : String
  ofInstances : Bool
  name : String
  jsdoc : Option JsDoc
  value : MemberValue
  /-- The constructor whose formals may give the value its type. -/
  constructor : Option Nat := none
  externs : Bool
  span : Span

inductive GlobalValue where
  | function (literal : FunctionLiteral)
  | binding (kind : VarKind) (initializer : Option Expression)

structure GlobalSite where
  name : String
  jsdoc : Option JsDoc
  value : GlobalValue
  externs : Bool
  span : Span

structure Collection where
  registry : Registry := .initial
  diagnostics : List Diagnostic := []
  nominals : List NominalSite := []
  enums : List EnumSite := []
  typedefs : List (TypedefId × Bool) := []
  members : List MemberSite := []
  globals : List GlobalSite := []
  methodOwners : Table Nat NominalId := {}
  constructors : Table Nat NominalId := {}

namespace Collection

def report (c : Collection) (kind : DiagnosticKind) (message : String) (span : Span) : Collection :=
  {c with diagnostics := c.diagnostics ++ [.report kind message span]}

def addMember (c : Collection) (site : MemberSite) : Collection := {c with members := c.members ++ [site]}
def addGlobal (c : Collection) (site : GlobalSite) : Collection := {c with globals := c.globals ++ [site]}

end Collection
end GradualJs
