import GradualJs.Json.Basic
import GradualJs.Syntax.Tree

/-! Programs as JSON. A structure becomes an object with all its fields, an absent
part becomes null, and an alternative becomes its tag, or an object with the tag as
its only key when it carries something. -/
namespace GradualJs

open Json (nat)

def Span.toJson (s : Span) : Json :=
  .object [("line",nat s.line),("column",nat s.column),("end_line",nat s.endLine), ("end_column",nat s.endColumn)]

def Json.tagged (tag : String) (payload : Json) : Json := .object [(tag,payload)]

def Json.optional (encode : α → Json) : Option α → Json
  | none => .null
  | some a => encode a

def Json.strings (texts : List String) : Json := .array (texts.map .string)

open Json (tagged strings)

def UnaryOperator.tag : UnaryOperator → String
  | .not => "not"
  | .negative => "negative"
  | .positive => "positive"
  | .bitNot => "bit_not"
  | .typeof => "typeof"
  | .void => "void"
  | .delete => "delete"

def UpdateOperator.tag : UpdateOperator → String
  | .increment => "increment"
  | .decrement => "decrement"

def LogicalOperator.tag : LogicalOperator → String
  | .and => "and"
  | .or => "or"

def BinaryOperator.tag : BinaryOperator → String
  | .add => "add"
  | .subtract => "subtract"
  | .multiply => "multiply"
  | .divide => "divide"
  | .modulo => "modulo"
  | .bitAnd => "bit_and"
  | .bitOr => "bit_or"
  | .bitXor => "bit_xor"
  | .shiftLeft => "shift_left"
  | .shiftRight => "shift_right"
  | .unsignedShiftRight => "unsigned_shift_right"
  | .less => "less"
  | .lessEqual => "less_equal"
  | .greater => "greater"
  | .greaterEqual => "greater_equal"
  | .equal => "equal"
  | .notEqual => "not_equal"
  | .strictEqual => "strict_equal"
  | .strictNotEqual => "strict_not_equal"
  | .instanceOf => "instanceof"
  | .isIn => "in"

def VarKind.tag : VarKind → String
  | .var => "var"
  | .letBinding => "let"
  | .constant => "const"

def MemberKind.tag : MemberKind → String
  | .constructor => "constructor"
  | .method => "method"
  | .staticMethod => "static_method"

def DeclarationKind.tag : DeclarationKind → String
  | .constructor => "constructor"
  | .interface => "interface"
  | .record => "record"

def AccessDiscipline.tag : AccessDiscipline → String
  | .struct => "struct"
  | .dict => "dict"
  | .unrestricted => "unrestricted"

mutual
def TypeExpr.toJson : TypeExpr → Json
  | ⟨kind,span⟩ => .object [("kind",kind.toJson),("span",span.toJson)]
def TypeExprKind.toJson : TypeExprKind → Json
  | .any => .string "any"
  | .unknown => .string "unknown"
  | .named name arguments =>
    tagged "named" (.object [("name",.string name),("arguments",.array (typeExprsToJson arguments))])
  | .nullable inner => tagged "nullable" inner.toJson
  | .nonNull inner => tagged "non_null" inner.toJson
  | .optional inner => tagged "optional" inner.toJson
  | .rest inner => tagged "rest" inner.toJson
  | .union members => tagged "union" (.array (typeExprsToJson members))
  | .record fields => tagged "record" (.array (recordFieldsToJson fields))
  | .function shape => tagged "function" shape.toJson
def typeExprsToJson : List TypeExpr → List Json
  | [] => []
  | first :: rest => first.toJson :: typeExprsToJson rest
def optionalTypeExprToJson : Option TypeExpr → Json
  | none => .null
  | some typeExpr => typeExpr.toJson
def recordFieldsToJson : List RecordField → List Json
  | [] => []
  | first :: rest => first.toJson :: recordFieldsToJson rest
def RecordField.toJson : RecordField → Json
  | ⟨name,typeExpr⟩ =>
    .object [("name",.string name),("annotation",optionalTypeExprToJson typeExpr)]
def FunctionTypeExpr.toJson : FunctionTypeExpr → Json
  | ⟨thisType,newType,parameters,returnType⟩ =>
    .object [("this_type",optionalTypeExprToJson thisType),("new_type",optionalTypeExprToJson newType),
      ("parameters",.array (typeExprsToJson parameters)),
      ("return_type",optionalTypeExprToJson returnType)]
end

def ParamTag.toJson (tag : ParamTag) : Json := .object [("name",.string tag.name),("annotation",tag.typeExpr.toJson)]

def JsDoc.toJson (doc : JsDoc) : Json :=
  .object [("type_annotation",Json.optional TypeExpr.toJson doc.declaredType),
    ("params",.array (doc.params.map ParamTag.toJson)),
    ("return_type",Json.optional TypeExpr.toJson doc.returnType),
    ("this_type",Json.optional TypeExpr.toJson doc.thisType),
    ("templates",strings doc.templates),
    ("kind",Json.optional (fun kind => .string (DeclarationKind.tag kind)) doc.kind),
    ("extends",.array (doc.supertypes.map TypeExpr.toJson)),
    ("implements",.array (doc.interfaces.map TypeExpr.toJson)),
    ("is_enum",.bool doc.isEnum),
    ("enum_type",Json.optional TypeExpr.toJson doc.enumType),
    ("typedef",Json.optional TypeExpr.toJson doc.typedefType),
    ("is_typedef",.bool doc.isTypedef),
    ("is_const",.bool doc.isConst),
    ("is_abstract",.bool doc.isAbstract),
    ("access",Json.optional (fun access => .string (AccessDiscipline.tag access)) doc.access),
    ("suppressions",strings doc.suppressions),
    ("span",doc.span.toJson)]

def optionalDocToJson (doc : Option JsDoc) : Json := Json.optional JsDoc.toJson doc
def Identifier.toJson (id : Identifier) : Json := .object [("name",.string id.name),("span",id.span.toJson)]

/-- A literal denotes a finite number; no other has a JSON form. -/
def Literal.toJson : Literal → Json
  | .number value => tagged "number" (.number (.real value))
  | .string value => tagged "string" (.string value)
  | .boolean value => tagged "boolean" (.bool value)
  | .null => .string "null"
  | .undefined => .string "undefined"

mutual
def Expression.toJson : Expression → Json
  | ⟨span,kind⟩ => .object [("span",span.toJson),("kind",kind.toJson)]
def ExpressionKind.toJson : ExpressionKind → Json
  | .literal value => tagged "literal" value.toJson
  | .identifier id => tagged "identifier" id.toJson
  | .this => .string "this"
  | .member object property propertySpan =>
    tagged "member" (.object [("object",object.toJson),("property",.string property),
      ("property_span",propertySpan.toJson)])
  | .index object key => tagged "index" (.object [("object",object.toJson),("index",key.toJson)])
  | .call callee arguments =>
    tagged "call" (.object [("callee",callee.toJson),("arguments",.array (expressionsToJson arguments))])
  | .new callee arguments =>
    tagged "new" (.object [("callee",callee.toJson),("arguments",.array (expressionsToJson arguments))])
  | .function literal => tagged "function" literal.toJson
  | .object properties => tagged "object" (.object [("properties",.array (propertiesToJson properties))])
  | .array elements => tagged "array" (.object [("elements",.array (expressionsToJson elements))])
  | .unary operator operand =>
    tagged "unary" (.object [("operator",.string operator.tag),("operand",operand.toJson)])
  | .update operator before target =>
    tagged "update" (.object [("operator",.string operator.tag),("prefix",.bool before), ("target",target.toJson)])
  | .binary operator left right =>
    tagged "binary" (.object [("operator",.string operator.tag),("left",left.toJson), ("right",right.toJson)])
  | .logical operator left right =>
    tagged "logical" (.object [("operator",.string operator.tag),("left",left.toJson), ("right",right.toJson)])
  | .conditional test consequent alternative =>
    tagged "conditional" (.object [("test",test.toJson),("consequent",consequent.toJson),
      ("alternative",alternative.toJson)])
  | .assignment operator target value =>
    tagged "assignment" (.object [
      ("operator",Json.optional (fun o => .string (BinaryOperator.tag o)) operator),
      ("target",target.toJson),("value",value.toJson)])
  | .cast typeExpr operand =>
    tagged "cast" (.object [("annotation",typeExpr.toJson),("expression",operand.toJson)])
def expressionsToJson : List Expression → List Json
  | [] => []
  | first :: rest => first.toJson :: expressionsToJson rest
def optionalExpressionToJson : Option Expression → Json
  | none => .null
  | some value => value.toJson
def propertiesToJson : List ObjectProperty → List Json
  | [] => []
  | first :: rest => first.toJson :: propertiesToJson rest
def ObjectProperty.toJson : ObjectProperty → Json
  | ⟨key,value,jsdoc,span⟩ =>
    .object [("key",.string key),("value",value.toJson),("jsdoc",optionalDocToJson jsdoc), ("span",span.toJson)]
def FunctionLiteral.toJson : FunctionLiteral → Json
  | ⟨id,name,parameters,body,jsdoc,isArrow,span⟩ =>
    .object [("id",nat id),("name",Json.optional .string name),
      ("parameters",.array (parameters.map Identifier.toJson)),("body",body.toJson),
      ("jsdoc",optionalDocToJson jsdoc),("is_arrow",.bool isArrow),("span",span.toJson)]
def Block.toJson : Block → Json
  | ⟨statements,span⟩ =>
    .object [("statements",.array (statementsToJson statements)),("span",span.toJson)]
def optionalBlockToJson : Option Block → Json
  | none => .null
  | some block => block.toJson
def declaratorsToJson : List Declarator → List Json
  | [] => []
  | first :: rest => first.toJson :: declaratorsToJson rest
def Declarator.toJson : Declarator → Json
  | ⟨name,jsdoc,initializer⟩ =>
    .object [("name",name.toJson),("jsdoc",optionalDocToJson jsdoc),
      ("initializer",optionalExpressionToJson initializer)]
def membersToJson : List ClassMember → List Json
  | [] => []
  | first :: rest => first.toJson :: membersToJson rest
def ClassMember.toJson : ClassMember → Json
  | ⟨name,kind,function⟩ =>
    .object [("name",.string name),("kind",.string kind.tag),("function",function.toJson)]
def ClassDeclaration.toJson : ClassDeclaration → Json
  | ⟨name,superclass,members,jsdoc,span⟩ =>
    .object [("name",name.toJson),("superclass",optionalExpressionToJson superclass),
      ("members",.array (membersToJson members)),("jsdoc",optionalDocToJson jsdoc),
      ("span",span.toJson)]
def CatchClause.toJson : CatchClause → Json
  | ⟨parameter,body⟩ =>
    .object [("parameter",Json.optional Identifier.toJson parameter),("body",body.toJson)]
def optionalHandlerToJson : Option CatchClause → Json
  | none => .null
  | some handler => handler.toJson
def casesToJson : List SwitchCase → List Json
  | [] => []
  | first :: rest => first.toJson :: casesToJson rest
def SwitchCase.toJson : SwitchCase → Json
  | ⟨test,body⟩ =>
    .object [("test",optionalExpressionToJson test),("body",.array (statementsToJson body))]
def statementsToJson : List Statement → List Json
  | [] => []
  | first :: rest => first.toJson :: statementsToJson rest
def optionalStatementToJson : Option Statement → Json
  | none => .null
  | some statement => statement.toJson
def Statement.toJson : Statement → Json
  | .var kind declarators jsdoc span =>
    tagged "var" (.object [("kind",.string kind.tag),
      ("declarations",.array (declaratorsToJson declarators)),("jsdoc",optionalDocToJson jsdoc),
      ("span",span.toJson)])
  | .function name literal =>
    tagged "function" (.object [("name",name.toJson),("function",literal.toJson)])
  | .classDecl declaration => tagged "class" declaration.toJson
  | .expression value jsdoc =>
    tagged "expression" (.object [("expression",value.toJson),("jsdoc",optionalDocToJson jsdoc)])
  | .returnStmt value span =>
    tagged "return" (.object [("span",span.toJson),("expression",optionalExpressionToJson value)])
  | .ifStmt condition consequent alternative span =>
    tagged "if" (.object [("condition",condition.toJson),("consequent",consequent.toJson),
      ("alternative",optionalStatementToJson alternative),("span",span.toJson)])
  | .whileLoop condition body span =>
    tagged "while" (.object [("condition",condition.toJson),("body",body.toJson),("span",span.toJson)])
  | .doWhile body condition span =>
    tagged "do_while" (.object [("body",body.toJson),("condition",condition.toJson), ("span",span.toJson)])
  | .forLoop start condition update body span =>
    tagged "for" (.object [("init",optionalStatementToJson start),
      ("condition",optionalExpressionToJson condition),("update",optionalExpressionToJson update),
      ("body",body.toJson),("span",span.toJson)])
  | .forIn key declaration object body span =>
    tagged "for_in" (.object [("variable",key.toJson),
      ("declaration",Json.optional (fun kind => .string (VarKind.tag kind)) declaration),
      ("object",object.toJson),("body",body.toJson),("span",span.toJson)])
  | .block body => tagged "block" body.toJson
  | .breakStmt span => tagged "break" span.toJson
  | .continueStmt span => tagged "continue" span.toJson
  | .throwStmt value span =>
    tagged "throw" (.object [("expression",value.toJson),("span",span.toJson)])
  | .tryStmt body handler finalizer span =>
    tagged "try" (.object [("block",body.toJson),("handler",optionalHandlerToJson handler),
      ("finalizer",optionalBlockToJson finalizer),("span",span.toJson)])
  | .switch discriminant cases span =>
    tagged "switch" (.object [("discriminant",discriminant.toJson),("cases",.array (casesToJson cases)),
      ("span",span.toJson)])
  | .empty span => tagged "empty" span.toJson
end

def Program.toJson (p : Program) : Json := .object [("statements",.array (statementsToJson p.statements))]

end GradualJs
