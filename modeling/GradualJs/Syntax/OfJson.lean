import GradualJs.Json.Decode
import GradualJs.Syntax.Tree

/-! Programs out of JSON. The decoders of nested syntax take the number of levels
they may descend; the height of the JSON value is always enough. -/
namespace GradualJs

open Json (Fields Form structure? inlineStructure? alternative? tag? listOf strings? nat? float? string? bool?)

def Span.ofJson? (j : Json) : Option Span := do
  let fields ← structure? ["line", "column", "end_line", "end_column"] j
  return {
    line := ← fields.required "line" nat?
    column := ← fields.required "column" nat?
    endLine := ← fields.required "end_line" nat?
    endColumn := ← fields.required "end_column" nat? }

def UnaryOperator.ofTag? : String → Option UnaryOperator
  | "not" => some .not
  | "negative" => some .negative
  | "positive" => some .positive
  | "bit_not" => some .bitNot
  | "typeof" => some .typeof
  | "void" => some .void
  | "delete" => some .delete
  | _ => none

def UpdateOperator.ofTag? : String → Option UpdateOperator
  | "increment" => some .increment
  | "decrement" => some .decrement
  | _ => none

def LogicalOperator.ofTag? : String → Option LogicalOperator
  | "and" => some .and
  | "or" => some .or
  | _ => none

def BinaryOperator.ofTag? : String → Option BinaryOperator
  | "add" => some .add
  | "subtract" => some .subtract
  | "multiply" => some .multiply
  | "divide" => some .divide
  | "modulo" => some .modulo
  | "bit_and" => some .bitAnd
  | "bit_or" => some .bitOr
  | "bit_xor" => some .bitXor
  | "shift_left" => some .shiftLeft
  | "shift_right" => some .shiftRight
  | "unsigned_shift_right" => some .unsignedShiftRight
  | "less" => some .less
  | "less_equal" => some .lessEqual
  | "greater" => some .greater
  | "greater_equal" => some .greaterEqual
  | "equal" => some .equal
  | "not_equal" => some .notEqual
  | "strict_equal" => some .strictEqual
  | "strict_not_equal" => some .strictNotEqual
  | "instanceof" => some .instanceOf
  | "in" => some .isIn
  | _ => none

def VarKind.ofTag? : String → Option VarKind
  | "var" => some .var
  | "let" => some .letBinding
  | "const" => some .constant
  | _ => none

def MemberKind.ofTag? : String → Option MemberKind
  | "constructor" => some .constructor
  | "method" => some .method
  | "static_method" => some .staticMethod
  | _ => none

def DeclarationKind.ofTag? : String → Option DeclarationKind
  | "constructor" => some .constructor
  | "interface" => some .interface
  | "record" => some .record
  | _ => none

def AccessDiscipline.ofTag? : String → Option AccessDiscipline
  | "struct" => some .struct
  | "dict" => some .dict
  | "unrestricted" => some .unrestricted
  | _ => none

def UnaryOperator.ofJson? (j : Json) : Option UnaryOperator := (tag? j).bind ofTag?
def UpdateOperator.ofJson? (j : Json) : Option UpdateOperator := (tag? j).bind ofTag?
def LogicalOperator.ofJson? (j : Json) : Option LogicalOperator := (tag? j).bind ofTag?
def BinaryOperator.ofJson? (j : Json) : Option BinaryOperator := (tag? j).bind ofTag?
def VarKind.ofJson? (j : Json) : Option VarKind := (tag? j).bind ofTag?
def MemberKind.ofJson? (j : Json) : Option MemberKind := (tag? j).bind ofTag?
def DeclarationKind.ofJson? (j : Json) : Option DeclarationKind := (tag? j).bind ofTag?
def AccessDiscipline.ofJson? (j : Json) : Option AccessDiscipline := (tag? j).bind ofTag?

namespace Decode

variable (form : Form)

mutual
def typeExpr (levels : Nat) (j : Json) : Option TypeExpr :=
  match levels with
  | 0 => none
  | levels + 1 => do
    let fields ← structure? ["kind", "span"] j
    return {
      kind := ← fields.required "kind" (typeExprKind levels)
      span := ← fields.defaulted "span" Span.ofJson? {} }

def typeExprKind (levels : Nat) (j : Json) : Option TypeExprKind :=
  match levels with
  | 0 => none
  | levels + 1 =>
    match alternative? j with
    | some ("any",none) | some ("any",some .null) => some .any
    | some ("unknown",none) | some ("unknown",some .null) => some .unknown
    | some ("named",some payload) => do
      let fields ← inlineStructure? form ["name", "arguments"] payload
      return .named (← fields.required "name" string?) (← fields.defaulted "arguments" (listOf (typeExpr levels)) [])
    | some ("nullable",some payload) => (typeExpr levels payload).map .nullable
    | some ("non_null",some payload) => (typeExpr levels payload).map .nonNull
    | some ("optional",some payload) => (typeExpr levels payload).map .optional
    | some ("rest",some payload) => (typeExpr levels payload).map .rest
    | some ("union",some payload) => (listOf (typeExpr levels) payload).map .union
    | some ("record",some payload) => (listOf (recordField levels) payload).map .record
    | some ("function",some payload) => (functionTypeExpr levels payload).map .function
    | _ => none

def recordField (levels : Nat) (j : Json) : Option RecordField :=
  match levels with
  | 0 => none
  | levels + 1 => do
    let fields ← structure? ["name", "annotation"] j
    return {
      name := ← fields.required "name" string?
      typeExpr := ← fields.optional "annotation" (typeExpr levels) }

def functionTypeExpr (levels : Nat) (j : Json) : Option FunctionTypeExpr :=
  match levels with
  | 0 => none
  | levels + 1 => do
    let fields ← structure? ["this_type", "new_type", "parameters", "return_type"] j
    return {
      thisType := ← fields.optional "this_type" (typeExpr levels)
      newType := ← fields.optional "new_type" (typeExpr levels)
      parameters := ← fields.required "parameters" (listOf (typeExpr levels))
      returnType := ← fields.optional "return_type" (typeExpr levels) }
end

def paramTag (levels : Nat) (j : Json) : Option ParamTag := do
  let fields ← structure? ["name", "annotation"] j
  return {
    name := ← fields.required "name" string?
    typeExpr := ← fields.required "annotation" (typeExpr form levels) }

def docFields : List String :=
  ["type_annotation", "params", "return_type", "this_type", "templates", "kind", "extends",
    "implements", "is_enum", "enum_type", "typedef", "is_typedef", "is_const", "is_abstract",
    "access", "suppressions", "span"]

def doc (levels : Nat) (j : Json) : Option JsDoc := do
  let fields ← structure? docFields j
  return {
    declaredType := ← fields.optional "type_annotation" (typeExpr form levels)
    params := ← fields.defaulted "params" (listOf (paramTag form levels)) []
    returnType := ← fields.optional "return_type" (typeExpr form levels)
    thisType := ← fields.optional "this_type" (typeExpr form levels)
    templates := ← fields.defaulted "templates" strings? []
    kind := ← fields.optional "kind" DeclarationKind.ofJson?
    supertypes := ← fields.defaulted "extends" (listOf (typeExpr form levels)) []
    interfaces := ← fields.defaulted "implements" (listOf (typeExpr form levels)) []
    isEnum := ← fields.defaulted "is_enum" bool? false
    enumType := ← fields.optional "enum_type" (typeExpr form levels)
    typedefType := ← fields.optional "typedef" (typeExpr form levels)
    isTypedef := ← fields.defaulted "is_typedef" bool? false
    isConst := ← fields.defaulted "is_const" bool? false
    isAbstract := ← fields.defaulted "is_abstract" bool? false
    access := ← fields.optional "access" AccessDiscipline.ofJson?
    suppressions := ← fields.defaulted "suppressions" strings? []
    span := ← fields.defaulted "span" Span.ofJson? {} }

def identifier (j : Json) : Option Identifier := do
  let fields ← structure? ["name", "span"] j
  return {
    name := ← fields.required "name" string?
    span := ← fields.defaulted "span" Span.ofJson? {} }

def literal (j : Json) : Option Literal :=
  match alternative? j with
  | some ("number",some payload) => (float? payload).map .number
  | some ("string",some payload) => (string? payload).map .string
  | some ("boolean",some payload) => (bool? payload).map .boolean
  | some ("null",none) | some ("null",some .null) => some .null
  | some ("undefined",none) | some ("undefined",some .null) => some .undefined
  | _ => none

mutual
def expression (levels : Nat) (j : Json) : Option Expression :=
  match levels with
  | 0 => none
  | levels + 1 => do
    let fields ← structure? ["span", "kind"] j
    return {
      span := ← fields.defaulted "span" Span.ofJson? {}
      kind := ← fields.required "kind" (expressionKind levels) }

def expressionKind (levels : Nat) (j : Json) : Option ExpressionKind :=
  match levels with
  | 0 => none
  | levels + 1 =>
    match alternative? j with
    | some ("literal",some payload) => (literal payload).map .literal
    | some ("identifier",some payload) => (identifier payload).map .identifier
    | some ("this",none) | some ("this",some .null) => some .this
    | some ("member",some payload) => do
      let fields ← structure? ["object", "property", "property_span"] payload
      return .member (← fields.required "object" (expression levels)) (← fields.required "property" string?)
        (← fields.defaulted "property_span" Span.ofJson? {})
    | some ("index",some payload) => do
      let fields ← structure? ["object", "index"] payload
      return .index (← fields.required "object" (expression levels)) (← fields.required "index" (expression levels))
    | some ("call",some payload) => do
      let fields ← structure? ["callee", "arguments"] payload
      return .call (← fields.required "callee" (expression levels))
        (← fields.required "arguments" (listOf (expression levels)))
    | some ("new",some payload) => do
      let fields ← structure? ["callee", "arguments"] payload
      return .new (← fields.required "callee" (expression levels))
        (← fields.required "arguments" (listOf (expression levels)))
    | some ("function",some payload) => (functionLiteral levels payload).map .function
    | some ("object",some payload) => do
      let fields ← structure? ["properties"] payload
      return .object (← fields.required "properties" (listOf (objectProperty levels)))
    | some ("array",some payload) => do
      let fields ← structure? ["elements"] payload
      return .array (← fields.required "elements" (listOf (expression levels)))
    | some ("unary",some payload) => do
      let fields ← structure? ["operator", "operand"] payload
      return .unary (← fields.required "operator" UnaryOperator.ofJson?)
        (← fields.required "operand" (expression levels))
    | some ("update",some payload) => do
      let fields ← structure? ["operator", "prefix", "target"] payload
      return .update (← fields.required "operator" UpdateOperator.ofJson?)
        (← fields.required "prefix" bool?) (← fields.required "target" (expression levels))
    | some ("binary",some payload) => do
      let fields ← structure? ["operator", "left", "right"] payload
      return .binary (← fields.required "operator" BinaryOperator.ofJson?)
        (← fields.required "left" (expression levels)) (← fields.required "right" (expression levels))
    | some ("logical",some payload) => do
      let fields ← structure? ["operator", "left", "right"] payload
      return .logical (← fields.required "operator" LogicalOperator.ofJson?)
        (← fields.required "left" (expression levels)) (← fields.required "right" (expression levels))
    | some ("conditional",some payload) => do
      let fields ← structure? ["test", "consequent", "alternative"] payload
      return .conditional (← fields.required "test" (expression levels))
        (← fields.required "consequent" (expression levels))
        (← fields.required "alternative" (expression levels))
    | some ("assignment",some payload) => do
      let fields ← structure? ["operator", "target", "value"] payload
      return .assignment (← fields.optional "operator" BinaryOperator.ofJson?)
        (← fields.required "target" (expression levels)) (← fields.required "value" (expression levels))
    | some ("cast",some payload) => do
      let fields ← structure? ["annotation", "expression"] payload
      return .cast (← fields.required "annotation" (typeExpr form levels))
        (← fields.required "expression" (expression levels))
    | _ => none

def objectProperty (levels : Nat) (j : Json) : Option ObjectProperty :=
  match levels with
  | 0 => none
  | levels + 1 => do
    let fields ← structure? ["key", "value", "jsdoc", "span"] j
    return {
      key := ← fields.required "key" string?
      value := ← fields.required "value" (expression levels)
      jsdoc := ← fields.optional "jsdoc" (doc form levels)
      span := ← fields.defaulted "span" Span.ofJson? {} }

def functionLiteral (levels : Nat) (j : Json) : Option FunctionLiteral :=
  match levels with
  | 0 => none
  | levels + 1 => do
    let fields ← structure? ["id", "name", "parameters", "body", "jsdoc", "is_arrow", "span"] j
    return {
      id := ← fields.required "id" nat?
      name := ← fields.optional "name" string?
      parameters := ← fields.required "parameters" (listOf identifier)
      body := ← fields.required "body" (block levels)
      jsdoc := ← fields.optional "jsdoc" (doc form levels)
      isArrow := ← fields.defaulted "is_arrow" bool? false
      span := ← fields.defaulted "span" Span.ofJson? {} }

def block (levels : Nat) (j : Json) : Option Block :=
  match levels with
  | 0 => none
  | levels + 1 => do
    let fields ← structure? ["statements", "span"] j
    return {
      statements := ← fields.required "statements" (listOf (statement levels))
      span := ← fields.defaulted "span" Span.ofJson? {} }

def declarator (levels : Nat) (j : Json) : Option Declarator :=
  match levels with
  | 0 => none
  | levels + 1 => do
    let fields ← structure? ["name", "jsdoc", "initializer"] j
    return {
      name := ← fields.required "name" identifier
      jsdoc := ← fields.optional "jsdoc" (doc form levels)
      initializer := ← fields.optional "initializer" (expression levels) }

def classMember (levels : Nat) (j : Json) : Option ClassMember :=
  match levels with
  | 0 => none
  | levels + 1 => do
    let fields ← structure? ["name", "kind", "function"] j
    return {
      name := ← fields.required "name" string?
      kind := ← fields.required "kind" MemberKind.ofJson?
      function := ← fields.required "function" (functionLiteral levels) }

def classDeclaration (levels : Nat) (j : Json) : Option ClassDeclaration :=
  match levels with
  | 0 => none
  | levels + 1 => do
    let fields ← structure? ["name", "superclass", "members", "jsdoc", "span"] j
    return {
      name := ← fields.required "name" identifier
      superclass := ← fields.optional "superclass" (expression levels)
      members := ← fields.required "members" (listOf (classMember levels))
      jsdoc := ← fields.optional "jsdoc" (doc form levels)
      span := ← fields.defaulted "span" Span.ofJson? {} }

def catchClause (levels : Nat) (j : Json) : Option CatchClause :=
  match levels with
  | 0 => none
  | levels + 1 => do
    let fields ← structure? ["parameter", "body"] j
    return {
      parameter := ← fields.optional "parameter" identifier
      body := ← fields.required "body" (block levels) }

def switchCase (levels : Nat) (j : Json) : Option SwitchCase :=
  match levels with
  | 0 => none
  | levels + 1 => do
    let fields ← structure? ["test", "body"] j
    return {
      test := ← fields.optional "test" (expression levels)
      body := ← fields.required "body" (listOf (statement levels)) }

def statement (levels : Nat) (j : Json) : Option Statement :=
  match levels with
  | 0 => none
  | levels + 1 =>
    match alternative? j with
    | some ("var",some payload) => do
      let fields ← structure? ["kind", "declarations", "jsdoc", "span"] payload
      return .var (← fields.required "kind" VarKind.ofJson?)
        (← fields.required "declarations" (listOf (declarator levels)))
        (← fields.optional "jsdoc" (doc form levels)) (← fields.defaulted "span" Span.ofJson? {})
    | some ("function",some payload) => do
      let fields ← structure? ["name", "function"] payload
      return .function (← fields.required "name" identifier) (← fields.required "function" (functionLiteral levels))
    | some ("class",some payload) => (classDeclaration levels payload).map .classDecl
    | some ("expression",some payload) => do
      let fields ← structure? ["expression", "jsdoc"] payload
      return .expression (← fields.required "expression" (expression levels))
        (← fields.optional "jsdoc" (doc form levels))
    | some ("return",some payload) => do
      let fields ← structure? ["span", "expression"] payload
      let span ← fields.defaulted "span" Span.ofJson? {}
      return .returnStmt (← fields.optional "expression" (expression levels)) span
    | some ("if",some payload) => do
      let fields ← structure? ["condition", "consequent", "alternative", "span"] payload
      return .ifStmt (← fields.required "condition" (expression levels))
        (← fields.required "consequent" (statement levels))
        (← fields.optional "alternative" (statement levels))
        (← fields.defaulted "span" Span.ofJson? {})
    | some ("while",some payload) => do
      let fields ← structure? ["condition", "body", "span"] payload
      return .whileLoop (← fields.required "condition" (expression levels))
        (← fields.required "body" (statement levels)) (← fields.defaulted "span" Span.ofJson? {})
    | some ("do_while",some payload) => do
      let fields ← structure? ["body", "condition", "span"] payload
      return .doWhile (← fields.required "body" (statement levels))
        (← fields.required "condition" (expression levels)) (← fields.defaulted "span" Span.ofJson? {})
    | some ("for",some payload) => do
      let fields ← structure? ["init", "condition", "update", "body", "span"] payload
      return .forLoop (← fields.optional "init" (statement levels)) (← fields.optional "condition" (expression levels))
        (← fields.optional "update" (expression levels))
        (← fields.required "body" (statement levels)) (← fields.defaulted "span" Span.ofJson? {})
    | some ("for_in",some payload) => do
      let fields ← structure? ["variable", "declaration", "object", "body", "span"] payload
      return .forIn (← fields.required "variable" identifier) (← fields.optional "declaration" VarKind.ofJson?)
        (← fields.required "object" (expression levels))
        (← fields.required "body" (statement levels)) (← fields.defaulted "span" Span.ofJson? {})
    | some ("block",some payload) => (block levels payload).map .block
    | some ("break",some payload) => (Span.ofJson? payload).map .breakStmt
    | some ("continue",some payload) => (Span.ofJson? payload).map .continueStmt
    | some ("throw",some payload) => do
      let fields ← structure? ["expression", "span"] payload
      return .throwStmt (← fields.required "expression" (expression levels)) (← fields.defaulted "span" Span.ofJson? {})
    | some ("try",some payload) => do
      let fields ← structure? ["block", "handler", "finalizer", "span"] payload
      return .tryStmt (← fields.required "block" (block levels)) (← fields.optional "handler" (catchClause levels))
        (← fields.optional "finalizer" (block levels)) (← fields.defaulted "span" Span.ofJson? {})
    | some ("switch",some payload) => do
      let fields ← structure? ["discriminant", "cases", "span"] payload
      return .switch (← fields.required "discriminant" (expression levels))
        (← fields.required "cases" (listOf (switchCase levels)))
        (← fields.defaulted "span" Span.ofJson? {})
    | some ("empty",some payload) => (Span.ofJson? payload).map .empty
    | _ => none
end

def program (levels : Nat) (j : Json) : Option Program := do
  let fields ← structure? ["statements"] j
  return ⟨← fields.required "statements" (listOf (statement form levels))⟩

end Decode

def TypeExpr.ofJson? (j : Json) : Option TypeExpr := Decode.typeExpr .value (j.height + 1) j
def JsDoc.ofJson? (j : Json) : Option JsDoc := Decode.doc .value (j.height + 1) j
def Expression.ofJson? (j : Json) : Option Expression := Decode.expression .value (j.height + 1) j
def Statement.ofJson? (j : Json) : Option Statement := Decode.statement .value (j.height + 1) j
def Program.ofJson? (j : Json) : Option Program := Decode.program .value (j.height + 1) j
def Program.ofParsed? (j : Json) : Option Program := Decode.program .text (j.height + 1) j

end GradualJs
