import GradualJs.Syntax.Build
import GradualJs.Syntax.OfJson

/-! Sketches: programs written down in brief. A node is an array of a tag and its parts, as
in `["call", ["id", "f"], [["num", 1]]]`, and a part left out at the end counts as null.
A list of nodes may be null when it is empty; a list of properties, record fields or cases
may not. The parts are built before the node, from left to right, which settles the lines
and the numbers that the builder hands out; an operator is looked at last. A node that is
written in full stands behind the tag `raw`. -/
namespace GradualJs

inductive SketchError where
  | malformed
  /-- A node behind `raw`, an operator or an access discipline that is none. -/
  | unreadable
  | numbersExhausted
  deriving DecidableEq

abbrev Sketch := StateT BuildState (Except SketchError)

namespace Sketch

def orMalformed : Option α → Except SketchError α
  | some a => .ok a
  | none => .error .malformed

def orUnreadable : Option α → Except SketchError α
  | some a => .ok a
  | none => .error .unreadable

def build (b : Build α) : Sketch α := fun state =>
  match b.run state with
  | .ok made => .ok made
  | .error .numbersExhausted => .error .numbersExhausted

def field (j : Json) (name : String) : Json :=
  match j with
  | .object fields => (Json.findField fields name).getD .null
  | _ => .null

def optionalPart {m : Type → Type} [Monad m] (read : Json → m α) (j : Json) : m (Option α) :=
  match j with
  | .null => pure none
  | j => some <$> read j

def requiredList {m : Type → Type} [Monad m] [MonadExcept SketchError m] (read : Json → m α) (j : Json) : m (List α) :=
  match j with
  | .array items => items.mapM read
  | _ => throw .malformed

def listPart {m : Type → Type} [Monad m] [MonadExcept SketchError m] (read : Json → m α) (j : Json) : m (List α) :=
  match j with
  | .null => pure []
  | j => requiredList read j

def text (j : Json) : Except SketchError String := orMalformed j.string?
def texts (j : Json) : Except SketchError (List String) := listPart text j
def truth (j : Json) : Bool := j.bool?.getD false
def isSet (j : Json) (name : String) : Bool := truth (field j name)

def parts (j : Json) : Except SketchError (Nat → Json) :=
  match j with
  | .array items => .ok fun n => (items[n]?).getD .null
  | _ => .error .malformed

def node (j : Json) : Except SketchError (String × (Nat → Json)) := do
  let part ← parts j
  return (← text (part 0),fun n => part (n + 1))

def named (read : Json → Except SketchError α) (j : Json) : Except SketchError (String × α) :=
  match j with
  | .array [name,value] => do return (← text name,← read value)
  | _ => .error .malformed

def typeExpr : Nat → Json → Except SketchError TypeExpr
  | 0, _ => .error .malformed
  | _ + 1, .string "*" => .ok ⟨.any,{}⟩
  | _ + 1, .string "?" => .ok ⟨.unknown,{}⟩
  | _ + 1, .string name => .ok (.named name [])
  | levels + 1, j => do
    let (tag,part) ← node j
    let sub (n : Nat) : Except SketchError TypeExpr := typeExpr levels (part n)
    match tag with
    | "generic" => return .named (← text (part 0)) (← listPart (typeExpr levels) (part 1))
    | "nullable" => return ⟨.nullable (← sub 0),{}⟩
    | "nonnull" => return ⟨.nonNull (← sub 0),{}⟩
    | "optional" => return ⟨.optional (← sub 0),{}⟩
    | "rest" => return ⟨.rest (← sub 0),{}⟩
    | "union" => return ⟨.union (← listPart (typeExpr levels) (part 0)),{}⟩
    | "record" =>
      let fields ← requiredList (named (typeExpr levels)) (part 0)
      return ⟨.record (fields.map fun (name,e) => ⟨name,some e⟩),{}⟩
    | "function" =>
      let parameters ← listPart (typeExpr levels) (part 0)
      return ⟨.function ⟨none,none,parameters,← optionalPart (typeExpr levels) (part 1)⟩,{}⟩
    | "raw" => orUnreadable (TypeExpr.ofJson? (part 0))
    | _ => throw .malformed

def wholeTypeExpr (j : Json) : Except SketchError TypeExpr := typeExpr (j.height + 1) j

def doc (j : Json) : Except SketchError JsDoc := do
  if j.fields?.isNone then throw .malformed
  if !(field j "raw").isNull then return ← orUnreadable (JsDoc.ofJson? (field j "raw"))
  let one (name : String) : Except SketchError (Option TypeExpr) := optionalPart wholeTypeExpr (field j name)
  let many (name : String) : Except SketchError (List TypeExpr) := listPart wholeTypeExpr (field j name)
  let declaredType ← one "type"
  let params ← listPart (named wholeTypeExpr) (field j "params")
  let returnType ← one "returns"
  let thisType ← one "this"
  let templates ← texts (field j "templates")
  let kind ← optionalPart (fun tag => orMalformed (tag.string?.bind DeclarationKind.ofTag?)) (field j "kind")
  let supertypes ← many "extends"
  let interfaces ← many "implements"
  let enumType ← one "enum"
  let typedefType ← one "typedef"
  let access ← optionalPart (fun tag => orUnreadable (AccessDiscipline.ofJson? tag)) (field j "access")
  let suppressions ← texts (field j "suppress")
  let plain : JsDoc := {
    declaredType
    params := params.map fun (name,e) => ⟨name,e⟩
    returnType
    thisType
    templates
    kind
    supertypes
    interfaces
    isConst := isSet j "const"
    isAbstract := isSet j "abstract"
    access
    suppressions }
  let withEnum := enumType.elim plain plain.withEnum
  return typedefType.elim withEnum withEnum.withTypedef

def optionalDoc (j : Json) : Except SketchError (Option JsDoc) := optionalPart doc j

mutual
def expression : Nat → Json → Sketch Expression
  | 0, _ => throw .malformed
  | levels + 1, j => do
    let (tag,part) ← node j
    let sub (n : Nat) : Sketch Expression := expression levels (part n)
    let many (n : Nat) : Sketch (List Expression) := listPart (expression levels) (part n)
    let body (n : Nat) : Sketch (List Statement) := listPart (statement levels) (part n)
    match tag with
    | "num" => build (.literal (.number (← orMalformed (part 0).float?)))
    | "str" => build (.literal (.string (← text (part 0))))
    | "bool" => build (.literal (.boolean (truth (part 0))))
    | "null" => build (.literal .null)
    | "undef" => build (.literal .undefined)
    | "id" => build (.ident (← text (part 0)))
    | "this" => build .this
    | "member" => build (.member (← sub 0) (← text (part 1)))
    | "path" => build (.path (← text (part 0)))
    | "index" => build (.index (← sub 0) (← sub 1))
    | "call" => build (.call (← sub 0) (← many 1))
    | "new" => build (.new (← sub 0) (← many 1))
    | "fn" => build (.function none (← texts (part 0)) (← body 1))
    | "fn_doc" => build (.function (some (← doc (part 0))) (← texts (part 1)) (← body 2))
    | "arrow" => build (.arrow (← texts (part 0)) (← body 1))
    | "object" =>
      let property (j : Json) : Sketch (String × Option JsDoc × Expression) := match j with
        | .array [key,value] => do return (← text key,none,← expression levels value)
        | _ => throw .malformed
      build (.object (← requiredList property (part 0)))
    | "object_doc" =>
      let property (j : Json) : Sketch (String × Option JsDoc × Expression) := match j with
        | .array [key,jsdoc,value] => do
          return (← text key,← optionalDoc jsdoc,← expression levels value)
        | _ => throw .malformed
      build (.object (← requiredList property (part 0)))
    | "array" => build (.array (← many 0))
    | "unary" =>
      let operand ← sub 1
      build (.unary (← orUnreadable (UnaryOperator.ofJson? (part 0))) operand)
    | "not" => build (.unary .not (← sub 0))
    | "typeof" => build (.unary .typeof (← sub 0))
    | "inc" => build (.increment (← sub 0))
    | "binary" =>
      let (left,right) := (← sub 1,← sub 2)
      build (.binary (← orUnreadable (BinaryOperator.ofJson? (part 0))) left right)
    | "logical" =>
      let (left,right) := (← sub 1,← sub 2)
      build (.logical (← orUnreadable (LogicalOperator.ofJson? (part 0))) left right)
    | "and" => build (.logical .and (← sub 0) (← sub 1))
    | "or" => build (.logical .or (← sub 0) (← sub 1))
    | "cond" => build (.conditional (← sub 0) (← sub 1) (← sub 2))
    | "assign" => build (.assign none (← sub 0) (← sub 1))
    | "compound" =>
      let (target,value) := (← sub 1,← sub 2)
      build (.assign (some (← orUnreadable (BinaryOperator.ofJson? (part 0)))) target value)
    | "cast" => build (.cast (← wholeTypeExpr (part 0)) (← sub 1))
    | "raw" => orUnreadable (Expression.ofJson? (part 0))
    | _ => throw .malformed

def statement : Nat → Json → Sketch Statement
  | 0, _ => throw .malformed
  | levels + 1, j => do
    let (tag,part) ← node j
    let sub (n : Nat) : Sketch Expression := expression levels (part n)
    let optionalSub (n : Nat) : Sketch (Option Expression) := optionalPart (expression levels) (part n)
    let body (n : Nat) : Sketch (List Statement) := listPart (statement levels) (part n)
    let optionalBody (n : Nat) : Sketch (Option (List Statement)) := optionalPart (listPart (statement levels)) (part n)
    match tag with
    | "var" => build (.declare .var none (← text (part 0)) (← optionalSub 1))
    | "var_doc" =>
      build (.declare .var (some (← doc (part 0))) (← text (part 1)) (← optionalSub 2))
    | "let" => build (.declare .letBinding none (← text (part 0)) (← optionalSub 1))
    | "const" => build (.declare .constant none (← text (part 0)) (some (← sub 1)))
    | "function" =>
      build (.functionDeclaration none (← text (part 0)) (← texts (part 1)) (← body 2))
    | "function_doc" =>
      build (.functionDeclaration (some (← doc (part 0))) (← text (part 1)) (← texts (part 2)) (← body 3))
    | "expr" => return Build.expressionStatement none (← sub 0)
    | "expr_doc" => return Build.expressionStatement (some (← doc (part 0))) (← sub 1)
    | "ret" => build (.returnValue (← optionalSub 0))
    | "if" => build (.branch (← sub 0) (← body 1) (← optionalBody 2))
    | "while" => build (.whileLoop (← sub 0) (← body 1))
    | "do" => build (.doWhile (← body 0) (← sub 1))
    | "for" =>
      let start ← optionalPart (statement levels) (part 0)
      build (.forLoop start (← optionalSub 1) (← optionalSub 2) (← body 3))
    | "for_in" => build (.forIn (← text (part 0)) (← sub 1) (← body 2))
    | "block" => build (.block (← body 0))
    | "break" => build .breakLoop
    | "continue" => build .continueLoop
    | "throw" => build (.throwValue (← sub 0))
    | "try" =>
      let clause (j : Json) : Sketch (Option String × List Statement) := do
        let part ← parts j
        let parameter ← (optionalPart text (part 0) : Except SketchError (Option String))
        return (parameter,← listPart (statement levels) (part 1))
      build (.tryBlock (← body 0) (← optionalPart clause (part 1)) (← optionalBody 2))
    | "switch" =>
      let switchCase (j : Json) : Sketch SwitchCase := do
        let part ← parts j
        let test ← optionalPart (expression levels) (part 0)
        return ⟨test,← listPart (statement levels) (part 1)⟩
      build (.switch (← sub 0) (← requiredList switchCase (part 1)))
    | "class" =>
      let member (j : Json) : Sketch ClassMember := do
        let (tag,part) ← node j
        let jsdoc ← optionalDoc (part 0)
        let body (n : Nat) : Sketch (List Statement) := listPart (statement levels) (part n)
        match tag with
        | "constructor" =>
          build (.classMember .constructor "constructor" jsdoc (← texts (part 1)) (← body 2))
        | "method" =>
          build (.classMember .method (← text (part 1)) jsdoc (← texts (part 2)) (← body 3))
        | "static" =>
          build (.classMember .staticMethod (← text (part 1)) jsdoc (← texts (part 2)) (← body 3))
        | _ => throw .malformed
      let jsdoc ← optionalDoc (part 0)
      build (.classDeclaration jsdoc (← text (part 1)) (← optionalSub 2) (← listPart member (part 3)))
    | "raw" => orUnreadable (Statement.ofJson? (part 0))
    | _ => throw .malformed
end

def program (first : Nat) (body : Json) : Except SketchError Program := do
  let (statements,_) ← (listPart (statement (body.height + 1)) body).run {function := first}
  return ⟨statements⟩

end Sketch
end GradualJs
