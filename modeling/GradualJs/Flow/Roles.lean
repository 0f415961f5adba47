import GradualJs.Flow.Access
import GradualJs.Flow.Invoke
import GradualJs.Lattice.Narrowing

/-! Following expressions. An expression plays several roles: it has a value, it may be a
condition, it may be stored to, and it may be called. All roles of an expression are put
together from the roles of its parts. -/
namespace GradualJs

/-- The value of a condition, and what is known where it holds and where it does not. -/
structure Branches where
  type : Ty
  whenTrue : Env
  whenFalse : Env

namespace Branches

def unsplit (type : Ty) (env : Env) : Branches := ⟨type,env,env⟩
def swapped (b : Branches) (type : Ty) : Branches := ⟨type,b.whenFalse,b.whenTrue⟩

def oriented (b : Branches) (positive : Bool) : Branches :=
  if positive then b else b.swapped b.type

def refine (b : Branches) (path : Option String) (ifTrue ifFalse : Ty) : Branches :=
  match path with
  | some path => { b with
      whenTrue := b.whenTrue.refine path ifTrue
      whenFalse := b.whenFalse.refine path ifFalse }
  | none => b

end Branches

structure Roles where
  /-- The path under which an environment keeps the expression. Only locals of the current
  scope, `this`, and properties of these have one. -/
  path : Option String
  value : Env → Walk (Ty × Env)
  condition : Env → Walk Branches
  /-- Stores a value; the span is that of the whole assignment. -/
  store : Ty → Span → Env → Walk Env
  callee : Env → Walk (Callee × Env)
  /-- How an answer of `typeof` is tested; only a `typeof` expression has it. -/
  typeofTest : Option (TypeTag → Bool → Env → Walk Branches) := none

namespace Roles

/-- The same roles, noting what is known before and behind the expression. -/
def visiting (e : Roles) : Roles where
  path := e.path
  value := Walk.visiting (fun result => [result.2]) e.value
  condition := Walk.visiting (fun b => [b.whenTrue,b.whenFalse]) e.condition
  store type span := Walk.visiting (fun env => [env]) (e.store type span)
  callee := Walk.visiting (fun result => [result.2]) e.callee
  typeofTest := e.typeofTest.map fun test tag positive =>
    Walk.visiting (fun b => [b.whenTrue,b.whenFalse]) (test tag positive)

/-- A condition of which only its value is looked at. -/
def plainCondition (c : WalkContext) (path : Option String) (value : Env → Walk (Ty × Env))
    (env : Env) : Walk Branches := do
  let (type,env) ← value env
  return (Branches.unsplit type env).refine path type.truthy (c.lattice.falsy type)

def plainCallee (value : Env → Walk (Ty × Env)) (env : Env) : Walk (Callee × Env) := do
  let (type,env) ← value env
  return (⟨type,none,none⟩,env)

/-- The roles of an expression that is nothing special: storing to it does nothing. -/
def ofValue (c : WalkContext) (path : Option String) (value : Env → Walk (Ty × Env)) : Roles where
  path
  value
  condition := plainCondition c path value
  store _ _ env := pure env
  callee := plainCallee value

def constant (c : WalkContext) (type : Ty) : Roles := ofValue c none fun env => pure (type,env)

def values : List Roles → Env → Walk (List Ty × Env)
  | [], env => pure ([],env)
  | e :: rest, env => do
    let (type,env) ← e.value env
    let (types,env) ← values rest env
    return (type :: types,env)

def reportUnknown (c : WalkContext) (name : Option String) (type : Ty) (span : Span) : Walk Unit :=
  if c.options.reportUnknownTypes && type.isUnknown then
    Walk.report .unknownExpressionType ("could not determine the type of " ++ name.getD "expression") span
  else pure ()

/-- Names, properties and calls are reported when nothing is known of their value. -/
def reporting (c : WalkContext) (name : Option String) (span : Span)
    (value : Env → Walk (Ty × Env)) (env : Env) : Walk (Ty × Env) := do
  let (type,env) ← value env
  reportUnknown c name type span
  return (type,env)

def ofName (c : WalkContext) (span : Span) (id : Identifier) : Roles :=
  let path := match c.tree.resolve c.scope id.name with
    | some (scope,_) => if c.isOwn scope then some id.name else none
    | none => none
  let value := reporting c (some id.name) span fun env => do
    return (← Walk.readName c id env,env)
  { ofValue c path value with
    store := fun type span env => Walk.assignName c id type span env
    callee := fun env => do
      let (type,env) ← value env
      return (⟨type,none,c.functionNamed id.name⟩,env) }

def ofThis (c : WalkContext) : Roles := ofValue c (some "this") fun env => pure ((env.get? "this").getD c.receiver,env)

/-- What is known of a path goes before what is read. -/
def refined (env : Env) (path : Option String) (type : Ty) : Ty := (path.bind env.get?).getD type

def ofMember (c : WalkContext) (span : Span) (name : Option String) (object : Roles)
    (property : String) (propertySpan : Span) : Roles :=
  let path := object.path.map (Name.property · property)
  let value := reporting c name span fun env => do
    let (type,env) ← object.value env
    let read ← Walk.readProperty c type property propertySpan
    return (refined env path read.type,env)
  { ofValue c path value with
    store := fun stored span env => do
      let (type,env) ← object.value env
      Walk.writeProperty c type object.path property stored span env
    callee := fun env => do
      let (type,env) ← object.value env
      let read ← Walk.readProperty c type property propertySpan
      return (⟨refined env path read.type,some type.withoutNullOrUndefined,read.function⟩,env) }

def ofIndex (c : WalkContext) (span : Span) (object key : Roles) : Roles :=
  let element (span : Span) (env : Env) : Walk (Ty × Env) := do
    let (objectType,env) ← object.value env
    let (keyType,env) ← key.value env
    return (← Walk.elementAccess c objectType keyType span,env)
  { ofValue c none (element span) with
    store := fun stored span env => do
      let (type,env) ← element span env
      discard (Walk.checkStored c "element assignment" stored type span)
      return env }

def callValue (c : WalkContext) (span : Span) (isNew : Bool) (name : Option String)
    (callee : Roles) (arguments : List Roles) (argumentSpans : List Span) (before : Env) :
    Walk (Ty × Env) := do
  let (called,env) ← callee.callee before
  Walk.meet ⟨span,name,isNew,before,called⟩
  let (types,env) ← values arguments env
  let site : CallSite := {span, calleeName := name.getD "function", argumentSpans, isNew}
  return (← Walk.invoke c site called types,env)

def ofFunction (c : WalkContext) (literal : FunctionLiteral) : Roles :=
  ofValue c none fun env => do
    if literal.isArrow then Walk.requiresTranspilation c "arrow function" literal.span
    return (c.functionValue literal.id,env)

def literalField (c : WalkContext) (key : String) (jsdoc : Option JsDoc) (span : Span) (value : Ty) : Walk Field := do
  match jsdoc.bind (·.declaredType) with
  | some e =>
    let type ← Walk.typeExpr c e
    discard (Walk.checkStored c ("property " ++ key) value type span)
    return {name := key, type, declared := true}
  | none => return {name := key, type := value}

def literalFields (c : WalkContext) : List (ObjectProperty × Roles) → List Field → Env → Walk (List Field × Env)
  | [], done, env => pure (done,env)
  | (p,value) :: rest, done, env => do
    let (type,env) ← value.value env
    let field ← literalField c p.key p.jsdoc p.span type
    literalFields c rest (field.put done) env

def ofObject (c : WalkContext) (properties : List (ObjectProperty × Roles)) : Roles :=
  ofValue c none fun env => do
    let (fields,env) ← literalFields c properties [] env
    return (.record ⟨fields,true,false⟩,env)

def ofArray (c : WalkContext) (elements : List Roles) : Roles :=
  ofValue c none fun env => do
    let (types,env) ← values elements env
    let element ← match types with
      | [] => pure .unknown
      | types => Walk.ask (c.lattice.joinAll types)
    return (Registry.arrayOf element,env)

/-- A test narrows what it looks at, if that has a path; otherwise nothing is asked. -/
def narrowing (path : Option String) (ifTrue ifFalse : Option Ty) (env : Env) : Walk Branches := do
  let b := Branches.unsplit .boolean env
  match path with
  | some _ => return b.refine path (← Walk.ask ifTrue) (← Walk.ask ifFalse)
  | none => return b

def typeofCondition (c : WalkContext) (operand : Roles) (tag : TypeTag) (positive : Bool)
    (env : Env) : Walk Branches := do
  let (type,env) ← operand.value env
  let narrow (holds : Bool) := c.lattice.narrowTypeof tag holds type
  return (← narrowing operand.path (narrow true) (narrow false) env).oriented positive

def ofUnary (c : WalkContext) (operator : UnaryOperator) (operand : Roles) (operandSpan : Span) : Roles :=
  let plain := ofValue c none fun env => do
    let (type,env) ← operand.value env
    if operator = .negative || operator = .bitNot then
      Walk.expectNumber c type "operand" operandSpan
    return (operator.resultType,env)
  match operator with
  | .not =>
    {plain with condition := fun env => do return (← operand.condition env).swapped .boolean}
  | .typeof => {plain with typeofTest := some (typeofCondition c operand)}
  | _ => plain

def ofUpdate (c : WalkContext) (span : Span) (target : Roles) (targetSpan : Span) : Roles :=
  ofValue c none fun env => do
    let (type,env) ← target.value env
    Walk.expectNumber c type "operand" targetSpan
    return (.number,← target.store .number span env)

/-- The type that an equality test compares with, and whether no value of that type is left
when the test fails. -/
def comparedValue (strict : Bool) (other : ExpressionKind) : Option (Ty × Bool) :=
  let nullish (type : Ty) : Ty := if strict then type else .primitive .nullOrUndefined
  match other with
  | .literal .null => some (nullish .null,true)
  | .literal .undefined => some (nullish .undefined,true)
  | .identifier id => if id.name = "undefined" then some (nullish .undefined,true) else none
  | .literal value => some (value.type,false)
  | _ => none

/-- Narrows the first of two operands that has a path and is compared with a known value. -/
def equalityCondition (c : WalkContext) (strict positive : Bool) (left right : Roles)
    (leftKind rightKind : ExpressionKind) (env : Env) : Walk Branches := do
  let (leftType,env) ← left.value env
  let (rightType,env) ← right.value env
  let narrow (path : String) (type tested : Ty) (excludable : Bool) : Walk Branches := do
    let matching ← Walk.ask (c.lattice.specialize type tested)
    let rest ← if excludable then Walk.ask (c.lattice.exclude type tested) else pure type
    return ((Branches.unsplit .boolean env).refine (some path) matching rest).oriented positive
  match left.path, comparedValue strict rightKind with
  | some path, some (tested,excludable) => narrow path leftType tested excludable
  | _, _ =>
    match right.path, comparedValue strict leftKind with
    | some path, some (tested,excludable) => narrow path rightType tested excludable
    | _, _ => return .unsplit .boolean env

def instanceOfCondition (c : WalkContext) (left right : Roles) (rightSpan : Span) (env : Env) : Walk Branches := do
  let (leftType,env) ← left.value env
  let (rightType,env) ← right.value env
  match ← Walk.instanceOfTarget c rightType rightSpan with
  | none => return .unsplit .boolean env
  | some type => narrowing left.path (c.lattice.specialize leftType type) (c.lattice.exclude leftType type) env

/-- Where `"p" in x` holds, the property of `x` is not undefined. -/
def inCondition (c : WalkContext) (value : Env → Walk (Ty × Env)) (right : Roles)
    (leftKind : ExpressionKind) (leftSpan : Span) (env : Env) : Walk Branches := do
  let (type,env) ← value env
  match leftKind, right.path with
  | .literal (.string property), some path =>
    let (object,whenTrue) ← Walk.quietly (right.value env)
    let read ← Walk.quietly (Walk.readProperty c object property leftSpan)
    let present ← Walk.ask (c.lattice.exclude read.type .undefined)
    return ⟨type,whenTrue.refine (Name.property path property) present,env⟩
  | _, _ => return .unsplit type env

def binaryValue (c : WalkContext) (operator : BinaryOperator) (left right : Roles)
    (leftSpan rightSpan : Span) (env : Env) : Walk (Ty × Env) := do
  let (leftType,env) ← left.value env
  let (rightType,env) ← right.value env
  return (← Walk.binaryResult c operator leftType rightType leftSpan rightSpan,env)

def answerTest (candidate : Roles) (other : ExpressionKind) : Option (Bool → Env → Walk Branches) :=
  match candidate.typeofTest, other with
  | some test, .literal (.string name) => (TypeTag.ofName? name).map test
  | _, _ => none

def equality (c : WalkContext) (strict positive : Bool) (left right : Roles)
    (leftKind rightKind : ExpressionKind) : Env → Walk Branches :=
  match answerTest left rightKind, answerTest right leftKind with
  | some test, _ => test positive
  | none, some test => fun env => do
    let (_,env) ← left.value env
    test positive env
  | none, none => equalityCondition c strict positive left right leftKind rightKind

def ofBinary (c : WalkContext) (operator : BinaryOperator) (left right : Roles)
    (leftExpr rightExpr : Expression) : Roles :=
  let value := binaryValue c operator left right leftExpr.span rightExpr.span
  let equality (strict positive : Bool) : Env → Walk Branches :=
    equality c strict positive left right leftExpr.kind rightExpr.kind
  let plain := ofValue c none value
  match operator with
  | .equal => {plain with condition := equality false true}
  | .notEqual => {plain with condition := equality false false}
  | .strictEqual => {plain with condition := equality true true}
  | .strictNotEqual => {plain with condition := equality true false}
  | .instanceOf => {plain with condition := instanceOfCondition c left right rightExpr.span}
  | .isIn => {plain with condition := inCondition c value right leftExpr.kind leftExpr.span}
  | _ => plain

def logicalCondition (c : WalkContext) (operator : LogicalOperator) (left right : Roles)
    (env : Env) : Walk Branches := do
  let first ← left.condition env
  match operator with
  | .and =>
    let second ← right.condition first.whenTrue
    let type ← Walk.ask (c.lattice.join (c.lattice.falsy first.type) second.type)
    return ⟨type,second.whenTrue,← Walk.join c first.whenFalse second.whenFalse⟩
  | .or =>
    let second ← right.condition first.whenFalse
    let type ← Walk.ask (c.lattice.join first.type.truthy second.type)
    return ⟨type,← Walk.join c first.whenTrue second.whenTrue,second.whenFalse⟩

def ofLogical (c : WalkContext) (operator : LogicalOperator) (left right : Roles) : Roles :=
  let condition := logicalCondition c operator left right
  { ofValue c none fun env => do
      let b ← condition env
      return (b.type,← Walk.join c b.whenTrue b.whenFalse)
    with condition }

def ofConditional (c : WalkContext) (test consequent alternative : Roles) : Roles :=
  ofValue c none fun env => do
    let b ← test.condition env
    let (first,whenTrue) ← consequent.value b.whenTrue
    let (second,whenFalse) ← alternative.value b.whenFalse
    let env ← Walk.join c whenTrue whenFalse
    return (← Walk.ask (c.lattice.join first second),env)

def ofAssignment (c : WalkContext) (span : Span) (operator : Option BinaryOperator)
    (target value : Roles) (targetSpan valueSpan : Span) : Roles :=
  ofValue c none fun env => do
    let (stored,env) ← match operator with
      | some operator => binaryValue c operator target value targetSpan valueSpan env
      | none => value.value env
    return (stored,← target.store stored span env)

def isRelated (c : WalkContext) (value target : Ty) : Walk Bool := do
  if ← Walk.isSubtype c value target then return true
  if ← Walk.isSubtype c target value then return true
  return !(← Walk.ask (c.lattice.specialize value target)).isBottom

def ofCast (c : WalkContext) (span : Span) (e : TypeExpr) (operand : Roles) : Roles :=
  ofValue c none fun env => do
    let (value,env) ← operand.value env
    let target ← Walk.typeExpr c e
    if !(← isRelated c value target) then
      Walk.report .invalidCast ("cannot cast " ++ c.describe value ++ " to " ++ c.describe target) span
    return (target,env)

end Roles

mutual
def Expression.roles (c : WalkContext) : Expression → Roles
  | ⟨span,kind⟩ => (ExpressionKind.roles c span kind).visiting
termination_by structural e => e

def ExpressionKind.roles (c : WalkContext) (span : Span) : ExpressionKind → Roles
  | .literal value => .constant c value.type
  | .identifier id => .ofName c span id
  | .this => .ofThis c
  | .member object property propertySpan =>
    let name := object.qualifiedName.map (Name.property · property)
    .ofMember c span name (Expression.roles c object) property propertySpan
  | .index object key => .ofIndex c span (Expression.roles c object) (Expression.roles c key)
  | .call callee arguments =>
    .ofValue c none (Roles.reporting c none span
      (Roles.callValue c span false callee.qualifiedName (Expression.roles c callee)
        (expressionRoles c arguments) (arguments.map (·.span))))
  | .new callee arguments =>
    .ofValue c none (Roles.callValue c span true callee.qualifiedName (Expression.roles c callee)
        (expressionRoles c arguments) (arguments.map (·.span)))
  | .function literal => .ofFunction c literal
  | .object properties => .ofObject c (propertyRoles c properties)
  | .array elements => .ofArray c (expressionRoles c elements)
  | .unary operator operand => .ofUnary c operator (Expression.roles c operand) operand.span
  | .update _ _ target => .ofUpdate c span (Expression.roles c target) target.span
  | .binary operator left right =>
    .ofBinary c operator (Expression.roles c left) (Expression.roles c right) left right
  | .logical operator left right =>
    .ofLogical c operator (Expression.roles c left) (Expression.roles c right)
  | .conditional test consequent alternative =>
    .ofConditional c (Expression.roles c test) (Expression.roles c consequent) (Expression.roles c alternative)
  | .assignment operator target value =>
    .ofAssignment c span operator (Expression.roles c target) (Expression.roles c value) target.span value.span
  | .cast e operand => .ofCast c span e (Expression.roles c operand)
termination_by structural kind => kind

def expressionRoles (c : WalkContext) : List Expression → List Roles
  | [] => []
  | e :: rest => Expression.roles c e :: expressionRoles c rest
termination_by structural list => list

def propertyRoles (c : WalkContext) : List ObjectProperty → List (ObjectProperty × Roles)
  | [] => []
  | ⟨key,value,jsdoc,span⟩ :: rest =>
    (⟨key,value,jsdoc,span⟩,Expression.roles c value) :: propertyRoles c rest
termination_by structural list => list
end

end GradualJs
