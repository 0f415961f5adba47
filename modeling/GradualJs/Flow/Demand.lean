import GradualJs.Flow.Scope

/-! Types for formals that have none. The body is followed once, from its last statement to
its first. A use that needs a certain type demands it of the formal; an assignment cancels
what was demanded after it, so that in the end the first use counts. A formal of which
only properties are used gets a loose record of them. -/
namespace GradualJs

abbrev Demand := Table String Ty

/-- Of two paths the first one to demand something counts. -/
def Demand.merge (d other : Demand) : Demand :=
  other.entries.foldl (fun merged (name,type) => merged.insertNew name type) d

/-- Property uses. They add up over the whole body. -/
structure PropertyUses where
  seen : Table String (List String) := {}
  demanded : Table (String × String) Ty := {}

abbrev Demanding := StateT PropertyUses Option

structure DemandContext where
  registry : Registry
  tree : ScopeTree
  scope : ScopeId
  formals : List String

namespace DemandContext

def isFormal (c : DemandContext) (name : String) : Bool := c.formals.contains name

def formal? (c : DemandContext) (e : Expression) : Option String :=
  match e.kind with
  | .identifier id => if c.isFormal id.name then some id.name else none
  | _ => none

def formalProperty? (c : DemandContext) (e : Expression) : Option (String × String) :=
  match e.kind with
  | .member object property _ => (c.formal? object).map fun name => (name,property)
  | _ => none

def see (name property : String) : Demanding Unit :=
  modify fun uses =>
    let seen := (uses.seen.get? name).getD []
    if seen.contains property then uses
    else {uses with seen := uses.seen.insert name (seen ++ [property])}

def demandProperty (c : DemandContext) (e : Expression) (type : Ty) : Demanding Unit := do
  match c.formalProperty? e with
  | none => return
  | some key =>
    let joined ← match (← get).demanded.get? key with
      | some previous => StateT.lift (Lattice.join {registry := c.registry} previous type)
      | none => pure type
    modify fun uses => {uses with demanded := uses.demanded.insert key joined}

/-- Demands a type of an expression that is a formal or a property of one. -/
def demand (c : DemandContext) (e : Expression) (type : Ty) (d : Demand) : Demanding Demand := do
  c.demandProperty e type
  return match c.formal? e with
    | some name => d.insert name type
    | none => d

def positionalTypes (f : FunctionType) : List (Option Ty) := f.positional.map some

/-- The declared types of the formals of a callee that is named directly. -/
def calleeParams (c : DemandContext) (callee : Expression) (isNew : Bool) : Option (List (Option Ty)) :=
  match callee.kind with
  | .identifier id =>
    match c.tree.resolve c.scope id.name with
    | some (_,l) => do
      let decl ← c.registry.function? (← l.function)
      return decl.signature.params.map (·.type)
    | none =>
      if isNew then
        match c.registry.lookup id.name with
        | some (.nominal owner) => (c.registry.nominal owner).constructor.map positionalTypes
        | _ => none
      else match c.registry.global? id.name with
        | some (.value decl) => do
          let function ← decl.type.functionMember
          if function.isGeneric then none else positionalTypes function
        | _ => none
  | _ => none

def expectedAt (params : Option (List (Option Ty))) (index : Nat) : Option Ty := do
  let type ← (← (← params)[index]?)
  if type.isUnknown || type.containsVars then none else type

def demandArgument (c : DemandContext) (params : Option (List (Option Ty))) (index : Nat)
    (argument : Expression) (d : Demand) : Demanding Demand :=
  match expectedAt params index with
  | some type => c.demand argument type d
  | none => pure d

def demandNumberIf (c : DemandContext) (needed : Bool) (e : Expression) (d : Demand) : Demanding Demand :=
  if needed then c.demand e .number d else pure d

mutual
def expression (c : DemandContext) : Expression → Demand → Demanding Demand
  | ⟨_,kind⟩, d => expressionKind c kind d
termination_by structural e => e

def expressionKind (c : DemandContext) : ExpressionKind → Demand → Demanding Demand
  | .literal _, d | .identifier _, d | .this, d | .function _, d => pure d
  | .member object property _, d => do
    match c.formal? object with
    | some name => see name property
    | none => pure ()
    expression c object d
  | .index object key, d => do expression c object (← expression c key d)
  | .call callee args, d => do
    let d ← arguments c (c.calleeParams callee false) 0 args d
    c.demandProperty callee (.function .any)
    expression c callee d
  | .new callee args, d => do
    let d ← arguments c (c.calleeParams callee true) 0 args d
    c.demandProperty callee (.function .any)
    expression c callee d
  | .object list, d => properties c list d
  | .array elements, d => arguments c none 0 elements d
  | .unary operator operand, d => do
    let needed := operator = .negative || operator = .bitNot
    expression c operand (← c.demandNumberIf needed operand d)
  | .update _ _ target, d => do expression c target (← c.demand target .number d)
  | .binary operator left right, d => do
    let needed := operator.isArithmetic
    let d ← expression c right (← c.demandNumberIf needed right d)
    expression c left (← c.demandNumberIf needed left d)
  | .logical _ left right, d => do
    let skipped ← expression c right d
    expression c left (skipped.merge d)
  | .conditional test consequent alternative, d => do
    let first ← expression c consequent d
    let second ← expression c alternative d
    expression c test (first.merge second)
  | .assignment operator target value, d => do
    match c.formal? target with
    | some name =>
      let d ← match operator with
        | none => pure (d.erase name)
        | some operator => c.demandNumberIf (operator ≠ .add) target d
      expression c value d
    | none => expression c target (← expression c value d)
  | .cast _ operand, d => expression c operand d
termination_by structural kind => kind

def arguments (c : DemandContext) (params : Option (List (Option Ty))) (index : Nat) :
    List Expression → Demand → Demanding Demand
  | [], d => pure d
  | e :: rest, d => do
    let d ← expression c e (← arguments c params (index + 1) rest d)
    c.demandArgument params index e d
termination_by structural list => list

def properties (c : DemandContext) : List ObjectProperty → Demand → Demanding Demand
  | [], d => pure d
  | ⟨_,value,_,_⟩ :: rest, d => do expression c value (← properties c rest d)
termination_by structural list => list
end

def optionalExpression (c : DemandContext) (e : Option Expression) (d : Demand) : Demanding Demand :=
  match e with
  | some e => c.expression e d
  | none => pure d

def declarators (c : DemandContext) : List Declarator → Demand → Demanding Demand
  | [], d => pure d
  | ⟨name,_,initializer⟩ :: rest, d => do
    let d ← c.declarators rest d
    match initializer with
    | some e => c.expression e (if c.isFormal name.name then d.erase name.name else d)
    | none => return d

mutual
def statement (c : DemandContext) : Statement → Demand → Demanding Demand
  | .var _ list _ _, d => c.declarators list d
  | .expression value _, d => c.expression value d
  | .returnStmt value _, _ => c.optionalExpression value {}
  | .throwStmt value _, _ => c.expression value {}
  | .ifStmt condition consequent alternative _, d => do
    let first ← statement c consequent d
    let second ← optionalStatement c alternative d
    c.expression condition (first.merge second)
  | .whileLoop condition body _, d => do
    let inside ← statement c body d
    c.expression condition (inside.merge d)
  | .doWhile body condition _, d => do statement c body (← c.expression condition d)
  | .forLoop start condition update body _, d => do
    let inside ← statement c body (← c.optionalExpression update d)
    let d ← c.optionalExpression condition (inside.merge d)
    optionalStatement c start d
  | .forIn key _ object body _, d => do
    let inside ← statement c body d
    c.expression object (Demand.merge (inside.erase key.name) d)
  | .block body, d => block c body d
  | .tryStmt body handler finalizer _, d => do
    let d ← optionalBlock c finalizer d
    let caught ← handlerClause c handler d
    let d ← block c body d
    return match caught with
      | some other => d.merge other
      | none => d
  | .switch discriminant list _, d => do c.expression discriminant (← cases c d list)
  | .function _ _, d | .classDecl _, d | .breakStmt _, d | .continueStmt _, d | .empty _, d =>
    pure d
termination_by structural s => s

def optionalStatement (c : DemandContext) : Option Statement → Demand → Demanding Demand
  | none, d => pure d
  | some s, d => statement c s d
termination_by structural s => s

def block (c : DemandContext) : Block → Demand → Demanding Demand
  | ⟨list,_⟩, d => statements c list d
termination_by structural b => b

def optionalBlock (c : DemandContext) : Option Block → Demand → Demanding Demand
  | none, d => pure d
  | some b, d => block c b d
termination_by structural b => b

def handlerClause (c : DemandContext) : Option CatchClause → Demand → Demanding (Option Demand)
  | none, _ => pure none
  | some ⟨_,body⟩, d => some <$> block c body d
termination_by structural h => h

/-- The demand before the cases of a switch: each of them may be taken, or none. -/
def cases (c : DemandContext) (after : Demand) : List SwitchCase → Demanding Demand
  | [] => pure after
  | ⟨test,body⟩ :: rest => do
    let later ← cases c after rest
    let branch ← c.optionalExpression test (← statements c body after)
    return branch.merge later
termination_by structural list => list

def statements (c : DemandContext) : List Statement → Demand → Demanding Demand
  | [], d => pure d
  | s :: rest, d => do statement c s (← statements c rest d)
termination_by structural list => list
end

/-- The type of a formal: what its first use demands, or the properties used of it. -/
def formalType (d : Demand) (uses : PropertyUses) (name : String) : Ty :=
  match d.get? name, uses.seen.get? name with
  | some type, _ => type
  | none, some properties =>
    .record ⟨properties.map fun property =>
      {name := property, type := (uses.demanded.get? (name,property)).getD .unknown},false,true⟩
  | none, none => .unknown

def infer (c : DemandContext) (body : List Statement) : Option (Table String Ty) := do
  let (d,uses) ← (c.statements body {}).run {}
  return .ofList (c.formals.map fun name => (name,formalType d uses name))

end DemandContext
end GradualJs
