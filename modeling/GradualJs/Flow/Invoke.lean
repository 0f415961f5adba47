import GradualJs.Flow.Operand

/-! Calls. A call to a function whose signature is not known yet is put off until all
bodies have been followed. -/
namespace GradualJs

/-- In legacy mode a function may leave out formals that have no type: what counts is the
last required formal with a type. -/
def Signature.legacyMinArity (s : Signature) : Nat :=
  s.params.zipIdx.foldl (fun least (p,index) =>
    if p.type.isSome && p.kind = .required then index + 1 else least) 0

/-- What a call is checked against: a function type, or the summary that a literal will have. -/
inductive CallTarget where
  | now (function : FunctionType)
  | later (id : Nat) (declared : Signature)

namespace WalkContext

/-- A call of a function literal is checked against its summary. If there is none yet, it is
put off, unless the comment of the literal says enough. -/
def target (c : WalkContext) (type : FunctionType) : Option Nat → CallTarget
  | none => .now type
  | some id =>
    match c.summaries.get? id, c.registry.function? id with
    | some summary, _ => .now summary.function
    | none, some d =>
      if !d.fromExterns && !d.signature.isComplete then .later id d.signature else .now type
    | none, none => .now type

def legacyMinArity (c : WalkContext) (site : CallSite) (literal : Option Nat) : Option Nat :=
  match literal.bind c.registry.function? with
  | some d =>
    if c.options.legacyCompatibility && d.signature.hasUndeclaredParams then
      some d.signature.legacyMinArity
    else site.legacyMinArity
  | none => site.legacyMinArity

end WalkContext

namespace Walk

def meet (call : MetCall) : Walk Unit :=
  modify fun s => {s with calls := s.calls ++ [call]}

/-- Checks a call at once. A muted walk keeps only the type of the result. -/
def checkNow (c : WalkContext) (site : CallSite) (callee : FunctionType) (arguments : List Ty)
    (receiver : Option Ty) : Walk Ty := do
  let (type,reports) ← ask ((site.check c.lattice callee arguments receiver).run [])
  if !(← isMuted) then modify fun s => {s with diagnostics := s.diagnostics ++ reports}
  return type

def construct (c : WalkContext) (site : CallSite) (id : NominalId) (constructor : FunctionType)
    (arguments : List Ty) : Walk Ty := do
  let n := c.registry.nominal id
  if !site.isNew then
    if n.kind = .classType then
      report .constructorCalledWithoutNew ("constructor " ++ n.name ++ " must be called with new") site.span
    return .unknown
  if n.kind.isInterface then
    report .cannotInstantiateInterface ("cannot instantiate interface " ++ n.name) site.span
    return .unknown
  if n.isAbstract then
    report .cannotInstantiateAbstractClass ("cannot instantiate abstract class " ++ n.name) site.span
  checkNow c site constructor arguments none

def declaredResult (s : Signature) (isNew : Bool) : Ty :=
  match s.constructs, isNew with
  | some constructs, true => constructs
  | _, _ => s.returnType.getD .unknown

def putOff (call : DeferredCall) : Walk Unit :=
  modify fun s => {s with deferred := s.deferred.defer call, putOff := s.putOff ++ [call]}

def callTarget (c : WalkContext) (site : CallSite) (target : CallTarget) (arguments : List Ty)
    (receiver : Option Ty) : Walk Ty := do
  match target with
  | .now function => checkNow c site function arguments receiver
  | .later id declared =>
    if !(← isMuted) then putOff ⟨site,id,arguments,receiver⟩
    return declaredResult declared site.isNew

def callFunction (c : WalkContext) (site : CallSite) (function : FunctionType) (callee : Callee)
    (arguments : List Ty) : Walk Ty := do
  if site.isNew && !function.isConstructor && !function.loose then
    report .notAConstructor (site.calleeName ++ " is not a constructor") site.span
    return .unknown
  let site := {site with legacyMinArity := c.legacyMinArity site callee.function}
  callTarget c site (c.target function callee.function) arguments callee.receiver

def invoke (c : WalkContext) (site : CallSite) (callee : Callee) (arguments : List Ty) : Walk Ty := do
  match callee.type with
  | .union u =>
    if callee.type.isNullOrUndefined then
      report .notCallable (site.calleeName ++ " is " ++ c.describe callee.type ++ " and cannot be called") site.span
      return .unknown
    match constructorMember? c callee.type, callee.type.functionMember with
    | some (id,constructor), _ => construct c site id constructor arguments
    | none, some function => callFunction c site function callee arguments
    | none, none =>
      if !u.objects.any isFunctionInstance then
        report (if site.isNew then .notAConstructor else .notCallable) (site.calleeName ++
          " has type " ++ c.describe callee.type ++ ", which is not callable") site.span
      return .unknown
  | _ => return .unknown

end Walk
end GradualJs
