import GradualJs.Diagnostic
import GradualJs.Lattice.Basic
import GradualJs.Syntax.Tree

/-! The types that type expressions stand for. A name is a primitive type, a template
variable in scope, or a declared type; a nominal type includes null unless it is marked
otherwise. -/
namespace GradualJs

inductive ResolveError where
  | unknownName (name : String) (span : Span)
  | notAType (name : String) (span : Span)
  | notGeneric (name : String) (span : Span)
  | wrongArgumentCount (name : String) (expected found : Nat) (span : Span)
  | incompatibleReceivers (span : Span)
  | uninhabitable (span : Span)
  | requiredAfterOptional (span : Span)
  | restNotLast (span : Span)
  | cyclicTypedef (name : String) (span : Span)
  | misplaced (what : String) (span : Span)
  deriving DecidableEq

namespace ResolveError

def span : ResolveError → Span
  | .unknownName _ span | .notAType _ span | .notGeneric _ span | .wrongArgumentCount _ _ _ span
  | .incompatibleReceivers span | .uninhabitable span | .requiredAfterOptional span
  | .restNotLast span | .cyclicTypedef _ span | .misplaced _ span => span

def kind : ResolveError → DiagnosticKind
  | .unknownName _ _ | .notAType _ _ => .unrecognizedTypeName
  | .notGeneric _ _ => .genericArgumentsOnNonGenericType
  | .wrongArgumentCount _ _ _ _ => .wrongTypeArgumentCount
  | .incompatibleReceivers _ => .incompatibleReceiverUnion
  | .uninhabitable _ => .uninhabitableType
  | .requiredAfterOptional _ => .requiredAfterOptional
  | .restNotLast _ => .restNotLast
  | .cyclicTypedef _ _ => .cyclicTypedef
  | .misplaced _ _ => .misplacedTag

def quoted (name : String) : String := "`" ++ name ++ "`"

def message : ResolveError → String
  | .unknownName name _ => "unknown type " ++ quoted name
  | .notAType name _ => quoted name ++ " is not a type"
  | .notGeneric name _ => "type " ++ quoted name ++ " is not generic but was given type arguments"
  | .wrongArgumentCount name expected found _ =>
    "type " ++ quoted name ++ s!" expects {expected} type arguments, found {found}"
  | .incompatibleReceivers _ => "union of functions with incompatible `this` types"
  | .uninhabitable _ => "type annotation has no values"
  | .requiredAfterOptional _ => "required parameter follows an optional parameter"
  | .restNotLast _ => "rest parameter must be the last parameter"
  | .cyclicTypedef name _ => "typedef " ++ quoted name ++ " refers to itself"
  | .misplaced what _ => quoted what ++ " is not allowed in this position"

def toDiagnostic (e : ResolveError) : Diagnostic := .report e.kind e.message e.span

end ResolveError

/-- A resolution fails with an error, or has no answer because the types are nested too
deep. -/
abbrev Resolve := ExceptT ResolveError Option

structure Resolver where
  registry : Registry
  /-- Qualified template variables in scope, the innermost last. -/
  templates : List String := []
  typedef : TypedefId → Span → Resolve Ty

namespace Resolver

def lattice (r : Resolver) : Lattice := {registry := r.registry}
def template? (r : Resolver) (name : String) : Option String := r.templates.reverse.find? (Name.short · = name)

def primitive? : String → Option Ty
  | "number" => some .number
  | "string" => some .string
  | "boolean" => some .boolean
  | "null" => some .null
  | "undefined" | "void" => some .undefined
  | _ => none

def join (r : Resolver) (a b : Ty) : Resolve Ty := ExceptT.lift (r.lattice.join a b)
def joinAll (r : Resolver) (types : List Ty) : Resolve Ty := ExceptT.lift (r.lattice.joinAll types)
def isSubtype (r : Resolver) (a b : Ty) : Resolve Bool := ExceptT.lift (r.lattice.isSubtype a b)

def related (r : Resolver) (a b : Ty) : Resolve Bool := do
  if ← r.isSubtype a b then return true
  r.isSubtype b a

/-- Functions in one union need receivers of which one is wider. -/
def checkReceivers (r : Resolver) (span : Span) : List Ty → Resolve Unit
  | [] => pure ()
  | first :: rest => do
    rest.forM fun second => do
      if !(← r.related first second) then throw (.incompatibleReceivers span)
    r.checkReceivers span rest

def withoutNull : Ty → Ty
  | .union u => .ofUnion {u with primitives := u.primitives.without .nullOnly}
  | t => t

def inhabited (span : Span) (t : Ty) : Resolve Ty :=
  if t.isBottom then throw (.uninhabitable span) else pure t

/-- What a name with given arguments stands for, before the arguments are looked at. -/
inductive Named where
  | type (t : Ty)
  | nominal (id : NominalId)
  | typedef (id : TypedefId)

def lookupName (r : Resolver) (name : String) (arguments : Nat) (span : Span) : Resolve Named :=
  match primitive? name with
  | some t => if arguments = 0 then pure (.type t) else throw (.notGeneric name span)
  | none =>
    match r.template? name with
    | some template => pure (.type (.var template))
    | none =>
      match r.registry.lookup name with
      | some (.nominal id) =>
        let expected := (r.registry.nominal id).typeParams.length
        if arguments = 0 then pure (.nominal id)
        else if expected = 0 then throw (.notGeneric name span)
        else if arguments ≠ expected then
          throw (.wrongArgumentCount name expected arguments span)
        else pure (.nominal id)
      | some (.enumType id) =>
        if arguments = 0 then pure (.type (.enumMember id)) else throw (.notGeneric name span)
      | some (.typedef id) => pure (.typedef id)
      | some (.space _) => throw (.notAType name span)
      | none => throw (.unknownName name span)

mutual
def expr (r : Resolver) : TypeExpr → Resolve Ty
  | ⟨.any,_⟩ => pure .top
  | ⟨.unknown,_⟩ => pure .unknown
  | ⟨.named name arguments,span⟩ => do
    match ← r.lookupName name arguments.length span with
    | .type t => return t
    | .typedef id => r.typedef id span
    | .nominal id =>
      let args ← if arguments.isEmpty then pure (List.replicate (r.registry.nominal id).typeParams.length .unknown)
        else exprs r arguments
      r.join (.nominal id args) .null
  | ⟨.nullable inner,_⟩ => do r.join (← expr r inner) .null
  | ⟨.nonNull inner,span⟩ => do inhabited span (withoutNull (← expr r inner))
  | ⟨.optional inner,_⟩ => do r.join (← expr r inner) .undefined
  | ⟨.rest _,span⟩ => throw (.misplaced "..." span)
  | ⟨.union members,span⟩ => do
    let types ← exprs r members
    r.checkReceivers span (types.filterMap fun t => t.functionMember.bind (·.receiver))
    inhabited span (← r.joinAll types)
  | ⟨.record fields,_⟩ => do
    return .record ⟨(← recordFields r fields).foldl (fun done f => Field.put f done) [],false,false⟩
  | ⟨.function shape,span⟩ => do return .function (← function r span shape)

def exprs (r : Resolver) : List TypeExpr → Resolve (List Ty)
  | [] => pure []
  | e :: rest => do
    let first ← expr r e
    return first :: (← exprs r rest)

def optionalExpr (r : Resolver) : Option TypeExpr → Resolve (Option Ty)
  | none => pure none
  | some e => some <$> expr r e

def recordFields (r : Resolver) : List RecordField → Resolve (List Field)
  | [] => pure []
  | f :: rest => do
    let first ← recordField r f
    return first :: (← recordFields r rest)

def recordField (r : Resolver) : RecordField → Resolve Field
  | ⟨name,none⟩ => pure {name, type := .unknown, declared := true}
  | ⟨name,some ⟨.optional inner,_⟩⟩ => do
    return {name, type := ← expr r inner, optional := true, declared := true}
  | ⟨name,some e⟩ => do return {name, type := ← expr r e, declared := true}

def function (r : Resolver) (span : Span) : FunctionTypeExpr → Resolve FunctionType
  | ⟨thisType,newType,parameters,returnType⟩ => do
    let shape ← params r {returnType := .unknown} parameters
    let receiver ← optionalExpr r thisType
    let constructs := (← optionalExpr r newType).map (·.withoutNullOrUndefined)
    let declared ← optionalExpr r returnType
    if (constructs.map Ty.isBottom).getD false then throw (.uninhabitable span)
    return { shape with
      receiver
      constructs
      returnType := declared.getD (if constructs.isSome then .undefined else .unknown) }

/-- Adds parameters to a function: required ones, optional ones, and at most one rest
parameter at the end. -/
def params (r : Resolver) (done : FunctionType) : List TypeExpr → Resolve FunctionType
  | [] => pure done
  | ⟨.rest inner,span⟩ :: rest => do
    if !rest.isEmpty then throw (.restNotLast span)
    params r {done with rest := some (← expr r inner)} rest
  | ⟨.optional inner,_⟩ :: rest => do
    params r {done with optional := done.optional ++ [← expr r inner]} rest
  | ⟨kind,span⟩ :: rest => do
    if !done.optional.isEmpty then throw (.requiredAfterOptional span)
    params r {done with required := done.required ++ [← expr r ⟨kind,span⟩]} rest
end

end Resolver

namespace Registry

/-- What a typedef stands for. `active` are the typedefs that are being resolved; a typedef
that is met again refers to itself. They are all different, so there are no more levels
than typedefs. -/
def typedefType (r : Registry) (templates : List String) : Nat → List TypedefId → TypedefId → Span → Resolve Ty
  | levels, active, id, span =>
    let typedef := r.typedef id
    match typedef.resolved, typedef.meaning with
    | some t, _ => pure t
    | none, meaning =>
      if active.contains id then
        throw (.cyclicTypedef typedef.name (if span.line = 0 then typedef.span else span))
      else match meaning, levels with
        | none, _ => pure .unknown
        | some _, 0 => ExceptT.lift none
        | some e, levels + 1 =>
          Resolver.expr ⟨r,templates,typedefType r templates levels (id :: active)⟩ e

def typedefLevels (r : Registry) : Nat := r.typedefs.length + 1

def resolver (r : Registry) (templates : List String) : Resolver :=
  ⟨r,templates,r.typedefType templates r.typedefLevels []⟩

def resolveTypedef (r : Registry) (id : TypedefId) : Resolve Ty := r.typedefType [] r.typedefLevels [] id {}

end Registry

namespace Resolver

def nominalReference (r : Resolver) (e : TypeExpr) : Resolve Instance := do
  let t := (← r.expr e).withoutNullOrUndefined
  match t.objects with
  | [.nominal i] => if t.memberCount = 1 then return i else throw (.notAType e.label e.span)
  | _ => throw (.notAType e.label e.span)

/-- A resolution that collects errors and goes on with the unknown type. -/
abbrev Lenient := StateT (List ResolveError) Option

def Lenient.note (error : ResolveError) : Lenient Unit := modify (· ++ [error])

def exprOrNote (r : Resolver) (e : TypeExpr) : Lenient Ty := do
  match ← StateT.lift (r.expr e).run with
  | .ok t => return t
  | .error error =>
    Lenient.note error
    return .unknown

def declaredParam (r : Resolver) (seenOptional isLast : Bool) : Option TypeExpr → Lenient (Option Ty × ParamKind)
  | none => pure (none,if seenOptional then .optional else .required)
  | some ⟨.rest inner,span⟩ => do
    let t ← r.exprOrNote inner
    if isLast then return (some t,.rest)
    Lenient.note (.restNotLast span)
    return (some t,.required)
  | some ⟨.optional inner,_⟩ => do return (some (← r.exprOrNote inner),.optional)
  | some e => do
    let t ← r.exprOrNote e
    if seenOptional then Lenient.note (.requiredAfterOptional e.span)
    return (some t,.required)

def isOptionalTag : Option TypeExpr → Bool
  | some e => e.isOptional
  | none => false

def declaredParams (r : Resolver) (doc : Option JsDoc) : Bool → List Identifier → Lenient (List DeclaredParam)
  | _, [] => pure []
  | seenOptional, p :: rest => do
    let tag := doc.bind (·.param p.name)
    let (type,kind) ← r.declaredParam seenOptional rest.isEmpty tag
    return ⟨p.name,type,kind⟩ :: (← r.declaredParams doc (seenOptional || isOptionalTag tag) rest)

def demoteRequired : Bool → List DeclaredParam → List DeclaredParam
  | _, [] => []
  | seenOptional, p :: rest =>
    match p.kind with
    | .optional => p :: demoteRequired true rest
    | .required =>
      {p with kind := if seenOptional then .optional else .required} :: demoteRequired seenOptional rest
    | .rest => p :: demoteRequired seenOptional rest

/-- The declared signature of a function literal. Formals without a tag stay undeclared. -/
def signature (r : Resolver) (doc : Option JsDoc) (parameters : List Identifier) : Lenient Signature := do
  let params ← r.declaredParams doc false parameters
  let returnType ← (doc.bind (·.returnType)).mapM r.exprOrNote
  let receiver ← (doc.bind (·.thisType)).mapM r.exprOrNote
  return {
    params := demoteRequired false params
    returnType
    receiver := receiver.map (·.withoutNullOrUndefined) }

end Resolver
end GradualJs
