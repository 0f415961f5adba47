import GradualJs.Declarations.Function

/-! Properties of instances and namespaces, and global variables. -/
namespace GradualJs.Collecting

def methodDecl (r : Registry) (id : Nat) (span : Span) : PropertyDecl :=
  {type := r.literalType id, declared := true, function := some id, span}

/-- A comment that describes a function, on a mention of it. Without a result tag the
function returns nothing. -/
def stubFunction (templates : List String) (doc : JsDoc) : Collecting Ty := do
  let parameters := doc.params.map fun p => (⟨p.name,p.typeExpr.span⟩ : Identifier)
  let signature ← lenient (((← registry).resolver templates).signature (some doc) parameters)
  let f := signature.toFunctionType
  return .function {f with returnType := signature.returnType.getD .undefined}

/-- A type tag may mark the property as optional. -/
def typedDecl (templates : List String) (type : TypeExpr) (span : Span) : Collecting PropertyDecl := do
  match type with
  | ⟨.optional inner,_⟩ =>
    return {type := ← exprOrUnknown templates inner, declared := true, optional := true, span}
  | type => return {type := ← exprOrUnknown templates type, declared := true, span}

def isStub : MemberValue → Bool
  | .stub => true
  | _ => false

/-- A property without a declared type has the type of its value, and counts as declared
only if it is constant. -/
def inferredDecl (site : MemberSite) : Collecting PropertyDecl := do
  let type ← match site.value with
    | .expression e => ask ((← registry).simpleType site.constructor e)
    | _ => pure .unknown
  return {type, declared := (site.jsdoc.map (·.isConst)).getD false, span := site.span}

def memberDecl (site : MemberSite) (templates : List String) : Collecting PropertyDecl := do
  match site.value, site.jsdoc with
  | .function literal, _ => return methodDecl (← registry) literal.id site.span
  | _, none => inferredDecl site
  | value, some doc =>
    match doc.declaredType with
    | some type => typedDecl templates type site.span
    | none =>
      if doc.hasFunctionInfo && isStub value then
        return {type := ← stubFunction templates doc, declared := true, span := site.span}
      inferredDecl site

/-- Two declarations of one property: a declared one wins over an inferred one, two
declared ones have to agree, two inferred ones are joined. -/
def mergeDecls (owner name : String) (span : Span) (incoming : PropertyDecl) :
    Option PropertyDecl → Collecting PropertyDecl
  | none => pure incoming
  | some existing => do
    let registry ← registry
    let l : Lattice := {registry}
    match existing.declared, incoming.declared with
    | true, true =>
      let agree ← ask do
        if ← l.isSubtype existing.type incoming.type then l.isSubtype incoming.type existing.type
        else return false
      if !agree then
        report .redeclaredProperty ("property " ++ owner ++ "." ++ name ++ " redeclared as " ++
          registry.describe incoming.type ++ " but previously declared as " ++
          registry.describe existing.type) span
      return {existing with function := existing.function.or incoming.function}
    | true, false => return existing
    | false, true => return incoming
    | false, false => return {existing with type := ← ask (l.join existing.type incoming.type)}

def constantDecl (site : MemberSite) (decl : PropertyDecl) : Collecting PropertyDecl := do
  if (site.jsdoc.map (·.isConst)).getD false then
    if isStub site.value && !site.externs then
      report .constWithoutInitializer ("constant " ++ site.owner ++ "." ++ site.name ++ " has no initializer") site.span
    return {decl with constant := true}
  return decl

def abstractDecl (site : MemberSite) (id : NominalId) (decl : PropertyDecl) : Collecting PropertyDecl := do
  if (site.jsdoc.map (·.isAbstract)).getD false then
    let owner := (← registry).nominal id
    if owner.kind = .classType && !owner.isAbstract then
      report .abstractMethodInConcreteClass ("abstract method " ++ site.name ++
        " declared on non-abstract class " ++ owner.name) site.span
    return {decl with isAbstract := true}
  return decl

/-- A property of a structural interface that may be undefined may be missing. -/
def instanceMember (site : MemberSite) (id : NominalId) : Collecting Unit := do
  let templates := ((← registry).nominal id).typeParams
  let decl ← memberDecl site templates
  let decl ← constantDecl site decl
  let decl ← abstractDecl site id decl
  let owner := (← registry).nominal id
  let decl := if owner.kind = .record && decl.type.primitives.undefined then {decl with optional := true} else decl
  let merged ← mergeDecls site.owner site.name site.span decl (owner.properties.get? site.name)
  change (·.setProperty id site.name merged)

/-- A member that is a namespace or a typedef is left alone. -/
def namespaceMember (site : MemberSite) (id : NamespaceId) : Collecting Unit := do
  let decl ← memberDecl site []
  let decl ← constantDecl site decl
  let place (existing : Option PropertyDecl) : Collecting Unit := do
    let merged ← mergeDecls site.owner site.name site.span decl existing
    change (·.setMember id site.name (.value merged))
  match ((← registry).space id).members.get? site.name with
  | some (.value existing) => place (some existing)
  | some _ => return
  | none => place none

def member (site : MemberSite) : Collecting Unit := do
  let registry ← registry
  match registry.lookup site.owner, site.ofInstances with
  | some (.nominal id), true => instanceMember site id
  | some (.nominal id), false => namespaceMember site (registry.nominal id).statics
  | some (.space id), false => namespaceMember site id
  | _, _ => return

def members : Collecting Unit := do
  (← get).members.forM member

/-- A global variable has a declaration if it has a type tag, if it is constant, if it
holds a function that a comment describes, or if the externs only mention it. -/
def bindingDecl (site : GlobalSite) (kind : VarKind) (initializer : Option Expression) :
    Collecting (Option PropertyDecl) := do
  let isConst := kind = .constant || (site.jsdoc.map (·.isConst)).getD false
  if isConst && initializer.isNone && !site.externs then
    report .constWithoutInitializer ("constant " ++ site.name ++ " has no initializer") site.span
  match site.jsdoc.bind (·.declaredType), initializer with
  | some type, _ =>
    return some {
      type := ← exprOrUnknown [] type
      declared := true
      constant := isConst
      span := site.span }
  | none, some value =>
    if isConst then
      return some {
        type := ← ask ((← registry).simpleType none value)
        declared := true
        constant := true
        span := site.span }
    match value.kind with
    | .function literal =>
      let described (doc : Option JsDoc) : Bool := (doc.map (·.hasFunctionInfo)).getD false
      if described literal.jsdoc || described site.jsdoc then
        return some (methodDecl (← registry) literal.id site.span)
      return none
    | _ => return none
  | none, none =>
    if site.externs then return some {type := .unknown, declared := true, span := site.span}
    return none

def global (site : GlobalSite) : Collecting Unit := do
  let decl ← match site.value with
    | .function literal => do pure (some (methodDecl (← registry) literal.id site.span))
    | .binding kind initializer => bindingDecl site kind initializer
  match decl with
  | some decl => change (·.setMember .global site.name (.value decl))
  | none => return

def globals : Collecting Unit := do
  (← get).globals.forM global

end GradualJs.Collecting
