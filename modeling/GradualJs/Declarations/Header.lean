import GradualJs.Declarations.Register
import GradualJs.Declarations.SimpleType
import GradualJs.Registry.Describe

/-! Typedefs, enums, and what nominal types inherit from. -/
namespace GradualJs

/-- The passes after registration; they have no answer when types are nested too deep. -/
abbrev Collecting := StateT Collection Option

namespace Collecting

def report (kind : DiagnosticKind) (message : String) (span : Span) : Collecting Unit :=
  modify (·.report kind message span)

def ask (answer : Option α) : Collecting α := StateT.lift answer
def registry : Collecting Registry := return (← get).registry

def change (f : Registry → Registry) : Collecting Unit :=
  modify fun c => {c with registry := f c.registry}

def attempt (resolution : Resolve α) : Collecting (Option α) := do
  match ← ask resolution.run with
  | .ok a => return some a
  | .error e =>
    modify fun c => {c with diagnostics := c.diagnostics ++ [e.toDiagnostic]}
    return none

def exprOrUnknown (templates : List String) (e : TypeExpr) : Collecting Ty := do
  return (← attempt (((← registry).resolver templates).expr e)).getD .unknown

def typedef (id : TypedefId) (hasMeaning : Bool) : Collecting Unit := do
  let registry ← registry
  let type ← if hasMeaning then pure ((← attempt (registry.resolveTypedef id)).getD .unknown)
    else do
      let decl := registry.typedef id
      report .malformedTypedef ("typedef " ++ decl.name ++ " has no type") decl.span
      pure .unknown
  change (·.modifyTypedef id ({· with resolved := some type}))

def typedefs : Collecting Unit := do
  (← get).typedefs.forM fun (id,hasMeaning) => typedef id hasMeaning

def isBackingType (t : Ty) : Bool :=
  t.isScalarOnly && !t.primitives.isEmpty && (t.memberCount ≤ 1 || t.isPrimitive .boolean)

def enumBacking (name : String) (site : EnumSite) : Collecting Ty := do
  let declared ← match site.jsdoc.enumType with
    | some e => do pure (← exprOrUnknown [] e).withoutNullOrUndefined
    | none => pure .number
  if isBackingType declared then return declared
  report .invalidEnumBackingType
    ("enum " ++ name ++ " cannot be backed by " ++ (← registry).describe declared) site.span
  return .unknown

def enumMembers (name : String) (backing : Ty) :
    Table String Span → List ObjectProperty → Collecting (Table String Span)
  | done, [] => pure done
  | done, p :: rest => do
    if done.contains p.key then
      report .duplicateEnumKey ("enum " ++ name ++ " declares " ++ p.key ++ " twice") p.span
      enumMembers name backing done rest
    else
      let registry ← registry
      let type ← ask (registry.simpleType none p.value)
      let fits ← if type.isUnknown then pure true
        else ask (Lattice.isSubtype {registry} type backing)
      if !fits then
        report .enumMemberTypeMismatch ("enum member " ++ name ++ "." ++ p.key ++ " has type " ++
          registry.describe type ++ " but the enum is backed by " ++ registry.describe backing)
          p.value.span
      enumMembers name backing (done.insert p.key p.span) rest

def enumType (site : EnumSite) : Collecting Unit := do
  let name := ((← registry).enumDecl site.id).name
  let backing ← enumBacking name site
  let notAnObject : Collecting (Table String Span) := do
    report .enumInitializerNotObjectLiteral ("enum " ++ name ++ " must be initialized with an object literal") site.span
    return {}
  let members ← match site.initializer with
    | some ⟨_,.object properties⟩ => enumMembers name backing {} properties
    | none => if site.externs then pure {} else notAnObject
    | some _ => notAnObject
  change (·.modifyEnum site.id ({· with backing, members}))

def enums : Collecting Unit := do
  (← get).enums.forM enumType

def taggedSuperclass (name : String) (span : Span) (resolver : Resolver) : List TypeExpr → Collecting (Option Instance)
  | [] => pure none
  | tag :: others => do
    if !others.isEmpty then
      report .conflictingExtendedType ("class " ++ name ++ " may extend only one class") span
    match ← attempt (resolver.nominalReference tag) with
    | none => return none
    | some parent =>
      let parentDecl := resolver.registry.nominal parent.id
      if parentDecl.kind = .classType then return some parent
      report .conflictingExtendedType ("class " ++ name ++ " cannot extend interface " ++ parentDecl.name) tag.span
      return none

/-- The superclass that the code of a class names. It has to agree with the tag. -/
def writtenSuperclass (name : String) (r : Registry) (tagged : Option Instance)
    (e : Expression) : Collecting (Option Instance) := do
  let conflict (message : String) : Collecting Unit := report .conflictingExtendedType message e.span
  match e.qualifiedName.bind r.nominalNamed?, tagged with
  | none, _ =>
    conflict ("class " ++ name ++ " extends something that is not a class")
    return tagged
  | some parent, some declared =>
    if declared.id ≠ parent then
      conflict ("class " ++ name ++ " extends " ++ (r.nominal parent).name ++
        " but is annotated as extending " ++ (r.nominal declared.id).name)
    return tagged
  | some parent, none =>
    if (r.nominal parent).kind = .classType then return some (r.rawInstance parent)
    conflict ("class " ++ name ++ " cannot extend interface " ++ (r.nominal parent).name)
    return none

def taggedInterfaces (resolver : Resolver) (kind : DiagnosticKind)
    (message : TypeExpr → Instance → String) : List TypeExpr → Collecting (List Instance)
  | [] => pure []
  | tag :: rest => do
    let found ← attempt (resolver.nominalReference tag)
    let kept ← match found with
      | none => pure []
      | some i =>
        if (resolver.registry.nominal i.id).kind.isInterface then pure [i]
        else do
          report kind (message tag i) tag.span
          pure []
    return kept ++ (← taggedInterfaces resolver kind message rest)

def classHeader (site : NominalSite) (decl : Nominal) (resolver : Resolver) :
    Collecting (Option Instance × List Instance) := do
  let name := decl.name
  let extended := (site.jsdoc.map (·.supertypes)).getD []
  let implemented := (site.jsdoc.map (·.interfaces)).getD []
  let tagged ← taggedSuperclass name decl.span resolver extended
  let superclass ← match site.source with
    | .classDecl {superclass := some e, ..} =>
      writtenSuperclass name resolver.registry tagged e
    | _ => pure tagged
  let interfaces ← taggedInterfaces resolver .implementsNonInterface
    (fun tag _ => name ++ " implements " ++ tag.label ++ ", which is not an interface") implemented
  return (superclass,interfaces)

def interfaceHeader (site : NominalSite) (decl : Nominal) (resolver : Resolver) :
    Collecting (Option Instance × List Instance) := do
  let name := decl.name
  let extended := (site.jsdoc.map (·.supertypes)).getD []
  let implemented := (site.jsdoc.map (·.interfaces)).getD []
  if !implemented.isEmpty then
    report .misplacedTag ("interface " ++ name ++ " cannot use @implements") decl.span
  let interfaces ← taggedInterfaces resolver .conflictingExtendedType
    (fun _ i => "interface " ++ name ++ " cannot extend class " ++ (resolver.registry.nominal i.id).name) extended
  return (none,interfaces)

/-- A class with a superclass leaves access to it, unless a tag says otherwise. -/
def header (site : NominalSite) : Collecting Unit := do
  let registry ← registry
  let decl := registry.nominal site.id
  let resolver := registry.resolver decl.typeParams
  let isClass := decl.kind = .classType
  let (superclass,interfaces) ← if isClass then classHeader site decl resolver
    else interfaceHeader site decl resolver
  let opens := isClass && !site.explicitAccess && superclass.isSome
  change (·.modifyNominal site.id fun n => { n with
    superclass
    interfaces
    access := if opens then .unrestricted else n.access })

def headers : Collecting Unit := do
  (← get).nominals.forM header

/-- A type inherits from itself when one of its ancestors, or the type itself, has it as a
supertype. -/
def inheritsItself (r : Registry) (id : NominalId) : Bool :=
  (r.reachable id).any fun ancestor => (r.nominal ancestor).supertypes.any (·.id = id)

def breakCycle (id : NominalId) : Collecting Unit := do
  let registry ← registry
  if inheritsItself registry id then
    let decl := registry.nominal id
    report .inheritanceCycle (decl.name ++ " inherits from itself") decl.span
    change (·.modifyNominal id ({· with superclass := none, interfaces := []}))

def breakCycles : Collecting Unit := do
  (← get).nominals.forM fun site => breakCycle site.id

end Collecting
end GradualJs
