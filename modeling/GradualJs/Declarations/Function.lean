import GradualJs.Declarations.Header

/-! The declared signatures of function literals. -/
namespace GradualJs.Collecting

/-- A function literal assigned to a property of the instances of a type is its method. -/
def bindMethodOwners : Collecting Unit :=
  modify fun c => { c with
    methodOwners := c.members.foldl (fun owners site =>
      match site.value,site.ofInstances,c.registry.nominalNamed? site.owner with
      | .function literal,true,some owner => owners.insert literal.id owner
      | _,_,_ => owners) c.methodOwners }

def lenient (resolution : Resolver.Lenient α) : Collecting α := do
  let (a,errors) ← ask (resolution.run [])
  modify fun c => {c with diagnostics := c.diagnostics ++ errors.map (·.toDiagnostic)}
  return a

def functionName (r : Registry) (literal : FunctionLiteral) (owner : Option NominalId) : String :=
  match literal.name, owner with
  | some name, _ => name
  | none, some owner => (r.nominal owner).name
  | none, none => s!"<anonymous@{literal.span.line}>"

/-- Template variables that a function binds itself. They are told apart from those of
other functions of the same name by the number of the literal. -/
def ownTemplates (name : String) (literal : FunctionLiteral) : List String :=
  ((literal.jsdoc.map (·.templates)).getD []).map (Name.qualify (name ++ s!"@{literal.id}"))

/-- The signature with what the owner adds: a constructor builds instances of it, a method
is called on one. -/
def ownedSignature (r : Registry) (owner : Option NominalId) (isConstructor : Bool)
    (templates : List String) (s : Signature) : Signature :=
  match owner with
  | none => {s with typeParams := templates}
  | some owner =>
    let self := r.selfType owner
    if isConstructor then { s with
      constructs := some self
      receiver := some self
      typeParams := (r.nominal owner).typeParams }
    else {s with receiver := s.receiver.or (some self), typeParams := templates}

/-- Resolves the signature of one literal. The result are the variables in scope inside
it. -/
def functionLiteral (templates : List String) (externs : Bool) (literal : FunctionLiteral) :
    Collecting (List String) := do
  let c ← get
  let constructed := c.constructors.get? literal.id
  let isConstructor := constructed.isSome
  let owner := constructed.or (c.methodOwners.get? literal.id)
  let name := functionName c.registry literal owner
  let own := if isConstructor then [] else ownTemplates name literal
  let inherited := (owner.map fun o => (c.registry.nominal o).typeParams).getD []
  let scope := templates ++ inherited ++ own
  let declared ← lenient ((c.registry.resolver scope).signature literal.jsdoc literal.parameters)
  let signature := ownedSignature c.registry owner isConstructor own declared
  match constructed with
  | some owner => change (·.modifyNominal owner ({· with constructor := some signature.toFunctionType}))
  | none => pure ()
  change (·.addFunction {id := literal.id, name, signature, owner, fromExterns := externs, span := literal.span})
  return scope

mutual
def functions (templates : List String) (externs : Bool) : List Node → Collecting Unit
  | [] => pure ()
  | node :: rest => do
    function templates externs node
    functions templates externs rest

def function (templates : List String) (externs : Bool) : Node → Collecting Unit
  | .function literal inner => do
    let scope ← functionLiteral templates externs literal
    functions scope externs inner
  | .statement _ | .expression _ => pure ()
end

/-- A class without a constructor takes the formals of the nearest one above it. -/
def inheritConstructor (id : NominalId) : Collecting Unit := do
  let registry ← registry
  let decl := registry.nominal id
  if decl.constructor.isNone && decl.kind = .classType then
    match (registry.superclassChain id).tail.findSome? fun a => (registry.nominal a).constructor with
    | none => return
    | some inherited =>
      let self := registry.selfType id
      change (·.modifyNominal id ({ · with constructor := some { inherited with
        constructs := some self
        receiver := some self
        typeParams := decl.typeParams } }))

def inheritConstructors : Collecting Unit := do
  (← get).nominals.forM fun site => inheritConstructor site.id

end GradualJs.Collecting
