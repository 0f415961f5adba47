import GradualJs.Registry.Ancestry

/-! Subtyping, join and meet against a registry. The three need each other, and on some
registries they would never come to an end: a namespace may contain itself, and a class
may pass itself to its own superclass. So each level of nesting is a step over the
answers one level below, and a question that reaches the last level has no answer.

A nominal type that is compared by structure may mention itself. A pair of types that is
being compared is assumed to be related while its properties are looked at, and the
assumption is kept for the rest of the question. -/
namespace GradualJs

abbrev Assumptions := List (NominalId × NominalId)

/-- A question about types, with the pairs assumed so far. -/
abbrev Query := StateT Assumptions Option

structure Relations where
  /-- Whether one type fits where another is expected. With the flag, parameters of
  functions may be related in either direction. -/
  subtype : Bool → Ty → Ty → Query Bool
  join : Ty → Ty → Option Ty
  meet : Bool → Ty → Ty → Option Ty

namespace Relations

def isSubtype (below : Relations) (bivariant : Bool) (a b : Ty) : Option Bool := (below.subtype bivariant a b).run' []

def structural (below : Relations) (bivariant : Bool) (source : List Field) (sourceLoose : Bool)
    (target : List Field) (targetLoose : Bool) : Query Bool :=
  target.allM fun expected =>
    match Field.find? source expected.name with
    | some found =>
      if found.optional && !expected.optional then pure false
      else do
        let type ← if expected.optional then StateT.lift (below.join expected.type .undefined)
          else pure expected.type
        below.subtype bivariant found.type type
    | none => pure (expected.optional || sourceLoose || targetLoose)

def instanceSubtype (r : Registry) (below : Relations) (bivariant : Bool) (source target : Instance) : Query Bool :=
  match r.upcast source target.id with
  | some viewed =>
    (padArgs viewed.args target.args).allM fun (a,b) => below.subtype bivariant a b
  | none =>
    if (r.nominal target.id).kind ≠ .record then pure false
    else do
      let assumed ← get
      if assumed.contains (source.id,target.id) then return true
      set ((source.id,target.id) :: assumed)
      below.structural bivariant (r.instanceFields source) false (r.instanceFields target) false

def structuralToNominal (r : Registry) (below : Relations) (bivariant : Bool) (source : Obj)
    (target : Instance) : Query Bool :=
  let (fields,loose) := r.fieldsOf source
  below.structural bivariant fields loose (r.instanceFields target) false

def paramFits (below : Relations) (bivariant : Bool) (sub sup : Ty) : Query Bool := do
  if ← below.subtype bivariant sup sub then return true
  if bivariant then below.subtype bivariant sub sup else return false

def optionalParamFits (below : Relations) (bivariant : Bool) : Option Ty → Option Ty → Query Bool
  | some sub, some sup => below.paramFits bivariant sub sup
  | _, _ => pure true

/-- Whether a function with the first bounds may be called wherever one with the second
may be. -/
def arityFits (f g : FunctionType) : Bool :=
  f.minArity ≤ g.minArity && match f.maxArity, g.maxArity with
    | some most, some wanted => wanted ≤ most
    | some _, none => false
    | none, _ => true

def constructsFit (below : Relations) (bivariant : Bool) : Option Ty → Option Ty → Query Bool
  | some a, some b => below.subtype bivariant a b
  | none, none => pure true
  | _, _ => pure false

def plainFunctionSubtype (below : Relations) (bivariant : Bool) (f g : FunctionType) : Query Bool := do
  if !(← below.constructsFit bivariant f.constructs g.constructs) then return false
  if !arityFits f g then return false
  let count := max f.positionalLength g.positionalLength
  if !(← (List.range count).allM fun index =>
    below.optionalParamFits bivariant (f.param index) (g.param index)) then return false
  if !(← below.optionalParamFits bivariant f.rest g.rest) then return false
  if !(← below.optionalParamFits bivariant f.receiver g.receiver) then return false
  below.subtype bivariant f.returnType g.returnType

/-- A loose function fits everywhere; variables that a function binds are unknown. -/
def functionSubtype (below : Relations) (bivariant : Bool) (f g : FunctionType) : Query Bool :=
  if f.loose || g.loose then pure true
  else below.plainFunctionSubtype bivariant f.eraseTypeParams g.eraseTypeParams

def objectSubtype (r : Registry) (below : Relations) (bivariant : Bool) (a b : Obj) : Query Bool :=
  match a, b with
  | .nominal source, .nominal target =>
    if target.id = .object then pure true
    else instanceSubtype r below bivariant source target
  | .function _, .nominal target => pure (target.id = .object || target.id = .function)
  | .namespaceValue id, .nominal target =>
    if target.id = .object then pure true
    else if target.id = .function then pure (r.isConstructorNamespace id)
    else structuralToNominal r below bivariant a target
  | .record record, .nominal target =>
    if target.id = .object then pure true
    else if (r.nominal target.id).kind = .record || record.loose then
      structuralToNominal r below bivariant a target
    else pure false
  | .nominal source, .function target => pure (source.id = .function && target.loose)
  | .function f, .function g => below.functionSubtype bivariant f g
  | .namespaceValue id, .function target =>
    match r.constructorOf id with
    | some (_,constructor) =>
      if target.loose then pure true else below.functionSubtype bivariant constructor target
    | none => pure false
  | .namespaceValue x, .namespaceValue y => pure (x = y)
  | source, .record target =>
    let (fields,loose) := r.fieldsOf source
    below.structural bivariant fields loose target.fields target.loose
  | _, _ => pure false

def subtypeUnions (r : Registry) (below : Relations) (bivariant : Bool) (u v : Union) : Query Bool := do
  if !v.primitives.contains u.primitives then return false
  if !u.vars.all v.vars.contains then return false
  if !(← u.enums.allM fun id =>
    if v.enums.contains id then pure true
    else below.subtype bivariant (r.enumBacking id) (.union v)) then return false
  u.objects.allM fun a => v.objects.anyM fun b => objectSubtype r below bivariant a b

def subtypeStep (r : Registry) (below : Relations) (bivariant : Bool) : Ty → Ty → Query Bool
  | .bottom, _ => pure true
  | _, .top | _, .unknown | .unknown, _ => pure true
  | .top, _ | _, .bottom => pure false
  | .union u, .union v => subtypeUnions r below bivariant u v

/-- Of two instances one of which is a subtype of the other the wider one stays; classes
with a common superclass are joined there. -/
def joinDistinct (r : Registry) (below : Relations) (x y : Instance) : Option (Option Obj) := do
  let (fits,assumed) ← (instanceSubtype r below false x y).run []
  if fits then return some (.nominal y)
  let (fits,_) ← (instanceSubtype r below false y x).run assumed
  if fits then return some (.nominal x)
  match (do
    let ancestor ← r.commonSuperclass x.id y.id
    let left ← r.upcast x ancestor
    let right ← r.upcast y ancestor
    return (left,right)) with
  | some (left,right) => return some (.nominal (← joinInstances below.join left right))
  | none => return none

def absorbEnums (r : Registry) (below : Relations) (u : Union) : Option Union :=
  let rest := Ty.ofUnion {u with enums := []}
  if u.enums.isEmpty || rest.isBottom then some u
  else do
    let enums ← u.enums.filterM fun id => do
      return !(← below.isSubtype false (r.enumBacking id) rest)
    return {u with enums}

def mergeRules (r : Registry) (below : Relations) : MergeRules Option where
  join := below.join
  meet := below.meet false
  distinct := joinDistinct r below
  settle := absorbEnums r below

def meetInstances (below : Relations) (bivariant : Bool) (x y : Instance) : Option (Option Instance) := do
  let args ← meetArgs (padArgs x.args y.args)
  return args.map (⟨x.id,·⟩)
where
  /-- No value has an argument of type bottom. -/
  meetArgs : List (Ty × Ty) → Option (Option (List Ty))
    | [] => some (some [])
    | (a,b) :: rest => do
      let arg ← below.meet bivariant a b
      if arg.isBottom then return none
      return (← meetArgs rest).map (arg :: ·)

/-- The properties of the left record that stay, or nothing if one cannot be had. -/
def meetFields (below : Relations) (bivariant : Bool) (y : Record) : List Field → Option (Option (List Field))
  | [] => some (some [])
  | f :: rest => do
    match Field.find? y.fields f.name with
    | some g =>
      let type ← below.meet bivariant f.type g.type
      if type.isBottom && !(f.optional && g.optional) then return none
      let field : Field := {
        name := f.name
        type
        optional := f.optional && g.optional
        declared := f.declared || g.declared
        constant := f.constant || g.constant }
      return (← meetFields below bivariant y rest).map (field :: ·)
    | none =>
      if y.exact && !f.optional then return none
      return (← meetFields below bivariant y rest).map (f :: ·)

def meetRecords (below : Relations) (bivariant : Bool) (x y : Record) : Option (Option Record) := do
  match ← meetFields below bivariant y x.fields with
  | none => return none
  | some left =>
    let right := y.fields.filter fun g => (Field.find? x.fields g.name).isNone
    if x.exact && right.any (!·.optional) then return none
    return some ⟨left ++ right,x.exact || y.exact,x.loose && y.loose⟩

/-- The smaller of two objects that are comparable. An instance meets a loose record in
itself. -/
def meetComparable (r : Registry) (below : Relations) (bivariant : Bool) (a b : Obj) : Option (Option Obj) := do
  let (fits,assumed) ← (objectSubtype r below bivariant a b).run []
  if fits then return some a
  let (fits,_) ← (objectSubtype r below bivariant b a).run assumed
  if fits then return some b
  match a, b with
  | .nominal _, .record record => return if record.loose then some a else none
  | .record record, .nominal _ => return if record.loose then some b else none
  | _, _ => return none

def meetObjects (r : Registry) (below : Relations) (bivariant : Bool) (a b : Obj) : Option (Option Obj) :=
  match a, b with
  | .nominal x, .nominal y =>
    if x.id = y.id then (·.map .nominal) <$> meetInstances below bivariant x y
    else meetComparable r below bivariant a b
  | .record x, .record y => (·.map .record) <$> meetRecords below bivariant x y
  | .namespaceValue x, .namespaceValue y => some (if x = y then some a else none)
  | .function f, .function g =>
    if Ty.sameFunction f g then some (some a) else meetComparable r below bivariant a b
  | _, _ => meetComparable r below bivariant a b

def meetUnions (r : Registry) (below : Relations) (bivariant : Bool) (u v : Union) : Option Ty := do
  let left ← u.enums.filterM fun id =>
    if v.enums.contains id then some true
    else below.isSubtype bivariant (.enumMember id) (.union v)
  let right ← v.enums.filterM fun id =>
    if left.contains id then some false
    else below.isSubtype bivariant (.enumMember id) (.union u)
  let met ← u.objects.mapM fun a => v.objects.filterMapM fun b => meetObjects r below bivariant a b
  return .ofUnion {
    primitives := u.primitives.inter v.primitives
    enums := stableSort (fun a b => a.index ≤ b.index) (left ++ right)
    vars := u.vars.filter v.vars.contains
    objects := ← normalizeObjects (mergeRules r below).combine met.flatten }

def meetStep (r : Registry) (below : Relations) (bivariant : Bool) : Ty → Ty → Option Ty
  | .bottom, _ | _, .bottom => some .bottom
  | .top, t | t, .top => some t
  | .unknown, t | t, .unknown => some t
  | .union u, .union v => meetUnions r below bivariant u v

def exhausted : Relations where
  subtype _ _ _ := StateT.lift none
  join _ _ := none
  meet _ _ _ := none

def step (r : Registry) (below : Unit → Relations) : Relations where
  subtype bivariant a b := subtypeStep r (below ()) bivariant a b
  join a b := (mergeRules r (below ())).joinStep a b
  meet bivariant a b := meetStep r (below ()) bivariant a b

/-- The relations for types and declarations nested at most `depth` levels. -/
def within (r : Registry) : Nat → Relations
  | 0 => exhausted
  | depth + 1 => step r fun _ => within r depth

end Relations
end GradualJs
