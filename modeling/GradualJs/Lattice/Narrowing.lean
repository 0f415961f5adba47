import GradualJs.Lattice.Basic

/-! Narrowing: what is left of a type once a test has succeeded or failed. -/
namespace GradualJs

inductive TypeTag where
  | number
  | string
  | boolean
  | undefined
  | object
  | function
  deriving DecidableEq

namespace TypeTag

def ofName? : String → Option TypeTag
  | "number" => some .number
  | "string" => some .string
  | "boolean" => some .boolean
  | "undefined" => some .undefined
  | "object" => some .object
  | "function" => some .function
  | _ => none

def primitives : TypeTag → PrimitiveSet
  | .number => .numberOnly
  | .string => .stringOnly
  | .boolean => .boolean
  | .undefined => .undefinedOnly
  | .object => .nullOnly
  | .function => .empty

def toType : TypeTag → Ty
  | .function => .function .any
  | .object => .union {primitives := .nullOnly, objects := [.nominal Registry.objectInstance]}
  | tag => .primitive tag.primitives

end TypeTag

namespace Lattice

/-- A test against an unrelated type may still succeed if nothing is known of the value
but that it is an object, or if it has an interface type. -/
def plausiblyRelated (l : Lattice) (given test : Union) : Bool :=
  !test.objects.isEmpty && given.objects.any fun
    | .nominal i => i.id = .object || (l.registry.nominal i.id).kind.isInterface
    | .record r => r.loose
    | _ => false

/-- The smaller of two instances. Of unrelated ones an interface gives way. -/
def specializeInstances (l : Lattice) (source target : Instance) : Option (Option Obj) := do
  let (fits,assumed) ← (l.instanceSubtype source target).run []
  if fits then return some (.nominal source)
  let (fits,_) ← (l.instanceSubtype target source).run assumed
  if fits then return some (.nominal target)
  if (l.registry.nominal source.id).kind.isInterface then return some (.nominal target)
  if (l.registry.nominal target.id).kind.isInterface then return some (.nominal source)
  return none

def specializeFunctions (l : Lattice) (f g : FunctionType) : Option (Option Obj) := do
  if g.loose then return some (.function f)
  if f.loose then return some (.function g)
  let (fits,assumed) ← (l.functionSubtype f g).run []
  if fits then return some (.function f)
  let (fits,_) ← (l.functionSubtype g f).run assumed
  if fits then return some (.function g)
  return none

/-- Keeps an object if it fits the tested one, or if the test says nothing about it. -/
def keepIfFits (l : Lattice) (kept a b : Obj) (anyway : Bool) : Option (Option Obj) := do
  if anyway then return some kept
  let fits ← (l.objectSubtype a b).run' []
  return if fits then some kept else none

def specializeEnums (l : Lattice) (o t : Union) : List EnumId :=
  let backing (id : EnumId) : PrimitiveSet := (l.registry.enumBacking id).primitives
  let kept := o.enums.filter fun id => t.enums.contains id || t.primitives.intersects (backing id)
  let gained := t.enums.filter fun id =>
    !kept.contains id && o.primitives.intersects (backing id)
  stableSort (fun a b => a.index ≤ b.index) (kept ++ gained)

/-- A variable that the test does not name may be any tested value. -/
def specializeUnions (l : Lattice) (o t : Union) (objects : List Obj) : Option Ty := do
  let narrowsVar := o.vars.any (!t.vars.contains ·)
  let common := o.primitives.inter t.primitives
  let result := Ty.ofUnion {
    primitives := if narrowsVar then common.union t.primitives else common
    enums := l.specializeEnums o t
    vars := o.vars.filter t.vars.contains
    objects := ← l.normalize (if narrowsVar then objects ++ t.objects else objects) }
  return if result.isBottom && l.plausiblyRelated o t then .ofUnion {objects := t.objects}
    else result

/-- What a tested object leaves of an object, when the test is not a record of its own. -/
def specializeObject (l : Lattice) (given test : Obj) : Option (Option Obj) :=
  match given, test with
  | .nominal source, .nominal target =>
    if target.id = .object then some (some given)
    else if source.id = .object then some (some test)
    else l.specializeInstances source target
  | .nominal source, .record record =>
    if source.id = .object then some (some test)
    else l.keepIfFits given given test (record.loose || l.registry.accessOf source.id = .unrestricted)
  | .nominal source, .function _ =>
    some (if source.id = .object || source.id = .function then some test else none)
  | .nominal source, .namespaceValue _ => some (if source.id = .object then some test else none)
  | .record record, .nominal target =>
    if target.id = .object then some (some given)
    else l.keepIfFits test test given record.loose
  | .function _, .nominal target =>
    some (if target.id = .object || target.id = .function then some given else none)
  | .function f, .function g => l.specializeFunctions f g
  | .namespaceValue x, .namespaceValue y => some (if x = y then some given else none)
  | .namespaceValue _, .nominal target => l.keepIfFits given given test (target.id = .object)
  | .namespaceValue _, .record record => l.keepIfFits given given test record.loose
  | .namespaceValue _, .function _ => l.keepIfFits given given test false
  | _, _ => some none

mutual
def specialize (l : Lattice) (given : Ty) : Ty → Option Ty
  | .top | .unknown => some given
  | .bottom => some .bottom
  | .union t =>
    match given with
    | .bottom => some .bottom
    | .unknown | .top => some (.union t)
    | .union o => do
      if ← l.isSubtype given (.union t) then return given
      let objects ← o.objects.mapM fun left => specializeUnion l left t
      l.specializeUnions o t objects.flatten
termination_by structural test => test
def specializeUnion (l : Lattice) (given : Obj) : Union → Option (List Obj)
  | ⟨_,_,_,objects⟩ => specializeTests l given objects
termination_by structural tests => tests
def specializeTests (l : Lattice) (given : Obj) : List Obj → Option (List Obj)
  | [] => some []
  | test :: rest => do
    let first ← specializeTest l given test
    return first.toList ++ (← specializeTests l given rest)
termination_by structural tests => tests
def specializeTest (l : Lattice) (given : Obj) : Obj → Option (Option Obj)
  | .record y =>
    match given with
    | .record x => do return (← specializeRecord l x y).map .record
    | _ => l.specializeObject given (.record y)
  | .nominal i => l.specializeObject given (.nominal i)
  | .function f => l.specializeObject given (.function f)
  | .namespaceValue id => l.specializeObject given (.namespaceValue id)
termination_by structural test => test
def specializeRecord (l : Lattice) (x : Record) : Record → Option (Option Record)
  | ⟨fields,_,loose⟩ => do
    return (← specializeFields l x x.fields fields).map (⟨·,x.exact,x.loose && loose⟩)
termination_by structural test => test
def specializeFields (l : Lattice) (x : Record) (done : List Field) : List Field → Option (Option (List Field))
  | [] => some (some done)
  | test :: rest => do
    match ← specializeField l x test with
    | none => return none
    | some none => specializeFields l x done rest
    | some (some field) => specializeFields l x (Field.put field done) rest
termination_by structural tests => tests
/-- The narrowed property, nothing to change, or no record at all. -/
def specializeField (l : Lattice) (x : Record) : Field → Option (Option (Option Field))
  | ⟨name,type,optional,declared,constant⟩ =>
    match Field.find? x.fields name with
    | some existing => do
      let narrowed ← specialize l existing.type type
      if narrowed.isBottom && !existing.optional then return none
      return some (some {existing with type := narrowed, optional := existing.optional && optional})
    | none =>
      if x.exact then some (if optional then some none else none)
      else some (some (some ⟨name,type,optional,declared,constant⟩))
termination_by structural test => test
end

def exclude (l : Lattice) (given removed : Ty) : Option Ty :=
  match given, removed with
  | .unknown, _ | .top, _ => some given
  | .bottom, _ => some .bottom
  | _, .bottom | _, .unknown => some given
  | _, .top => some .bottom
  | .union o, .union r => do
    let objects ← (o.objects.filterM fun object => do
      return !(← r.objects.anyM fun other => l.objectSubtype object other)).run' []
    return .ofUnion {
      primitives := o.primitives.without r.primitives
      enums := o.enums.filter (!r.enums.contains ·)
      vars := o.vars.filter (!r.vars.contains ·)
      objects }

def falsyPrimitives : PrimitiveSet := {PrimitiveSet.all with trueValue := false}

def falsy (l : Lattice) : Ty → Ty
  | .union u => .ofUnion {
      primitives := u.primitives.inter falsyPrimitives
      enums := u.enums.filter fun id =>
        (l.registry.enumBacking id).primitives.intersects falsyPrimitives
      vars := u.vars }
  | t => t

def isFunctionObject (l : Lattice) : Obj → Bool
  | .function _ => true
  | .nominal i => i.id = .function
  | .namespaceValue id => l.registry.isConstructorNamespace id
  | .record _ => false

def objectHasTag (l : Lattice) (tag : TypeTag) (o : Obj) : Bool :=
  match tag with
  | .function => l.isFunctionObject o
  | .object => !l.isFunctionObject o
  | _ => false

/-- What is left of an object when `typeof` gives the tag, or when it does not. Any object
may turn out to be a function. -/
def narrowObject (l : Lattice) (tag : TypeTag) (positive : Bool) (o : Obj) : Option Obj :=
  let isObject : Bool := match o with
    | .nominal i => i.id = .object
    | _ => false
  if isObject then
    match tag, positive with
    | .function, true => some (.function .any)
    | .object, _ | .function, false => some o
    | _, false => some o
    | _, true => none
  else if l.objectHasTag tag o = positive then some o
  else none

def narrowTypeof (l : Lattice) (tag : TypeTag) (positive : Bool) : Ty → Option Ty
  | .bottom => some .bottom
  | .unknown => some (if positive then tag.toType else .unknown)
  | .top => some (if positive then tag.toType else .top)
  | .union u => do
    let objects := u.objects.filterMap (l.narrowObject tag positive)
    let gained : Union := if positive && !u.vars.isEmpty then tag.toType.members?.getD {} else {}
    let kept := if positive then u.primitives.inter tag.primitives
      else u.primitives.without tag.primitives
    return .ofUnion {
      primitives := kept.union gained.primitives
      enums := u.enums.filter fun id =>
        (l.registry.enumBacking id).primitives.intersects tag.primitives = positive
      vars := if positive then [] else u.vars
      objects := ← l.normalize (objects ++ gained.objects) }

end Lattice
end GradualJs
