import GradualJs.Registry.Ancestry
import GradualJs.Registry.Describe
import GradualJs.Syntax.ToJson

/-! Types and declarations as JSON. Declared things appear under their names, and a union
lists its parts in the order in which it holds them. -/
namespace GradualJs.Registry

open Json (nat strings optional tagged)

def marks (all : List (Bool × String)) : Json := .string (String.join ((all.filter (·.1)).map (·.2)))

def nonEmpty (key : String) (items : List Json) : List (String × Json) :=
  if items.isEmpty then [] else [(key,.array items)]

def primitivesToJson (set : PrimitiveSet) : List Json :=
  let names := ["null", "undefined", "true", "false", "number", "string"]
  ((PrimitiveSet.tags.zip names).filter (set.contains ·.1)).map (.string ·.2)

mutual
def typeToJson (r : Registry) : Ty → Json
  | .bottom => .string "bottom"
  | .top => .string "top"
  | .unknown => .string "unknown"
  | .union u => unionToJson r u
def unionToJson (r : Registry) : Union → Json
  | ⟨primitives,enums,vars,objects⟩ => .object (nonEmpty "prims" (primitivesToJson primitives) ++
    nonEmpty "enums" (enums.map fun id => .string (r.enumDecl id).name) ++
    nonEmpty "vars" (vars.map .string) ++
    nonEmpty "objects" (objectsToJson r objects))
def objectsToJson (r : Registry) : List Obj → List Json
  | [] => []
  | o :: rest => objectToJson r o :: objectsToJson r rest
def objectToJson (r : Registry) : Obj → Json
  | .nominal i => instanceToJson r i
  | .record record => recordToJson r record
  | .function f => tagged "function" (functionToJson r f)
  | .namespaceValue id => tagged "namespace" (.string (r.space id).name)
def instanceToJson (r : Registry) : Instance → Json
  | ⟨id,args⟩ =>
    .object [("instance",.string (r.nominal id).name),("args",.array (typesToJson r args))]
def recordToJson (r : Registry) : Record → Json
  | ⟨fields,exact,loose⟩ =>
    .object [("record",.array (fieldsToJson r fields)),("exact",.bool exact),("loose",.bool loose)]
def fieldsToJson (r : Registry) : List Field → List Json
  | [] => []
  | f :: rest => fieldToJson r f :: fieldsToJson r rest
def fieldToJson (r : Registry) : Field → Json
  | ⟨name,type,isOptional,declared,constant⟩ =>
    .array [.string name,typeToJson r type,marks [(isOptional, "o"),(declared, "d"),(constant, "c")]]
def functionToJson (r : Registry) : FunctionType → Json
  | ⟨required,opt,rest,returnType,receiver,constructs,typeParams,loose⟩ =>
    .object [("required",.array (typesToJson r required)),("optional",.array (typesToJson r opt)),
      ("rest",optionalTypeToJson r rest),("ret",typeToJson r returnType),
      ("this",optionalTypeToJson r receiver),("new",optionalTypeToJson r constructs),
      ("type_params",strings typeParams),("loose",.bool loose)]
def typesToJson (r : Registry) : List Ty → List Json
  | [] => []
  | t :: rest => typeToJson r t :: typesToJson r rest
def optionalTypeToJson (r : Registry) : Option Ty → Json
  | none => .null
  | some t => typeToJson r t
end

def describedToJson (r : Registry) (t : Ty) : Json := .object [("text",.string (r.describe t)),("type",r.typeToJson t)]

def propertyToJson (r : Registry) (name : String) (p : PropertyDecl) : Json :=
  .object [("name",.string name),("text",.string (r.describe p.type)),("type",r.typeToJson p.type),
    ("flags",marks [(p.optional, "o"),(p.declared, "d"),(p.constant, "c"),(p.isAbstract, "a")]),
    ("function",optional nat p.function),("span",p.span.toJson)]

def memberToJson (r : Registry) (name : String) : Member → Json
  | .value decl => r.propertyToJson name decl
  | .inner id => .object [("name",.string name),("namespace",.string (r.space id).name), ("id",nat id.index)]
  | .typedef id => .object [("name",.string name),("typedef",.string (r.typedef id).name)]

def nominalKindTag : NominalKind → String
  | .classType => "class"
  | .interface => "interface"
  | .record => "record"

def nominalFields (r : Registry) (id : NominalId) : List (String × Json) :=
  let n := r.nominal id
  [("id",nat id.index),("name",.string n.name),("kind",.string (nominalKindTag n.kind)),
    ("type_params",strings n.typeParams),
    ("superclass",optional r.instanceToJson n.superclass),
    ("interfaces",.array (n.interfaces.map r.instanceToJson)),
    ("properties",.array (n.properties.entries.map fun (name,p) => r.propertyToJson name p)),
    ("access",.string n.access.tag),("effective_access",.string (r.accessOf id).tag),
    ("abstract",.bool n.isAbstract),("constructor",optional r.functionToJson n.constructor),
    ("statics",nat n.statics.index),("builtin",.bool n.builtin),("span",n.span.toJson)]

def nominalToJson (r : Registry) (id : NominalId) : Json := .object (r.nominalFields id)

def paramKindTag : ParamKind → String
  | .required => "required"
  | .optional => "optional"
  | .rest => "rest"

def signatureToJson (r : Registry) (s : Signature) : Json :=
  .object [
    ("params",.array (s.params.map fun p =>
      .array [.string p.name,r.optionalTypeToJson p.type,.string (paramKindTag p.kind)])),
    ("function",r.functionToJson s.toFunctionType),
    ("declared_return",.bool s.returnType.isSome),("complete",.bool s.isComplete),
    ("undeclared",.bool s.hasUndeclaredParams)]

def functionDeclToJson (r : Registry) (d : FunctionDecl) : Json :=
  .object [("id",nat d.id),("name",.string d.name), ("owner",optional (fun id => .string (r.nominal id).name) d.owner),
    ("externs",.bool d.fromExterns),("span",d.span.toJson),
    ("signature",r.signatureToJson d.signature)]

def namespaceKindToJson (r : Registry) : NamespaceKind → Json
  | .global => .string "global"
  | .real => .string "real"
  | .incidental => .string "incidental"
  | .constructor id => tagged "constructor" (.string (r.nominal id).name)
  | .enumObject id => tagged "enum" (.string (r.enumDecl id).name)

def namespaceToJson (r : Registry) (id : NamespaceId) : Json :=
  let n := r.space id
  .object [("id",nat id.index),("name",.string n.name),("kind",r.namespaceKindToJson n.kind), ("span",n.span.toJson),
    ("members",.array (n.members.entries.map fun (name,m) => r.memberToJson name m))]

def enumToJson (r : Registry) (id : EnumId) : Json :=
  let e := r.enumDecl id
  .object [("id",nat id.index),("name",.string e.name),("backing",r.typeToJson e.backing),
    ("members",.array (e.members.entries.map fun (name,span) =>
      .array [.string name,span.toJson])),
    ("namespace",nat e.space.index)]

def typedefToJson (r : Registry) (id : TypedefId) : Json :=
  let t := r.typedef id
  .object [("name",.string t.name),("has_annotation",.bool t.meaning.isSome),
    ("span",t.span.toJson),("resolved",r.optionalTypeToJson t.resolved)]

def declarationToJson (r : Registry) : Declaration → Json
  | .nominal id => .object [("nominal",.string (r.nominal id).name),("id",nat id.index)]
  | .space id => .object [("namespace",.string (r.space id).name),("id",nat id.index)]
  | .enumType id => .object [("enum",.string (r.enumDecl id).name),("id",nat id.index)]
  | .typedef id => .object [("typedef",.string (r.typedef id).name),("id",nat id.index)]

def enumIds (r : Registry) : List EnumId :=
  r.namespaces.filterMap fun n =>
    match n.kind with
    | .enumObject id => some id
    | _ => none

/-- The namespaces, without the static properties of builtin types that have none. -/
def shownNamespaces (r : Registry) : List NamespaceId :=
  r.namespaceIds.filter fun id =>
    id.index = 0 || id.index > 3 || !(r.space id).members.isEmpty

/-- All that a program declares: builtin types are left out, and functions are listed by
number, as far as `lastFunction`. -/
def toJson (r : Registry) (lastFunction : Nat) : Json :=
  .object [
    ("nominals",.array ((r.nominalIds.filter fun id => !(r.nominal id).builtin).map r.nominalToJson)),
    ("namespaces",.array (r.shownNamespaces.map r.namespaceToJson)),
    ("enums",.array (r.enumIds.map r.enumToJson)),
    ("typedefs",.array (r.typedefIds.map r.typedefToJson)),
    ("functions",.array (((List.range (lastFunction + 1)).filterMap r.function?).map r.functionDeclToJson)),
    ("frozen",.bool r.frozen)]

end GradualJs.Registry
