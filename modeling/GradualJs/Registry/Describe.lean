import GradualJs.Registry.Basic

/-! Types as messages write them. -/
namespace GradualJs.Registry

def braced (text : String) : String := "\x7b" ++ text ++ "\x7d"

def primitiveNames (set : PrimitiveSet) : List String :=
  let named (holds : Bool) (name : String) : List String := if holds then [name] else []
  named set.null "null" ++ named set.undefined "undefined" ++ (if set.trueValue && set.falseValue then ["boolean"]
      else named set.trueValue "true" ++ named set.falseValue "false") ++
    named set.number "number" ++ named set.string "string"

def joined (separator : String) (parts : List String) : String := separator.intercalate parts

def describeNamespace (r : Registry) (id : NamespaceId) : String :=
  let space := r.space id
  match space.kind with
  | .constructor owner => "function(new:" ++ (r.nominal owner).name ++ ")"
  | .enumObject _ => "enum" ++ braced space.name
  | _ => "namespace" ++ braced space.name

mutual
def describe (r : Registry) : Ty → String
  | .bottom => "bottom"
  | .top => "*"
  | .unknown => "?"
  | .union u =>
    let parts := describeMembers r u
    if parts.length > 1 then "(" ++ joined "|" parts ++ ")" else joined "|" parts
def describeMembers (r : Registry) : Union → List String
  | ⟨primitives,enums,vars,objects⟩ =>
    primitiveNames primitives ++ enums.map (fun id => (r.enumDecl id).name) ++
      vars.map Name.short ++ describeObjects r objects
def describeObjects (r : Registry) : List Obj → List String
  | [] => []
  | o :: rest => describeObject r o :: describeObjects r rest
def describeObject (r : Registry) : Obj → String
  | .nominal i => describeInstance r i
  | .record record => describeRecord r record
  | .function f => describeFunction r f
  | .namespaceValue id => describeNamespace r id
def describeInstance (r : Registry) : Instance → String
  | ⟨id,args⟩ =>
    match describeList r args with
    | [] => (r.nominal id).name
    | texts => (r.nominal id).name ++ "<" ++ joined "," texts ++ ">"
def describeRecord (r : Registry) : Record → String
  | ⟨fields,_,loose⟩ =>
    let texts := describeFields r fields
    braced (joined ", " (if loose then texts ++ ["..."] else texts))
def describeFields (r : Registry) : List Field → List String
  | [] => []
  | f :: rest => describeField r f :: describeFields r rest
def describeField (r : Registry) : Field → String
  | ⟨name,type,optional,_,_⟩ =>
    name ++ ": " ++ describe r type ++ (if optional then "=" else "")
def describeFunction (r : Registry) : FunctionType → String
  | ⟨required,optional,rest,returnType,receiver,constructs,typeParams,loose⟩ =>
    let binders := if typeParams.isEmpty then ""
      else "<" ++ joined "," (typeParams.map Name.short) ++ ">"
    let context := match describeOption r constructs, describeOption r receiver with
      | some built, _ => ["new:" ++ built]
      | none, some self => ["this:" ++ self]
      | none, none => []
    let params := context ++ describeList r required ++ (describeList r optional).map (· ++ "=") ++
      (describeOption r rest).toList.map ("..." ++ ·)
    let text := binders ++ "function(" ++ joined ", " params ++ "): " ++ describe r returnType
    if loose then "Function" else text
def describeList (r : Registry) : List Ty → List String
  | [] => []
  | t :: rest => describe r t :: describeList r rest
def describeOption (r : Registry) : Option Ty → Option String
  | none => none
  | some t => some (describe r t)
end

end GradualJs.Registry
