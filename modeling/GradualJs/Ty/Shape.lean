import GradualJs.Ty.Basic

/-! What can be read off a type without knowing the declarations: its nesting, its
equality with another type, and the template variables in it. -/
namespace GradualJs

namespace Ty

mutual
def height : Ty → Nat
  | .bottom | .top | .unknown => 0
  | .union u => heightUnion u + 1
def heightUnion : Union → Nat
  | ⟨_,_,_,objects⟩ => heightObjects objects
def heightObjects : List Obj → Nat
  | [] => 0
  | o :: rest => max (heightObject o) (heightObjects rest)
def heightObject : Obj → Nat
  | .nominal i => heightInstance i
  | .record r => heightRecord r
  | .function f => heightFunction f
  | .namespaceValue _ => 0
def heightInstance : Instance → Nat
  | ⟨_,args⟩ => heightList args
def heightRecord : Record → Nat
  | ⟨fields,_,_⟩ => heightFields fields
def heightFields : List Field → Nat
  | [] => 0
  | f :: rest => max (heightField f) (heightFields rest)
def heightField : Field → Nat
  | ⟨_,type,_,_,_⟩ => height type
def heightFunction : FunctionType → Nat
  | ⟨required,optional,rest,returnType,receiver,constructs,_,_⟩ =>
    max (max (heightList required) (heightList optional)) (max (max (heightOption rest) (height returnType))
        (max (heightOption receiver) (heightOption constructs)))
def heightList : List Ty → Nat
  | [] => 0
  | t :: rest => max (height t) (heightList rest)
def heightOption : Option Ty → Nat
  | none => 0
  | some t => height t
end

mutual
/-- Equality of types; the order of the properties of a record does not count. -/
def same : Ty → Ty → Bool
  | .bottom, .bottom | .top, .top | .unknown, .unknown => true
  | .union u, .union v => sameUnion u v
  | _, _ => false
def sameUnion : Union → Union → Bool
  | ⟨primitives,enums,vars,objects⟩, v =>
    primitives = v.primitives && enums = v.enums && vars = v.vars && sameObjects objects v.objects
def sameObjects : List Obj → List Obj → Bool
  | [], [] => true
  | o :: rest, p :: others => sameObject o p && sameObjects rest others
  | _, _ => false
def sameObject : Obj → Obj → Bool
  | .nominal i, .nominal j => sameInstance i j
  | .record r, .record s => sameRecord r s
  | .function f, .function g => sameFunction f g
  | .namespaceValue m, .namespaceValue n => m = n
  | _, _ => false
def sameInstance : Instance → Instance → Bool
  | ⟨id,args⟩, j => id = j.id && sameList args j.args
def sameRecord : Record → Record → Bool
  | ⟨fields,exact,loose⟩, s =>
    exact = s.exact && loose = s.loose && fields.length = s.fields.length && sameFields fields s.fields
def sameFields : List Field → List Field → Bool
  | [], _ => true
  | f :: rest, others => sameField f others && sameFields rest others
def sameField : Field → List Field → Bool
  | ⟨name,type,optional,declared,constant⟩, others =>
    match Field.find? others name with
    | none => false
    | some g => optional = g.optional && declared = g.declared && constant = g.constant && same type g.type
def sameFunction : FunctionType → FunctionType → Bool
  | ⟨required,optional,rest,returnType,receiver,constructs,typeParams,loose⟩, g =>
    sameList required g.required && sameList optional g.optional && sameOption rest g.rest &&
      same returnType g.returnType && sameOption receiver g.receiver &&
      sameOption constructs g.constructs && typeParams = g.typeParams && loose = g.loose
def sameList : List Ty → List Ty → Bool
  | [], [] => true
  | t :: rest, u :: others => same t u && sameList rest others
  | _, _ => false
def sameOption : Option Ty → Option Ty → Bool
  | none, none => true
  | some t, some u => same t u
  | _, _ => false
end

mutual
/-- Whether a template variable of a certain kind occurs in the type. Receivers and
constructed types are not looked at. -/
def mentions (wanted : String → Bool) : Ty → Bool
  | .union u => mentionsUnion wanted u
  | _ => false
def mentionsUnion (wanted : String → Bool) : Union → Bool
  | ⟨_,_,vars,objects⟩ => vars.any wanted || mentionsObjects wanted objects
def mentionsObjects (wanted : String → Bool) : List Obj → Bool
  | [] => false
  | o :: rest => mentionsObject wanted o || mentionsObjects wanted rest
def mentionsObject (wanted : String → Bool) : Obj → Bool
  | .nominal i => mentionsInstance wanted i
  | .record r => mentionsRecord wanted r
  | .function f => mentionsFunction wanted f
  | .namespaceValue _ => false
def mentionsInstance (wanted : String → Bool) : Instance → Bool
  | ⟨_,args⟩ => mentionsList wanted args
def mentionsRecord (wanted : String → Bool) : Record → Bool
  | ⟨fields,_,_⟩ => mentionsFields wanted fields
def mentionsFields (wanted : String → Bool) : List Field → Bool
  | [] => false
  | f :: rest => mentionsField wanted f || mentionsFields wanted rest
def mentionsField (wanted : String → Bool) : Field → Bool
  | ⟨_,type,_,_,_⟩ => mentions wanted type
def mentionsFunction (wanted : String → Bool) : FunctionType → Bool
  | ⟨required,optional,rest,returnType,_,_,_,_⟩ =>
    mentionsList wanted required || mentionsList wanted optional || mentionsOption wanted rest ||
      mentions wanted returnType
def mentionsList (wanted : String → Bool) : List Ty → Bool
  | [] => false
  | t :: rest => mentions wanted t || mentionsList wanted rest
def mentionsOption (wanted : String → Bool) : Option Ty → Bool
  | none => false
  | some t => mentions wanted t
end

def containsVars (t : Ty) : Bool := t.mentions fun _ => true

end Ty
end GradualJs
