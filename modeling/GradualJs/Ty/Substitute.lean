import GradualJs.Table
import GradualJs.Ty.Merge

/-! Replacing template variables by types. A union whose variable is replaced has to be
joined anew, so the operation is given over a join. -/
namespace GradualJs

abbrev Substitution := Table String Ty

structure Merger (m : Type → Type) where
  join : Ty → Ty → m Ty
  normalize : List Obj → m (List Obj)

namespace Merger

variable {m : Type → Type} [Monad m]

mutual
def substitute (merger : Merger m) (mapping : Substitution) : Ty → m Ty
  | .union u => substituteUnion merger mapping u
  | .bottom => pure .bottom
  | .top => pure .top
  | .unknown => pure .unknown
def substituteUnion (merger : Merger m) (mapping : Substitution) : Union → m Ty
  | ⟨primitives,enums,vars,objects⟩ => do
    let kept := Ty.ofUnion {primitives, enums, vars := vars.filter (!mapping.contains ·)}
    let plain ← (vars.filterMap mapping.get?).foldlM merger.join kept
    let replaced ← substituteObjects merger mapping objects
    if replaced.isEmpty then return plain
    merger.join plain (.ofUnion {objects := ← merger.normalize replaced})
def substituteObjects (merger : Merger m) (mapping : Substitution) : List Obj → m (List Obj)
  | [] => pure []
  | o :: rest => do
    let first ← substituteObject merger mapping o
    return first :: (← substituteObjects merger mapping rest)
def substituteObject (merger : Merger m) (mapping : Substitution) : Obj → m Obj
  | .nominal i => .nominal <$> substituteInstance merger mapping i
  | .record r => .record <$> substituteRecord merger mapping r
  | .function f => .function <$> substituteFunction merger mapping f
  | .namespaceValue id => pure (.namespaceValue id)
def substituteInstance (merger : Merger m) (mapping : Substitution) : Instance → m Instance
  | ⟨id,args⟩ => do return ⟨id,← substituteList merger mapping args⟩
def substituteRecord (merger : Merger m) (mapping : Substitution) : Record → m Record
  | ⟨fields,exact,loose⟩ => do
    return ⟨← substituteFields merger mapping fields,exact,loose⟩
def substituteFields (merger : Merger m) (mapping : Substitution) : List Field → m (List Field)
  | [] => pure []
  | f :: rest => do
    let first ← substituteField merger mapping f
    return first :: (← substituteFields merger mapping rest)
def substituteField (merger : Merger m) (mapping : Substitution) : Field → m Field
  | ⟨name,type,optional,declared,constant⟩ => do
    return ⟨name,← substitute merger mapping type,optional,declared,constant⟩
/-- Variables that the function binds itself are not replaced inside it. -/
def substituteFunction (merger : Merger m) (mapping : Substitution) : FunctionType → m FunctionType
  | ⟨required,optional,rest,returnType,receiver,constructs,typeParams,loose⟩ => do
    let free := mapping.filterKeys (!typeParams.contains ·)
    return {
      required := ← substituteList merger free required
      optional := ← substituteList merger free optional
      rest := ← substituteOption merger free rest
      returnType := ← substitute merger free returnType
      receiver := ← substituteOption merger free receiver
      constructs := ← substituteOption merger free constructs
      typeParams
      loose }
def substituteList (merger : Merger m) (mapping : Substitution) : List Ty → m (List Ty)
  | [] => pure []
  | t :: rest => do
    let first ← substitute merger mapping t
    return first :: (← substituteList merger mapping rest)
def substituteOption (merger : Merger m) (mapping : Substitution) : Option Ty → m (Option Ty)
  | none => pure none
  | some t => some <$> substitute merger mapping t
end

def plain : Merger Id where
  join a b := pure (a.merge b)
  normalize objects := pure (Ty.normalizePlain objects)

end Merger

namespace Ty

def substitutePlain (mapping : Substitution) (t : Ty) : Ty := Merger.plain.substitute mapping t |>.run

/-- Like `substitutePlain`, but nothing to replace leaves the type as it is written. -/
def instantiateVars (mapping : Substitution) (t : Ty) : Ty :=
  if mapping.isEmpty then t else t.substitutePlain mapping

end Ty

namespace FunctionType

variable {m : Type → Type} [Monad m]

def mapTypes (f : FunctionType) (apply : Ty → m Ty) : m FunctionType := do
  return {
    required := ← f.required.mapM apply
    optional := ← f.optional.mapM apply
    rest := ← f.rest.mapM apply
    returnType := ← apply f.returnType
    receiver := ← f.receiver.mapM apply
    constructs := ← f.constructs.mapM apply
    typeParams := []
    loose := f.loose }

def eraseTypeParams (f : FunctionType) : FunctionType :=
  if f.typeParams.isEmpty then f
  else
    let mapping : Substitution := .ofList (f.typeParams.map fun name => (name,.unknown))
    f.mapTypes (fun t => pure (t.substitutePlain mapping)) |> Id.run

end FunctionType
end GradualJs
