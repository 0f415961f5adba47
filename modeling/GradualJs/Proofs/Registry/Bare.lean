import GradualJs.Proofs.Lattice.Level

/-! What a registry says about types apart from what is in them: enough to look up names and to
view an instance as one of an ancestor. -/
namespace GradualJs

def Nominal.bare (n : Nominal) : Nominal := {n with properties := {}, constructor := none}

@[simp] lemma Nominal.supertypes_bare (n : Nominal) : n.bare.supertypes = n.supertypes := rfl

namespace Registry

def bare (r : Registry) : Registry where
  nominals := r.nominals.map Nominal.bare
  enums := r.enums
  typedefs := r.typedefs
  declarations := r.declarations

variable (r : Registry)

@[simp] lemma nominal_bare (id : NominalId) : r.bare.nominal id = (r.nominal id).bare := by
  unfold nominal bare
  rw [List.getElem?_map]
  cases r.nominals[id.index]? <;> rfl

lemma bare_modifyNominal (id : NominalId) (eq : ∀ n, (f n).bare = n.bare := by intro n; rfl) :
    (r.modifyNominal id f).bare = r.bare := by
  have mapped (nominals : List Nominal) (index : Nat) :
      (nominals.modify index f).map Nominal.bare = nominals.map Nominal.bare := by
    induction nominals generalizing index with
    | nil => simp
    | cons n rest ih => cases index <;> simp [eq,ih]
  simp only [bare,modifyNominal,mapped]

lemma substitutionFor_bare : r.bare.substitutionFor = r.substitutionFor := by
  funext i
  simp [substitutionFor,Nominal.bare]

lemma extendsObject_bare : r.bare.extendsObject = r.extendsObject := by
  funext id
  simp [extendsObject,Nominal.bare]

lemma supertypesOf_bare : r.bare.supertypesOf = r.supertypesOf := by
  funext i
  simp [supertypesOf,substitutionFor_bare,extendsObject_bare]

lemma visitBound_bare : r.bare.visitBound = r.visitBound := by
  simp only [visitBound,bare,List.map_map]
  rfl

@[simp] lemma ancestry_bare : r.bare.ancestry = r.ancestry := by
  funext i
  simp [ancestry,supertypesOf_bare,visitBound_bare]

@[simp] lemma upcast_bare : r.bare.upcast = r.upcast := by
  funext i tgt
  simp [upcast]

lemma chainFrom_bare (steps : Nat) (seen : List NominalId) (id : NominalId) :
    r.bare.chainFrom steps seen id = r.chainFrom steps seen id := by
  induction steps generalizing seen id with
  | zero => rfl
  | succ steps ih => simp only [chainFrom,nominal_bare,Nominal.bare,ih]

lemma superclassChain_bare : r.bare.superclassChain = r.superclassChain := by
  funext id
  rw [superclassChain,superclassChain,chainFrom_bare]
  simp [bare]

@[simp] lemma commonViews_bare : r.bare.commonViews = r.commonViews := by
  funext x y
  simp [commonViews,commonSuperclass,superclassChain_bare,Nominal.bare]

variable {r} {other : Registry} (eq : r.bare = other.bare)
include eq

lemma nominal_of_bare (id : NominalId) : (r.nominal id).bare = (other.nominal id).bare := by
  rw [← nominal_bare,← nominal_bare,eq]

lemma kind_of_bare (id : NominalId) : (r.nominal id).kind = (other.nominal id).kind := by
  simpa [Nominal.bare] using congrArg Nominal.kind (nominal_of_bare eq id)

lemma name_of_bare (id : NominalId) : (r.nominal id).name = (other.nominal id).name := by
  simpa [Nominal.bare] using congrArg Nominal.name (nominal_of_bare eq id)

lemma typeParams_of_bare (id : NominalId) : (r.nominal id).typeParams = (other.nominal id).typeParams := by
  simpa [Nominal.bare] using congrArg Nominal.typeParams (nominal_of_bare eq id)

lemma upcast_of_bare : r.upcast = other.upcast := by
  rw [← upcast_bare,eq,upcast_bare]

lemma commonViews_of_bare : r.commonViews = other.commonViews := by
  rw [← commonViews_bare,eq,commonViews_bare]

lemma typedef_of_bare : r.typedef = other.typedef := by
  have typedefs : r.typedefs = other.typedefs := by simpa [bare] using congrArg typedefs eq
  funext id
  rw [typedef,typedefs,typedef]

lemma lookup_of_bare : r.lookup = other.lookup := by
  have names : r.declarations = other.declarations := by
    simpa [bare] using congrArg declarations eq
  funext name
  rw [lookup,names,lookup]

lemma enumBacking_of_bare : r.enumBacking = other.enumBacking := by
  have enums : r.enums = other.enums := by simpa [bare] using congrArg enums eq
  funext id
  rw [enumBacking,enumDecl,enums,enumBacking,enumDecl]

end Registry
end GradualJs
