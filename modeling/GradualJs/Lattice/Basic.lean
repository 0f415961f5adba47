import GradualJs.Lattice.Relations

/-! The lattice of types over a registry. Every answer may be missing: then the question
was nested deeper than the lattice looks. -/
namespace GradualJs

structure Lattice where
  registry : Registry
  /-- Accept parameters of functions that are related in either direction. -/
  bivariant : Bool := false
  depth : Nat := 4096

namespace Lattice

def relations (l : Lattice) : Relations := .within l.registry l.depth
def join (l : Lattice) (a b : Ty) : Option Ty := l.relations.join a b
def joinAll (l : Lattice) (types : List Ty) : Option Ty := types.foldlM l.join .bottom
def meet (l : Lattice) (a b : Ty) : Option Ty := l.relations.meet l.bivariant a b
def isSubtype (l : Lattice) (a b : Ty) : Option Bool := l.relations.isSubtype l.bivariant a b

def objectSubtype (l : Lattice) (a b : Obj) : Query Bool :=
  Relations.objectSubtype l.registry l.relations l.bivariant a b

def instanceSubtype (l : Lattice) (a b : Instance) : Query Bool :=
  Relations.instanceSubtype l.registry l.relations l.bivariant a b

def functionSubtype (l : Lattice) (f g : FunctionType) : Query Bool := l.relations.functionSubtype l.bivariant f g

def normalize (l : Lattice) (objects : List Obj) : Option (List Obj) :=
  normalizeObjects (Relations.mergeRules l.registry l.relations).combine objects

def merger (l : Lattice) : Merger Option := ⟨l.join,l.normalize⟩
def substitute (l : Lattice) (mapping : Substitution) (t : Ty) : Option Ty := l.merger.substitute mapping t

/-- A function with its variables bound; those without a binding become unknown. -/
def instantiate (l : Lattice) (f : FunctionType) (bindings : Substitution) : Option FunctionType :=
  let mapping := f.typeParams.foldl (fun t name => t.insertNew name .unknown) bindings
  f.mapTypes (l.substitute mapping)

end Lattice
end GradualJs
