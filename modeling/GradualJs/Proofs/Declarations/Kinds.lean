import GradualJs.Proofs.Declarations.Collecting

/-! Whatever a program declares, its classes and interfaces end up apart: a header that says
otherwise is reported and left out. -/
namespace GradualJs

open List

variable {changed : Registry} {decls : Declarations}

namespace Registry

variable {r : Registry}

lemma nominal_modifyNominal (id other : NominalId) (f : Nominal → Nominal) :
    (r.modifyNominal id f).nominal other = r.nominal other ∨
      other = id ∧ (r.modifyNominal id f).nominal other = f (r.nominal other) := by
  simp only [nominal,modifyNominal,getElem?_modify]
  by_cases eq : id.index = other.index
  · cases r.nominals[other.index]? with
    | none => exact .inl (by simp)
    | some n => exact .inr ⟨by cases id; cases other; simp_all,by simp [eq]⟩
  · exact .inl (by simp [eq])

lemma kind_modifyNominal (id other : NominalId) (sameKind : ∀ n, (f n).kind = n.kind) :
    ((r.modifyNominal id f).nominal other).kind = (r.nominal other).kind := by
  rcases nominal_modifyNominal id other f with eq | ⟨_,changed⟩
  · rw [eq]
  · rw [changed,sameKind]

lemma nominal_addNominal (name : String) (kind : NominalKind) (span : Span)
    (id : NominalId) : (r.addNominal name kind span).2.nominal id = r.nominal id ∨
      r.nominals.length = id.index ∧ ((r.addNominal name kind span).2.nominal id).superclass = none ∧
      ((r.addNominal name kind span).2.nominal id).interfaces = [] ∧
      ((r.addNominal name kind span).2.nominal id).properties = {} := by
  simp only [nominal,addNominal]
  by_cases old : id.index < r.nominals.length
  · exact .inl (by rw [getElem?_append_left old])
  · rcases Nat.lt_or_eq_of_le (Nat.le_of_not_lt old) with beyond | new
    · refine .inl ?_
      rw [getElem?_eq_none (by simp; omega),getElem?_eq_none (by omega)]
    · exact .inr ⟨new,by simp [← new]⟩

structure SameHeaders (r changed : Registry) : Prop where
  kind : ∀ id, (changed.nominal id).kind = (r.nominal id).kind
  superclass : ∀ id, (changed.nominal id).superclass = (r.nominal id).superclass
  interfaces : ∀ id, (changed.nominal id).interfaces = (r.nominal id).interfaces

lemma sameHeaders_of_nominals (eq : changed.nominals = r.nominals) : SameHeaders r changed := by
  have each (id : NominalId) : changed.nominal id = r.nominal id := by rw [nominal,nominal,eq]
  exact ⟨fun id => by rw [each],fun id => by rw [each],fun id => by rw [each]⟩

lemma sameHeaders_modifyNominal (id : NominalId) (eq : ∀ n, (f n).kind = n.kind ∧ (f n).superclass = n.superclass ∧
      (f n).interfaces = n.interfaces := by intro n; exact ⟨rfl,rfl,rfl⟩) :
    SameHeaders r (r.modifyNominal id f) := by
  have each (other : NominalId) := nominal_modifyNominal (r := r) id other f
  constructor
  all_goals
    intro other
    rcases each other with unchanged | ⟨_,changed⟩
    · rw [unchanged]
    · simp [changed,eq]

/-- Before the headers are read, only the builtin types inherit, and only from `Object`. -/
structure Flat (r : Registry) : Prop where
  object : (r.nominal .object).kind = .classType
  superclasses : ∀ id, ∀ s ∈ (r.nominal id).superclass, s = objectInstance ∧ (r.nominal id).kind = .classType
  interfaces : ∀ id, (r.nominal id).interfaces = []
  enums : ∀ e ∈ r.enums, e.backing.Plain

structure Sorted (r : Registry) : Prop where
  headers : ∀ id, Collecting.Inheritable r id (r.nominal id).superclass (r.nominal id).interfaces
  enums : ∀ e ∈ r.enums, e.backing.Plain

namespace Flat

lemma initial : Registry.initial.Flat where
  object := rfl
  superclasses := by
    rintro ⟨_ | _ | _ | _⟩ s extended
    all_goals simp_all [nominal,Registry.initial,builtinObject,builtinFunction,builtinArray]
  interfaces := by
    rintro ⟨_ | _ | _ | _⟩
    all_goals rfl
  enums := by simp [Registry.initial]

lemma describe (flat : r.Flat) (id : NominalId) (access : AccessDiscipline) (isAbstract : Bool)
    (typeParams : List String) : (r.modifyNominal id ({· with access, isAbstract, typeParams})).Flat := by
  have eq : SameHeaders r (r.modifyNominal id ({· with access, isAbstract, typeParams})) := sameHeaders_modifyNominal id
  constructor
  · rw [eq.kind]
    exact flat.object
  · intro other
    rw [eq.kind,eq.superclass]
    exact flat.superclasses other
  · intro other
    rw [eq.interfaces]
    exact flat.interfaces other
  · exact flat.enums

lemma addNominal (flat : r.Flat) (name : String) (kind : NominalKind) (span : Span) :
    (r.addNominal name kind span).2.Flat where
  object := by
    rcases nominal_addNominal name kind span .object with eq | ⟨new,_⟩
    · rw [eq]
      exact flat.object
    · have absent := flat.object
      simp [nominal,getElem?_eq_none (Nat.le_of_eq new)] at absent
  superclasses := by
    intro id s extended
    rcases nominal_addNominal name kind span id with eq | ⟨_,none,_⟩
    · rw [eq] at extended ⊢
      exact flat.superclasses id s extended
    · rw [none] at extended
      cases extended
  interfaces := by
    intro id
    rcases nominal_addNominal name kind span id with eq | ⟨_,_,none,_⟩
    · rw [eq]
      exact flat.interfaces id
    · exact none
  enums := flat.enums

lemma addEnum (flat : r.Flat) (name : String) (span : Span) : (r.addEnum name .number span).2.Flat where
  object := flat.object
  superclasses := flat.superclasses
  interfaces := flat.interfaces
  enums := by
    intro e declared
    rcases mem_append.mp declared with old | new
    · exact flat.enums e old
    · cases mem_singleton.mp new
      exact ⟨rfl,rfl⟩

lemma invariant : Registering.Invariant Flat where
  addNamespace _ _ _ _ flat := ⟨flat.object,flat.superclasses,flat.interfaces,flat.enums⟩
  addNominal _ name kind span flat := flat.addNominal name kind span
  describe _ id _ _ _ flat := flat.describe id _ _ _
  addEnum _ name span flat := flat.addEnum name span
  addTypedef _ _ _ _ flat := ⟨flat.object,flat.superclasses,flat.interfaces,flat.enums⟩
  setMember _ _ _ _ flat := ⟨flat.object,flat.superclasses,flat.interfaces,flat.enums⟩

lemma sorted (flat : r.Flat) : r.Sorted where
  headers id := {
    superclass := by
      intro s extended
      obtain ⟨rfl,isClass⟩ := flat.superclasses id s extended
      exact ⟨flat.object,isClass⟩
    interfaces := by simp [flat.interfaces id]}
  enums := flat.enums

end Flat

namespace Sorted

lemma of_sameHeaders (sorted : r.Sorted) (eq : SameHeaders r changed)
    (enums : ∀ e ∈ changed.enums, e.backing.Plain) : changed.Sorted := by
  refine ⟨fun id => ⟨?_,?_⟩,enums⟩
  · intro s extended
    rw [eq.superclass] at extended
    rw [eq.kind,eq.kind]
    exact (sorted.headers id).superclass s extended
  · intro i implemented
    rw [eq.interfaces] at implemented
    rw [eq.kind]
    exact (sorted.headers id).interfaces i implemented

lemma modifyNominal (sorted : r.Sorted) (id : NominalId) (sameKind : ∀ n, (f n).kind = n.kind)
    (inheritable : ∀ n, Collecting.Inheritable r id (f n).superclass (f n).interfaces) :
    (r.modifyNominal id f).Sorted where
  headers := by
    intro other
    have header : Collecting.Inheritable r other ((r.modifyNominal id f).nominal other).superclass
        ((r.modifyNominal id f).nominal other).interfaces := by
      rcases nominal_modifyNominal id other f with eq | ⟨rfl,changed⟩
      · rw [eq]
        exact sorted.headers other
      · rw [changed]
        exact inheritable _
    constructor
    · intro s extended
      rw [kind_modifyNominal id s.id sameKind,kind_modifyNominal id other sameKind]
      exact header.superclass s extended
    · intro i implemented
      rw [kind_modifyNominal id i.id sameKind]
      exact header.interfaces i implemented
  enums := sorted.enums

lemma backEnum (sorted : r.Sorted) (id : EnumId) {backing : Ty} (members : Table String Span)
    (plain : backing.Plain) : (r.modifyEnum id ({· with backing, members})).Sorted := by
  refine sorted.of_sameHeaders (sameHeaders_of_nominals rfl) fun e declared => ?_
  obtain ⟨index,found⟩ := mem_iff_getElem?.mp declared
  simp only [modifyEnum,getElem?_modify,Option.map_eq_map,Option.map_eq_some_iff] at found
  obtain ⟨old,known,rfl⟩ := found
  split
  · exact plain
  · exact sorted.enums old (mem_of_getElem? known)

lemma invariant : Collecting.Invariant Sorted where
  resolveTypedef _ _ _ sorted := sorted.of_sameHeaders (sameHeaders_of_nominals rfl) sorted.enums
  backEnum _ id _ members plain sorted := sorted.backEnum id members plain
  inherit _ id _ _ _ inheritable sorted := sorted.modifyNominal id (fun _ => rfl) fun _ => inheritable
  uproot _ id sorted := sorted.modifyNominal id (fun _ => rfl) fun _ => ⟨by simp,by simp⟩
  construct _ id _ sorted := sorted.of_sameHeaders (sameHeaders_modifyNominal id) sorted.enums
  addFunction _ _ sorted := sorted.of_sameHeaders (sameHeaders_of_nominals rfl) sorted.enums
  setProperty _ id _ _ sorted := sorted.of_sameHeaders (sameHeaders_modifyNominal id) sorted.enums
  setMember _ _ _ _ sorted := sorted.of_sameHeaders (sameHeaders_of_nominals rfl) sorted.enums

lemma kinded (sorted : r.Sorted) : r.Kinded where
  superclasses id _ s extended := ((sorted.headers id).superclass s extended).1
  classes := by
    intro id _ s inherited isClass
    rcases mem_append.mp inherited with extended | implemented
    · exact ((sorted.headers id).superclass s (by simpa using extended)).2
    · have interface := (sorted.headers id).interfaces s implemented
      rw [isClass] at interface
      cases interface
  enums := sorted.enums

end Sorted

end Registry

lemma Declarations.collect_sorted (collected : Declarations.collect prog externs legacy = some decls) :
    decls.registry.Sorted := by
  have registered := Registering.keeps_registration Registry.Flat.invariant prog externs Registry.Flat.initial
  obtain ⟨⟨_,c⟩,resolved,eq⟩ := Option.bind_eq_some_iff.mp collected
  cases eq
  obtain ⟨-,-,sorted⟩ := (Collecting.keeps_resolution Registry.Sorted.invariant prog externs
    legacy).run registered.sorted resolved
  exact sorted.of_sameHeaders (Registry.sameHeaders_of_nominals rfl) sorted.enums

lemma Declarations.collect_kinded (collected : Declarations.collect prog externs legacy = some decls) :
    decls.registry.Kinded := (collect_sorted collected).kinded

end GradualJs
