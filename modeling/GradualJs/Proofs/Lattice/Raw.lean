import GradualJs.Proofs.Declarations.Signatures
import GradualJs.Proofs.Subtyping.Survey

/-! Joins of two types that are named without arguments, one of which is a record type. The
record type swallows the other if that has all its properties. While a record type has no
properties yet, it swallows everything. -/
namespace GradualJs

open Relations Option

variable {other : Registry}

def Lattice.Equal (l : Lattice) (a b : Ty) : Prop := l.isSubtype a b = some true ∧ l.isSubtype b a = some true

namespace Registry

/-- An instance of a type that is named without arguments. -/
def raw (r : Registry) (id : NominalId) : Instance := ⟨id,.replicate (r.nominal id).typeParams.length .unknown⟩

abbrev rawType (r : Registry) (p : PrimitiveSet) (id : NominalId) : Ty :=
  .union {primitives := p, objects := [.nominal (r.raw id)]}

variable {r : Registry} {x y : NominalId} {p q : PrimitiveSet}

@[simp] lemma raw_id : (r.raw x).id = x := rfl

lemma raw_of_bare (eq : r.bare = other.bare) : r.raw = other.raw := by
  funext id
  rw [raw,typeParams_of_bare eq,raw]

/-- Where primitive values do not stand in the way, objects are compared. -/
lemma isSubtype_object (within : q.contains p = true) (a b : Obj) :
    Lattice.isSubtype ⟨r,lax,depth + 1⟩ (.union {primitives := p, objects := [a]})
        (.union {primitives := q, objects := [b]}) =
      (Relations.objectSubtype r (.within r depth) lax a b).run' [] := by
  have step : (Relations.within r (depth + 1)).subtype lax
      (.union {primitives := p, objects := [a]}) (.union {primitives := q, objects := [b]}) =
      Relations.objectSubtype r (.within r depth) lax a b := by
    have objects : (Relations.within r (depth + 1)).subtype lax
        (.union {primitives := p, objects := [a]}) (.union {primitives := q, objects := [b]}) =
        if !q.contains p then pure false else [a].allM fun a => [b].anyM fun b =>
          Relations.objectSubtype r (.within r depth) lax a b := rfl
    rw [objects,within,Query.allM_singleton,Query.anyM_singleton]
    rfl
  rw [Lattice.isSubtype,Lattice.relations,Relations.isSubtype,step]

/-- Where an instance is seen as one of a supertype without arguments, nothing is compared. -/
lemma instanceSubtype_raw (found : r.upcast src y = some viewed) (assumed : Assumptions) :
    (instanceSubtype r (.within r (depth + 1)) lax src (r.raw y)).run assumed = some (true,assumed) := by
  have unknown (a : Ty) (assumed : Assumptions) :
      ((within r (depth + 1)).subtype lax a .unknown).run assumed = some (true,assumed) := by
    cases a <;> rfl
  have pairs : ∀ pair ∈ padArgs viewed.args (r.raw y).args, ∀ assumed,
      ((within r (depth + 1)).subtype lax pair.1 pair.2).run assumed = some (true,assumed) := by
    intro pair mem assumed
    have second : pair.2 = .unknown := by
      rcases (padArgs_mem mem).2 with eq | inArgs
      · exact eq
      · exact List.eq_of_mem_replicate inArgs
    rw [second]
    exact unknown _ _
  unfold instanceSubtype
  rw [raw_id,found]
  have answered := Query.run_allM_of_steady pairs assumed
  rwa [List.all_eq_true.mpr fun _ _ => rfl] at answered

abbrev sorted (objects : List Obj) : List Obj := stableSort (fun a b => a.identity.notAfter b.identity) objects

lemma normalizeObjects_pair (combine : Obj → Obj → Option (Option Obj)) (a b : Obj) :
    normalizeObjects combine [a,b] = (combine a b).map fun
      | some o => [o]
      | none => sorted [a,b] := by
  have second : absorb combine 1 [a] b = (combine a b).map fun
      | some o => [o]
      | none => [a,b] := by
    simp only [absorb,takeCombined]
    cases combine a b with
    | none => rfl
    | some found => cases found <;> rfl
  have run : normalizeObjects combine [a,b] = (absorb combine 1 [a] b).map sorted := by
    cases res : absorb combine 1 [a] b <;> simp [normalizeObjects,absorb,res]
  rw [run,second,map_map]
  congr 1
  funext found
  cases found <;> rfl

lemma join_object {x y : Instance} (different : x.id ≠ y.id) :
    (within r (depth + 1)).join (.union {primitives := p, objects := [.nominal x]})
        (.union {primitives := q, objects := [.nominal y]}) =
      (joinDistinct r (.within r depth) x y).map fun found => .union {
        primitives := p.union q
        objects := found.elim (sorted [.nominal x,.nominal y]) ([·])} := by
  have combined : (mergeRules r (.within r depth)).combine (.nominal x) (.nominal y) =
      joinDistinct r (.within r depth) x y := by
    simp [MergeRules.combine,different,mergeRules]
  have join : (within r (depth + 1)).join (.union {primitives := p, objects := [.nominal x]})
      (.union {primitives := q, objects := [.nominal y]}) =
      (normalizeObjects (mergeRules r (.within r depth)).combine [.nominal x,.nominal y] >>= fun objects =>
          some (.ofUnion {primitives := p.union q, objects})) := rfl
  rw [join,normalizeObjects_pair,combined]
  cases joinDistinct r (.within r depth) x y with
  | none => rfl
  | some found =>
    cases found with
    | some o => simp [Ty.ofUnion,Union.isEmpty]
    | none =>
      have whole : sorted [.nominal x,.nominal y] ≠ [] := by
        simp [← List.length_eq_zero_iff]
      simp [Ty.ofUnion,Union.isEmpty,whole]

section Distinct

variable {x y : Instance}

lemma joinDistinct_fits (fits : (instanceSubtype r below false x y).run [] = some (true,assumed)) :
    joinDistinct r below x y = some (some (.nominal y)) := by
  simp [joinDistinct,fits]

lemma joinDistinct_fits_back (refused : (instanceSubtype r below false x y).run [] = some (false,assumed))
    (fits : (instanceSubtype r below false y x).run assumed = some (true,table)) :
    joinDistinct r below x y = some (some (.nominal x)) := by
  simp [joinDistinct,refused,fits]

lemma joinDistinct_apart (refused : (instanceSubtype r below false x y).run [] = some (false,assumed))
    (refused' : (instanceSubtype r below false y x).run assumed = some (false,table))
    (record : (r.nominal x.id).kind = .record ∨ (r.nominal y.id).kind = .record) :
    joinDistinct r below x y = some none := by
  have none : r.commonSuperclass x.id y.id = none := by
    rcases record with isRecord | isRecord <;> simp [commonSuperclass,isRecord]
  simp [joinDistinct,refused,refused',none]

end Distinct

lemma sorted_pair (a b : Obj) : sorted [a,b] = [a,b] ∨ sorted [a,b] = [b,a] := by
  simp only [sorted,stableSort,insertSorted]
  split
  · exact .inl rfl
  · exact .inr rfl

lemma run_itself (lax : Bool) (z : NominalId) (assumed : Assumptions) :
    (objectSubtype r (.within r (depth + 1)) lax (.nominal (r.raw z))
      (.nominal (r.raw z))).run assumed = some (true,assumed) := by
  have itself : r.upcast (r.raw z) z = some (r.raw z) := by simp [upcast,raw]
  simp only [objectSubtype]
  split
  · rfl
  · exact instanceSubtype_raw itself assumed

lemma isSubtype_of_union (two : objects = [.nominal (r.raw a),.nominal (r.raw z)] ∨
      objects = [.nominal (r.raw z),.nominal (r.raw a)])
    (granted : Lattice.isSubtype {registry := r, depth := depth + 2}
      (.union {primitives := q, objects}) (r.rawType q z) = some true) :
    Lattice.isSubtype {registry := r, depth := depth + 2} (r.rawType p a) (r.rawType p z) = some true := by
  have step : (within r (depth + 2)).subtype false (.union {primitives := q, objects})
      (r.rawType q z) = if !q.contains q then pure false else
        objects.allM fun o => [.nominal (r.raw z)].anyM fun b =>
          objectSubtype r (.within r (depth + 1)) false o b := rfl
  simp only [PrimitiveSet.contains_self,Bool.not_true,Bool.false_eq_true,if_false, Query.anyM_singleton] at step
  rw [Lattice.isSubtype,Lattice.relations,isSubtype,step] at granted
  rw [isSubtype_object p.contains_self]
  rcases two with rfl | rfl
  · rw [Query.allM_cons,Query.allM_singleton,StateT.run'_eq,StateT.run_bind] at granted
    rw [StateT.run'_eq]
    cases asked : (objectSubtype r (.within r (depth + 1)) false (.nominal (r.raw a)) (.nominal (r.raw z))).run [] with
    | none => simp [asked] at granted
    | some ans =>
      obtain ⟨fits,table⟩ := ans
      cases fits with
      | true => rfl
      | false => simp [asked] at granted
  · rw [Query.allM_cons,Query.allM_singleton,StateT.run'_eq,StateT.run_bind,run_itself] at granted
    exact granted

lemma isSubtype_raw (notObject : y ≠ .object) :
    Lattice.isSubtype {registry := r, depth := depth + 1} (r.rawType p x) (r.rawType p y) =
      (instanceSubtype r (.within r depth) false (r.raw x) (r.raw y)).run' [] := by
  rw [isSubtype_object p.contains_self]
  simp only [objectSubtype,raw_id,notObject,if_false]

lemma isSubtype_of_fits (fits : (instanceSubtype r (.within r depth) false (r.raw x) (r.raw y)).run [] =
      some (true,assumed)) :
    Lattice.isSubtype {registry := r, depth := depth + 1} (r.rawType p x) (r.rawType p y) = some true := by
  by_cases object : y = .object
  · rw [isSubtype_object p.contains_self]
    simp [objectSubtype,object]
  · rw [isSubtype_raw object,StateT.run'_eq,fits]
    rfl

lemma not_isSubtype_of_refused (notObject : y ≠ .object)
    (refused : (instanceSubtype r (.within r depth) false (r.raw x) (r.raw y)).run [] = some (false,assumed)) :
    Lattice.isSubtype {registry := r, depth := depth + 1} (r.rawType p x) (r.rawType p y) ≠ some true := by
  rw [isSubtype_raw notObject,StateT.run'_eq,refused]
  simp

/-- What two types are joined to, one of which is a record type: one of them if the other is
found to fit it, and else their union. -/
lemma join_raw_cases (different : x ≠ y) (record : (r.nominal x).kind = .record ∨ (r.nominal y).kind = .record)
    (joined : (within r (depth + 1)).join (r.rawType p x) (r.rawType q y) = some t) :
    ∃ fits assumed, (instanceSubtype r (.within r depth) false (r.raw x) (r.raw y)).run [] = some (fits,assumed) ∧
      if fits then t = r.rawType (p.union q) y
      else ∃ back table, (instanceSubtype r (.within r depth) false (r.raw y)
          (r.raw x)).run assumed = some (back,table) ∧
        t = if back then r.rawType (p.union q) x
          else .union {
            primitives := p.union q
            objects := sorted [.nominal (r.raw x),.nominal (r.raw y)]} := by
  rw [join_object (by exact different)] at joined
  cases first : (instanceSubtype r (.within r depth) false (r.raw x) (r.raw y)).run [] with
  | none => simp [joinDistinct,first] at joined
  | some ans =>
    obtain ⟨fits,assumed⟩ := ans
    refine ⟨fits,assumed,rfl,?_⟩
    cases fits with
    | true =>
      rw [joinDistinct_fits first] at joined
      exact (some.inj joined).symm
    | false =>
      cases second : (instanceSubtype r (.within r depth) false (r.raw y) (r.raw x)).run assumed with
      | none => simp [joinDistinct,first,second] at joined
      | some ans =>
        obtain ⟨back,table⟩ := ans
        refine ⟨back,table,rfl,?_⟩
        cases back with
        | true =>
          rw [joinDistinct_fits_back first second] at joined
          exact (some.inj joined).symm
        | false =>
          rw [joinDistinct_apart first second record] at joined
          exact (some.inj joined).symm

/-- Whether the second of two types swallows the first while record types have no properties. -/
def swallows (r : Registry) (x y : NominalId) : Bool := (r.nominal y).kind = .record || (r.upcast (r.raw x) y).isSome

lemma refused_of_not_swallows (named : r.swallows x y = false) :
    (r.nominal y).kind ≠ .record ∧ (instanceSubtype r (.within r (depth + 1)) false
      (r.raw x) (r.raw y)).run [] = some (false,[]) := by
  simp only [swallows,Bool.or_eq_false_iff,decide_eq_false_iff_not,isSome_eq_false_iff, isNone_iff_eq_none] at named
  refine ⟨named.1,?_⟩
  simp only [instanceSubtype,raw_id,named.2,ne_eq,named.1,not_false_eq_true,if_true]
  rfl

/-- The type that is left of two while record types have no properties. -/
def left (r : Registry) (x y : NominalId) : NominalId := if r.swallows x y then y else x

lemma left_of_bare (eq : r.bare = other.bare) : r.left = other.left := by
  funext x y
  have swallows : r.swallows x y = other.swallows x y := by
    simp [swallows,kind_of_bare eq,raw_of_bare eq,upcast_of_bare eq]
  rw [left,swallows,left]

def gone (r : Registry) (x y : NominalId) : NominalId := if r.swallows x y then x else y

lemma equal_itself (z : NominalId) :
    Lattice.Equal {registry := r, depth := depth + 2} (r.rawType p z) (r.rawType p z) := by
  have itself : Lattice.isSubtype {registry := r, depth := depth + 2} (r.rawType p z) (r.rawType p z) = some true := by
    rw [isSubtype_object p.contains_self,StateT.run'_eq,run_itself]
    rfl
  exact ⟨itself,itself⟩

lemma equal_left_iff (different : x ≠ y) (record : (r.nominal x).kind = .record ∨ (r.nominal y).kind = .record)
    (notObject : ∀ id, (r.nominal id).kind = .record → id ≠ .object)
    (joined : Lattice.join {registry := r, depth := depth + 2} (r.rawType p x) (r.rawType q y) = some t) :
    Lattice.Equal {registry := r, depth := depth + 2} (r.rawType (p.union q) (r.left x y)) t ↔
      Lattice.isSubtype {registry := r, depth := depth + 2} (r.rawType {} (r.gone x y))
        (r.rawType {} (r.left x y)) = some true := by
  obtain ⟨fits,assumed,first,rest⟩ := join_raw_cases different record joined
  unfold left gone
  have two := sorted_pair (.nominal (r.raw x)) (.nominal (r.raw y))
  cases swallows : r.swallows x y with
  | true =>
    simp only [if_true]
    cases fits with
    | true =>
      rw [if_pos rfl] at rest
      subst rest
      exact iff_of_true (equal_itself y) (isSubtype_of_fits first)
    | false =>
      have isRecord : (r.nominal y).kind = .record := by
        by_contra other
        simp only [Registry.swallows,other,decide_false,Bool.false_or] at swallows
        obtain ⟨viewed,found⟩ := isSome_iff_exists.mp swallows
        rw [instanceSubtype_raw found] at first
        simp at first
      have apart := notObject y isRecord
      obtain ⟨back,table,-,rfl⟩ := rest
      refine iff_of_false (fun equal => ?_) (not_isSubtype_of_refused apart first)
      cases back with
      | true => exact not_isSubtype_of_refused apart first equal.2
      | false =>
        exact not_isSubtype_of_refused (p := {}) apart first (isSubtype_of_union two equal.2)
  | false =>
    simp only [Bool.false_eq_true,if_false]
    obtain ⟨named,refused⟩ := refused_of_not_swallows swallows
    have apart := notObject x (record.resolve_right named)
    cases first.symm.trans refused
    obtain ⟨back,table,second,rfl⟩ := rest
    cases back with
    | true => exact iff_of_true (equal_itself x) (isSubtype_of_fits second)
    | false =>
      refine iff_of_false (fun equal => ?_) (not_isSubtype_of_refused apart second)
      exact not_isSubtype_of_refused (p := {}) apart second (isSubtype_of_union two.symm equal.2)

section Unwritten

variable (kinded : r.Kinded) (unwritten : r.Unwritten)
include kinded unwritten

lemma instanceFields_unwritten {i : Instance} (notClass : (r.nominal i.id).kind ≠ .classType) :
    r.instanceFields i = [] := by
  have interfaces : ∀ j ∈ r.ancestry i, (r.nominal j.id).kind ≠ .classType := by
    refine ancestry_forall (P := fun j => (r.nominal j.id).kind ≠ .classType) (fun j notClass s mem => ?_) notClass
    rcases mem_supertypesOf mem with ⟨d,declared,rfl⟩ | ⟨extends',-⟩
    · by_cases known : j.id ∈ r.nominalIds
      · exact fun isClass => notClass (kinded.classes j.id known d declared isClass)
      · simp [nominal_of_notMem known,Nominal.supertypes] at declared
    · simp [extendsObject,notClass] at extends'
  refine List.eq_nil_iff_forall_not_mem.mpr fun f mem => ?_
  obtain ⟨j,inherited,entry,declared,-⟩ := mem_instanceFields mem
  have unknown : j.id ∉ Registry.initial.nominalIds :=
    fun builtin => interfaces j inherited (unwritten.builtin j.id builtin)
  rw [unwritten.properties,nominal_of_notMem unknown] at declared
  cases declared

lemma instanceSubtype_unwritten (record : (r.nominal y).kind = .record) (src : Instance)
    (assumed : Assumptions) : ∃ table,
      (instanceSubtype r (.within r (depth + 1)) false src (r.raw y)).run assumed = some (true,table) := by
  cases found : r.upcast src y with
  | some viewed => exact ⟨assumed,instanceSubtype_raw found assumed⟩
  | none =>
    have none : r.instanceFields (r.raw y) = [] := instanceFields_unwritten kinded unwritten (by simp [record])
    simp only [instanceSubtype,raw_id,found,record,none]
    by_cases seen : (src.id,y) ∈ assumed
    · exact ⟨assumed,by simp [seen]⟩
    · exact ⟨(src.id,y) :: assumed,by simp [seen,structural]⟩

lemma join_unwritten (different : x ≠ y) (record : (r.nominal x).kind = .record ∨ (r.nominal y).kind = .record) :
    Lattice.join {registry := r, depth := depth + 2} (r.rawType p x) (r.rawType q y) =
      some (r.rawType (p.union q) (r.left x y)) := by
  have joined : Lattice.join {registry := r, depth := depth + 2} (r.rawType p x)
      (r.rawType q y) = _ := join_object (x := r.raw x) (y := r.raw y) different
  rw [joined]
  unfold left
  cases swallows : r.swallows x y with
  | true =>
    have fits : ∃ table, (instanceSubtype r (.within r (depth + 1)) false (r.raw x)
        (r.raw y)).run [] = some (true,table) := by
      simp only [Registry.swallows,Bool.or_eq_true,decide_eq_true_eq] at swallows
      rcases swallows with isRecord | reached
      · exact instanceSubtype_unwritten kinded unwritten isRecord _ _
      · obtain ⟨viewed,found⟩ := isSome_iff_exists.mp reached
        exact ⟨[],instanceSubtype_raw found []⟩
    obtain ⟨table,fits⟩ := fits
    rw [joinDistinct_fits fits]
    rfl
  | false =>
    obtain ⟨named,refused⟩ := refused_of_not_swallows (x := x) swallows
    obtain ⟨table,fits⟩ := instanceSubtype_unwritten kinded unwritten (record.resolve_right named) (r.raw y) []
    rw [joinDistinct_fits_back refused fits]
    rfl

end Unwritten

end Registry
end GradualJs
