import GradualJs.Proofs.Naming.Standing

/-! Which types keep their names. Only a type is guarded against types: an object literal takes
the name from it, a namespace around it may be replaced, and a global variable takes its place. -/
namespace GradualJs

open Collecting Option List

/-- The name stands for the type, and the namespace around the name has the namespace of the type
under the last segment. -/
def Registry.HasName (r : Registry) (d : Declaration) (name : String) : Prop :=
  r.lookup name = some d ∧ ∃ own, r.spaceOf d = some own ∧ r.entry name = some (.inner own)

namespace Registry

variable {r changed : Registry}

lemma SameSpaces.nameOf_of_mem (eq : r.SameSpaces changed) {c : Collection}
    (accepted : d ∈ c.types) : changed.nameOf d = r.nameOf d := by
  rcases mem_append.mp accepted with nominal | enumType
  · obtain ⟨site,-,rfl⟩ := mem_map.mp nominal
    exact (eq.nominals site.id).2
  · obtain ⟨site,-,rfl⟩ := mem_map.mp enumType
    exact (eq.enums site.id).2

lemma not_rewrites_iff : ¬r.rewrites namings name ↔
      ∀ other ∈ namings, other.name = name → other.isAccepted r = false := by
  simp only [rewrites,not_exists,not_and,Bool.not_eq_true]

lemma isAccepted_of_isType {d : Declaration} (known : r.lookup name = some d)
    (isType : d.isType = true) {other : Naming} (eq : other.name = name) :
    other.isAccepted r = false ↔ other.isType = true := by
  rw [Naming.isAccepted,eq,known,all_some,isType]
  cases other.isType <;> decide

/-- What is in the namespace around a name is what was there, unless a global variable is. -/
lemma entry_eq_inner_iff (eq : r.SameSpaces changed) (tidy : r.Tidy) {taken : String → Prop}
    (places : ∀ id last inner, changed.member? id last = some (.inner inner) ↔
      r.member? id last = some (.inner inner) ∧ ¬(id = .global ∧ taken last))
    (name : String) (own : NamespaceId) : changed.entry name = some (.inner own) ↔
      r.entry name = some (.inner own) ∧ ((Name.split name).1 = none → ¬taken name) := by
  unfold entry
  rw [eq.home,bind_eq_some_iff,bind_eq_some_iff]
  simp only [places]
  cases parts : (Name.split name).1 with
  | none =>
    have global : r.home name = some .global := by rw [home,parts]
    have last : (Name.split name).2 = name := by
      unfold Name.split at parts ⊢
      split at parts
      · cases parts
      · rfl
    simp [global,last]
  | some parent =>
    constructor
    · rintro ⟨id,around,has,-⟩
      exact ⟨⟨id,around,has⟩,by simp⟩
    · rintro ⟨⟨id,around,has⟩,-⟩
      refine ⟨id,around,has,fun global => ?_⟩
      rw [home,parts] at around
      exact (tidy.named parent id around).1 global.1

end Registry

namespace Declarations

variable {decls : Declarations}

/-- What is left of the names after all passes: names keep their meaning, and namespaces their
places but for those that global variables take. -/
lemma collect_spaces (collected : collect prog externs legacy = some decls)
    (global : 0 < (registered prog externs).registry.namespaces.length) :
    (registered prog externs).registry.SameSpaces decls.registry ∧
    ∀ id last inner, decls.registry.member? id last = some (.inner inner) ↔
      (registered prog externs).registry.member? id last = some (.inner inner) ∧
        ¬(id = .global ∧ ∃ site ∈ (registered prog externs).globals, site.name = last ∧ site.isDeclared = true) := by
  obtain ⟨headed,signed,filled,final,phases,frozen⟩ := collect_phases collected
  have spaces : Collecting.Invariant (registered prog externs).registry.SameSpaces := Registry.SameSpaces.invariant
  obtain ⟨-,found,eq⟩ := (keeps_headings spaces.toHeadings).run_found
    ⟨rfl,fun _ => ⟨rfl,rfl⟩,fun _ => ⟨rfl,rfl⟩,fun _ => rfl⟩ phases.headings
  obtain ⟨-,found',eq⟩ := (keeps_signatures spaces.toSignatures prog externs).run_found eq phases.signatures
  obtain ⟨-,found'',eq⟩ := (keeps_members spaces.toContents).run_found eq phases.members
  obtain ⟨-,-,eq⟩ := (keeps_closing spaces.setMember legacy).run eq phases.closing
  have sites : filled.found.globals = (registered prog externs).found.globals := by
    rw [found'',found',found]
  -- Nothing is put into namespaces until members are read.
  have headers : Headings (·.namespaces = (registered prog externs).registry.namespaces) :=
    ⟨fun _ _ _ eq => eq,fun _ _ _ _ _ eq => eq,fun _ _ _ _ _ _ eq => eq,fun _ _ eq => eq⟩
  have functions : Signatures (·.namespaces = (registered prog externs).registry.namespaces) :=
    ⟨fun _ _ _ eq => eq,fun _ _ eq => eq⟩
  have untouched := ((keeps_headings headers).run rfl phases.headings).2.2
  have untouched := ((keeps_signatures functions prog externs).run untouched phases.signatures).2.2
  have contents : Contents (·.namespaces.length = (registered prog externs).registry.namespaces.length) :=
    ⟨fun _ _ _ _ eq => eq,fun _ _ _ _ eq => Registry.count_setMember.trans eq⟩
  have count := ((keeps_members contents).run (congrArg length untouched) phases.members).2.2
  obtain ⟨_,closed,globals,checks⟩ := run_bind_iff.mp phases.closing
  have last : closed.registry = final.registry := ((keeps_checkNominals legacy).run rfl checks).2.2
  constructor
  · rw [frozen]
    exact ⟨eq.declarations,eq.nominals,eq.enums,eq.kinds⟩
  · intro id name inner
    have placed := @inner_globals _ _ inner id name filled.globals (by rwa [count]) globals
    rw [last,inner_members signed.members phases.members,
      show filled.globals = (registered prog externs).globals from sites] at placed
    rw [frozen]
    unfold Registry.member? Registry.space at placed ⊢
    rw [← untouched]
    exact placed

lemma tidy_registered : (registered prog externs).registry.Tidy := by
  rw [registry_registered]
  exact (Registry.after_spec Registry.Tidy.initial _).1

/-- A type that is accepted has the name it is declared with if and only if no object literal of
that name follows, the namespace around it is not declared anew, and no global variable of its
name gets a declaration. -/
theorem type_keeps_name_iff (collected : collect prog externs legacy = some decls)
    {d : Declaration} (accepted : d ∈ (registered prog externs).types) :
    let r := decls.registry
    let name := r.nameOf d
    ∃ pre naming later, namings prog externs = pre ++ naming :: later ∧
      naming.name = name ∧ naming.gives (Registry.initial.after pre) = some d ∧
      (r.HasName d name ↔ (∀ other ∈ later, other.name = name → other.isType = true) ∧
        match (Name.split name).1 with
        | some parent => ∀ other ∈ later, other.name = parent →
            other.isAccepted (Registry.initial.after (pre ++ [naming])) = false
        | none => ∀ site ∈ (registered prog externs).globals, site.name = name → site.isDeclared = false) := by
  intro r name
  obtain ⟨pre,naming,later,split,gives⟩ := Registry.mem_gained (mem_types_registered.mp accepted)
  have tidy := (Registry.after_spec Registry.Tidy.initial pre).1
  obtain ⟨tidy',-⟩ := Registry.apply_spec naming tidy
  obtain ⟨around,named⟩ := Registry.named_apply tidy gives
  have registry : (registered prog externs).registry = (naming.apply (Registry.initial.after pre)).after later := by
    rw [registry_registered,split,Registry.after_append,Registry.after_cons]
  obtain ⟨eq,places⟩ := collect_spaces collected tidy_registered.global
  have grows := (Registry.after_spec tidy' later).2
  have known := tidy'.known _ d named.lookup
  have called : name = naming.name := by
    rw [← named.nameOf,← grows.nameOf d known,← registry]
    exact eq.nameOf_of_mem accepted
  have space : r.spaceOf d = some (Registry.initial.after pre).nextNamespace := by
    rw [eq.spaceOf,registry,(grows.spaceOf d known).2,named.spaceOf]
  have kept := named.after_iff tidy' later
  rw [← registry,← called] at kept
  refine ⟨pre,naming,later,split,called.symm,gives,?_⟩
  rw [Registry.HasName,space]
  simp only [some.injEq,exists_eq_left']
  rw [eq.lookup,Registry.entry_eq_inner_iff eq tidy_registered places,← and_assoc,kept]
  have ownName : ¬(naming.apply (Registry.initial.after pre)).rewrites later name ↔
      ∀ other ∈ later, other.name = name → other.isType = true := by
    obtain ⟨-,-,-,-,-,isType⟩ := Registry.gives_spec gives
    rw [Registry.not_rewrites_iff]
    apply forall₃_congr
    intro other _ sameName
    exact Registry.isAccepted_of_isType named.lookup isType (sameName.trans called)
  rw [ownName,and_assoc]
  apply and_congr_right
  intro _
  cases (Name.split name).1 with
  | none => simp
  | some parent =>
    simp [Registry.not_rewrites_iff,Registry.after_append]

end Declarations

/-! A yard with cranes. One of them stands in a namespace; the name of the other is given to an
object afterwards. -/
namespace Yard

def object (name : String) : Statement := .var .var [{name := ⟨name,{}⟩, initializer := some ⟨{},.object []⟩}] none {}

def path (parent : Expression) (last : String) : Expression := ⟨{},.member parent last {}⟩
def yard : Expression := ⟨{},.identifier ⟨"yard",{}⟩⟩

def fn : FunctionLiteral := {id := 0, parameters := [], body := ⟨[],{}⟩, jsdoc := some {kind := some .constructor}}

def inside : Program where
  statements := [
    object "yard",
    .expression ⟨{},.assignment none (path yard "Crane") ⟨{},.function fn⟩⟩ fn.jsdoc,
    .expression ⟨{},.assignment none (path (path yard "Crane") "Load") ⟨{},.object []⟩⟩ (some {isEnum := true})]

def outside : Program where
  statements := [.function ⟨"Crane",{}⟩ fn,object "Crane"]

def crane : Declaration := .nominal ⟨3⟩
def standing : Declarations := (Declarations.collect inside none false).get (by decide +kernel)
def replaced : Declarations := (Declarations.collect outside none false).get (by decide +kernel)

lemma names : (Declarations.namings inside none).map Naming.name = ["yard", "yard.Crane", "yard.Crane.Load"] := by
  decide +kernel

lemma later_names {pre later : List Naming} {naming : Naming}
    (split : Declarations.namings inside none = pre ++ naming :: later)
    (name : naming.name = "yard.Crane") : later.map Naming.name = ["yard.Crane.Load"] := by
  have parts := names
  rw [split,map_append,map_cons,name] at parts
  rcases pre with _ | ⟨first,_ | ⟨second,_ | ⟨third,rest⟩⟩⟩
  · simp at parts
  · simpa using (cons.inj parts).2
  · simp at parts
  · simp at parts

end Yard

open Yard in
theorem Declarations.crane_keeps_name :
    collect inside none false = some standing ∧ crane ∈ (registered inside none).types ∧
      standing.registry.nameOf crane = "yard.Crane" ∧ standing.registry.HasName crane "yard.Crane" := by
  have collected : collect inside none false = some standing := (some_get _).symm
  have accepted : crane ∈ (registered inside none).types := by decide +kernel
  have called : standing.registry.nameOf crane = "yard.Crane" := by decide +kernel
  have around : (Name.split "yard.Crane").1 = some "yard" := by decide +kernel
  obtain ⟨pre,naming,later,split,name,-,kept⟩ := type_keeps_name_iff collected accepted
  simp only [called,around] at name kept
  have others : ∀ other ∈ later, other.name = "yard.Crane.Load" := by
    intro other member
    simpa [later_names split name] using mem_map_of_mem (f := Naming.name) member
  refine ⟨collected,accepted,called,kept.mpr ⟨?_,?_⟩⟩
  · intro other member eq
    simp [others other member] at eq
  · intro other mem eq
    simp [others other mem] at eq

open Yard in
/-- An object takes the name of the other crane, and nothing is reported. -/
theorem Declarations.crane_loses_name :
    collect outside none false = some replaced ∧ replaced.diagnostics.isEmpty = true ∧
      crane ∈ (registered outside none).types ∧ replaced.registry.nameOf crane = "Crane" ∧
      ¬replaced.registry.HasName crane "Crane" := by
  refine ⟨(some_get _).symm,?_,?_,?_,?_⟩
  · decide +kernel
  · decide +kernel
  · decide +kernel
  · rintro ⟨known,-⟩
    have other : replaced.registry.lookup "Crane" ≠ some crane := by decide +kernel
    exact other known

end GradualJs
