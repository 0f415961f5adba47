import GradualJs.Proofs.Naming.Keeping

/-! Namespaces that are declared as such. The kind of a namespace is settled by what first needs it:
a constant object literal makes it a real one, but not if its name has been used as a namespace
before. -/
namespace GradualJs

open Naming List Registry

/-- The object literal of a name that is no namespace makes it a real one. -/
lemma Registry.lookup_apply_object {r : Registry} {name : String} {span : Span} (tidy : r.Tidy)
    (accepted : (Naming.object name true span).isAccepted r = true) :
    let made := (Naming.object name true span).apply r
    made.lookup name = some (.space r.nextNamespace) ∧ (made.space r.nextNamespace).kind = .real := by
  obtain ⟨last,parents,-,-,-,applied⟩ := exists_apply _ accepted
  have known := lookup_add_self (r := r) (.object name true span)
  have grows := (ensureNamespace_spec (Tidy.add (.object name true span) tidy) (Nat.zero_le _) span parents).2.1
  have named : ((Naming.object name true span).add r).spaceNamed name = some r.nextNamespace :=
    Option.bind_eq_some_iff.mpr ⟨_,known,rfl⟩
  intro made
  constructor
  · rw [show made = _ from applied]
    exact (grows.lookup name not_false (by rw [named]; rfl)).trans known
  · rw [(attach_spec _ tidy accepted).2.kind]
    · simp [Naming.add,addNamespace,nextNamespace,space]
    · simp [Naming.add,addNamespace,nextNamespace]

/-- The declarator gives its name an object literal, and the comment calls it constant and nothing
else. -/
def Declarator.IsNamespace (d : Declarator) (doc : Option JsDoc) (span : Span) : Prop :=
  ∃ properties tags, d.initializer = some ⟨span,.object properties⟩ ∧ doc = some tags ∧
    tags.isConst = true ∧ tags.declaredType = none ∧ tags.kind = none ∧ tags.isEnum = false ∧
    tags.isTypedef = false

lemma Naming.ofDeclarator_namespace {d : Declarator} {span : Span}
    (declares : d.IsNamespace doc span) : .object d.name.name true span ∈ ofDeclarator d doc := by
  obtain ⟨properties,tags,value,rfl,constant,untyped,kind,isEnum,isTypedef⟩ := declares
  simp [ofDeclarator,ofPlainDeclarator,kind,isEnum,isTypedef,value,
    Registering.namespaceLiteral?,untyped,constant,ofValue,ofKind]

lemma Naming.mem_ofStatements
    (mem : s ∈ statements) (declares : naming ∈ ofStatement s) : naming ∈ ofStatements statements := by
  induction statements with
  | nil => cases mem
  | cons first rest ih =>
    rw [ofStatements,mem_append]
    exact (mem_cons.mp mem).imp (fun eq : s = first => eq ▸ declares) ih

namespace Declarations

variable {prog : Program} {decls : Declarations}

/-- A name that stands for a namespace goes on to do so, unless a type is declared. -/
lemma lookup_of_split (collected : collect prog externs legacy = some decls)
    {naming : Naming} {name : String} {id : NamespaceId}
    (split : namings prog externs = pre ++ naming :: later)
    (known : (naming.apply (initial.after pre)).lookup name = some (.space id))
    (untyped : ∀ other ∈ later, other.name = name → other.isType = false) :
    decls.registry.lookup name = some (.space id) ∧
      (decls.registry.space id).kind = ((naming.apply (initial.after pre)).space id).kind := by
  have tidy := (apply_spec naming (after_spec Tidy.initial pre).1).1
  have grows := (after_spec tidy later).2
  have kept : ¬(naming.apply (initial.after pre)).rewrites later name :=
    not_rewrites_iff.mpr fun other mem eq => by
      rw [isAccepted,eq,known,untyped other mem eq]
      rfl
  have named : (naming.apply (initial.after pre)).spaceNamed name = some id := by
    rw [spaceNamed,known]
    rfl
  obtain ⟨eq,-⟩ := collect_spaces collected tidy_registered.global
  rw [eq.lookup,eq.kinds,registry_registered,split,after_append,after_cons]
  exact ⟨(grows.lookup name kept (by rw [named]; rfl)).trans known,grows.kind id (tidy.known name _ known)⟩

/-- A namespace that is declared at top level stands for itself in the end, unless a type of its name
is declared later. It is real if and only if it was no other namespace when the declaration was
reached. -/
theorem namespace_real_iff (collected : collect prog externs legacy = some decls)
    {kind : VarKind} {declarators : List Declarator} {jsdoc : Option JsDoc} {whole span : Span}
    {d : Declarator} (written : .var kind declarators jsdoc whole ∈ prog.statements)
    (among : d ∈ declarators) (declares : d.IsNamespace (d.governingDoc declarators jsdoc) span) :
    .object d.name.name true span ∈ namings prog externs ∧
    ∀ pre later, namings prog externs = pre ++ .object d.name.name true span :: later →
      (∀ other ∈ later, other.name = d.name.name → other.isType = false) →
      ∃ id, decls.registry.lookup d.name.name = some (.space id) ∧ ((decls.registry.space id).kind = .real ↔
          ∀ earlier, (initial.after pre).lookup d.name.name = some (.space earlier) →
            ((initial.after pre).space earlier).kind = .real) := by
  refine ⟨mem_append_right _ (Naming.mem_ofStatements written (mem_flatMap.mpr
    ⟨d,among,Naming.ofDeclarator_namespace declares⟩)),fun pre later split untyped => ?_⟩
  by_cases accepted : (Naming.object d.name.name true span).isAccepted (initial.after pre) = true
  · obtain ⟨looked,real⟩ := lookup_apply_object (after_spec Tidy.initial pre).1 accepted
    obtain ⟨found,kind⟩ := lookup_of_split collected split looked untyped
    refine ⟨_,found,iff_of_true (kind.trans real) fun earlier known => ?_⟩
    rw [isAccepted,Naming.name,known] at accepted
    cases accepted
  · -- The name is that of a namespace already, and nothing is changed.
    obtain ⟨id,known⟩ : ∃ id, (initial.after pre).lookup d.name.name = some (.space id) := by
      rw [isAccepted,Naming.name] at accepted
      cases known : (initial.after pre).lookup d.name.name with
      | none => simp [known] at accepted
      | some meaning =>
        cases meaning with
        | space id => exact ⟨id,rfl⟩
        | nominal | enumType | typedef => simp [known,Declaration.isType,isType] at accepted
    have eq : (Naming.object d.name.name true span).apply (initial.after pre) = initial.after pre := if_neg accepted
    obtain ⟨found,kind⟩ := lookup_of_split collected split (eq ▸ known) untyped
    exact ⟨id,found,by simp [kind,eq,known]⟩

end Declarations

namespace Yard

def depth : Statement := .expression (path yard "Depth") (some {isTypedef := true, typedefType := some ⟨.unknown,{}⟩})

def fence : Declarator := {name := ⟨"yard",{}⟩, initializer := some ⟨{},.object []⟩}
def fenced : Statement := .var .var [fence] (some {isConst := true}) {}
def early : Declarations := (Declarations.collect ⟨[fenced,depth]⟩ none false).get (by decide +kernel)
def late : Declarations := (Declarations.collect ⟨[depth,fenced]⟩ none false).get (by decide +kernel)

end Yard

open Yard

theorem Declarations.namespace_real_early : collect ⟨[fenced,depth]⟩ none false = some early ∧
    ∃ id, early.registry.lookup "yard" = some (.space id) ∧ (early.registry.space id).kind = .real := by
  have collected : collect ⟨[fenced,depth]⟩ none false = some early := (Option.some_get _).symm
  have declares : fence.IsNamespace (fence.governingDoc [fence] (some {isConst := true})) {} :=
    ⟨[],_,rfl,rfl,rfl,rfl,rfl,rfl,rfl⟩
  obtain ⟨id,found,real⟩ := (namespace_real_iff collected mem_cons_self mem_cons_self declares).2 [] _ rfl (by decide)
  exact ⟨collected,id,found,real.mpr fun _ known => by cases known⟩

/-- The yard is declared after something in it. -/
theorem Declarations.namespace_incidental_late :
    collect ⟨[depth,fenced]⟩ none false = some late ∧ late.diagnostics.isEmpty = true ∧
    late.registry.lookup "yard" = some (.space ⟨4⟩) ∧ (late.registry.space ⟨4⟩).kind = .incidental := by
  refine ⟨(Option.some_get _).symm,?_⟩
  decide +kernel

end GradualJs
