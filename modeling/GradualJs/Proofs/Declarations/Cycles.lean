import GradualJs.Proofs.Declarations.Kinds
import GradualJs.Proofs.Naming.Growth
import GradualJs.Proofs.Registry.Ancestors
import GradualJs.Proofs.Registry.Outline

/-! Cycles of inheritance. A type that inherits from itself when its turn comes loses all its
supertypes and is reported. So a type that has been gone through never inherits from itself again,
and one that does not lie on a cycle is left alone. -/
namespace GradualJs

open Collecting Registry List Naming

variable {c after : Collection} {count : Nat} {id : NominalId}

def Nominal.uprooted (n : Nominal) : Nominal := {n with superclass := none, interfaces := []}

namespace Registry

abbrev Inherits (r : Registry) : NominalId → NominalId → Prop := Relation.TransGen r.Names

def cycleReport (r : Registry) (id : NominalId) : Diagnostic :=
  .report .inheritanceCycle ((r.nominal id).name ++ " inherits from itself") (r.nominal id).span

variable {r after : Registry} {id : NominalId} {cut : List NominalId}

lemma inheritsItself_iff : inheritsItself r id = true ↔ r.Inherits id id := by
  rw [Inherits,Relation.TransGen.tail'_iff]
  simp [inheritsItself,mem_reachable,Names]

lemma not_names_of_supertypes (none : (r.nominal id).supertypes = []) : ¬r.Names id other := by
  rintro ⟨s,mem,-⟩
  rw [none] at mem
  cases mem

lemma Inherits.supertypes_ne_nil (inherits : r.Inherits id other) : (r.nominal id).supertypes ≠ [] := by
  obtain ⟨next,names,-⟩ := Relation.TransGen.head'_iff.mp inherits
  exact fun none => not_names_of_supertypes none names

lemma Inherits.nominal_modifyNominal (inherits : r.Inherits id other) (f : Nominal → Nominal) :
    (r.modifyNominal id f).nominal id = f (r.nominal id) := by
  have declared : id ∈ r.nominalIds := by
    by_contra absent
    exact inherits.supertypes_ne_nil (by rw [nominal_of_notMem absent]; rfl)
  obtain ⟨index,inside,rfl⟩ := mem_map.mp declared
  have inside := mem_range.mp inside
  simp [nominal,modifyNominal,getElem?_eq_getElem inside]

/-- The types in the list have lost their supertypes, and nothing else has changed. -/
structure Uprooted (r after : Registry) (cut : List NominalId) : Prop where
  taken : ∀ id ∈ cut, r.Inherits id id ∧ after.nominal id = (r.nominal id).uprooted
  kept : ∀ id ∉ cut, after.nominal id = r.nominal id

namespace Uprooted

lemma names (uprooted : Uprooted r after cut) (named : after.Names id other) : r.Names id other := by
  by_cases gone : id ∈ cut
  · rw [Names,(uprooted.taken id gone).2] at named
    obtain ⟨s,mem,-⟩ := named
    cases mem
  · rwa [Names,uprooted.kept id gone] at named

lemma inherits (uprooted : Uprooted r after cut) (inherits : after.Inherits id other) : r.Inherits id other :=
  Relation.TransGen.mono (fun _ _ => uprooted.names) _ _ inherits

lemma cycleReport (uprooted : Uprooted r after cut) (id : NominalId) : after.cycleReport id = r.cycleReport id := by
  by_cases gone : id ∈ cut
  · rw [Registry.cycleReport,(uprooted.taken id gone).2]
    rfl
  · rw [Registry.cycleReport,uprooted.kept id gone]
    rfl

lemma not_inherits (uprooted : Uprooted r after cut) (gone : id ∈ cut) : ¬after.Inherits id other := by
  intro inherits
  refine inherits.supertypes_ne_nil ?_
  rw [(uprooted.taken id gone).2]
  rfl

lemma refl (r : Registry) : Uprooted r r [] := ⟨by simp,by simp⟩

lemma modifyNominal (inherits : r.Inherits id id) : Uprooted r (r.modifyNominal id Nominal.uprooted) [id] := by
  refine ⟨?_,fun other apart => ?_⟩
  · simp only [mem_singleton,forall_eq]
    exact ⟨inherits,inherits.nominal_modifyNominal _⟩
  · rcases nominal_modifyNominal id other Nominal.uprooted with eq | ⟨eq,-⟩
    · exact eq
    · exact absurd (mem_singleton.mpr eq) apart

lemma cons (first : Uprooted r mid [id]) (later : Uprooted mid after cut) : Uprooted r after (id :: cut) := by
  have gone : id ∉ cut := fun again => first.not_inherits (by simp) (later.taken id again).1
  refine ⟨fun other mem => ?_,fun other apart => ?_⟩
  · rcases mem_cons.mp mem with rfl | mem
    · rw [later.kept other gone]
      exact first.taken other (by simp)
    · obtain ⟨inherits,lost⟩ := later.taken other mem
      have apart : other ∉ [id] := fun eq => gone (mem_singleton.mp eq ▸ mem)
      rw [first.kept other apart] at lost
      exact ⟨first.inherits inherits,lost⟩
  · rw [mem_cons,not_or] at apart
    rw [later.kept other apart.2,first.kept other (by simpa using apart.1)]

end Uprooted

structure Acyclic (r : Registry) : Prop where
  irrefl : ∀ id, ¬r.Inherits id id
  object : (r.nominal .object).supertypes = []

lemma Acyclic.of_sameHeaders (acyclic : r.Acyclic) (eq : SameHeaders r after) : after.Acyclic := by
  have supertypes (id : NominalId) : (after.nominal id).supertypes = (r.nominal id).supertypes := by
    rw [Nominal.supertypes,eq.superclass,eq.interfaces,Nominal.supertypes]
  have names : after.Names = r.Names := by
    funext id other
    rw [Names,supertypes,Names]
  refine ⟨fun id => ?_,by rw [supertypes,acyclic.object]⟩
  rw [Inherits,names]
  exact acyclic.irrefl id

end Registry

namespace Collecting

/-- What is read before cycles are looked for: what typedefs and enums mean, and what every type
says it inherits from. -/
def inheritance : Collecting Unit := do
  typedefs
  enums
  headers

/-- What has become of the declarations: no type inherits from itself any more, types that did not
from the start are left as they were, and those that have lost their supertypes are reported, each
once and in the order of declaration. -/
structure CyclesBroken (c after : Collection) (cut : List NominalId) : Prop where
  acyclic : ∀ id, ¬after.registry.Inherits id id
  untouched : ∀ id, ¬c.registry.Inherits id id →
    (after.registry.nominal id).superclass = (c.registry.nominal id).superclass ∧
    (after.registry.nominal id).interfaces = (c.registry.nominal id).interfaces
  reports : after.diagnostics = c.diagnostics ++ cut.map c.registry.cycleReport
  ordered : cut.Sublist (c.nominals.map (·.id))
  once : cut.Nodup
  cleared : ∀ id, id ∈ cut ↔ (c.registry.nominal id).supertypes ≠ [] ∧ (after.registry.nominal id).supertypes = []

lemma run_breakCycle (id : NominalId) (c : Collection) : ∃ after, (breakCycle id).run c = some ((),after) ∧
      ((c.registry.Inherits id id ∧ after.diagnostics = c.diagnostics ++ [c.registry.cycleReport id] ∧
          c.registry.Uprooted after.registry [id]) ∨ ¬c.registry.Inherits id id ∧ after = c) := by
  have read : registry.run c = some (c.registry,c) := rfl
  simp only [breakCycle,StateT.run_bind,read,Option.bind_eq_bind,Option.bind_some]
  split
  · rename_i inherits
    rw [inheritsItself_iff] at inherits
    exact ⟨_,rfl,.inl ⟨inherits,rfl,.modifyNominal inherits⟩⟩
  · rename_i harmless
    rw [inheritsItself_iff] at harmless
    exact ⟨c,rfl,.inr ⟨harmless,rfl⟩⟩

lemma run_breakCycles (sites : List NominalSite) (c : Collection) :
    ∃ after cut, (sites.forM fun site => breakCycle site.id).run c = some ((),after) ∧
      c.registry.Uprooted after.registry cut ∧ cut.Sublist (sites.map (·.id)) ∧ cut.Nodup ∧
      after.diagnostics = c.diagnostics ++ cut.map c.registry.cycleReport ∧
      ∀ site ∈ sites, ¬after.registry.Inherits site.id site.id := by
  induction sites generalizing c with
  | nil => exact ⟨c,[],rfl,.refl _,.slnil,.nil,by simp,by simp⟩
  | cons site rest ih =>
    obtain ⟨mid,ranFirst,looked⟩ := run_breakCycle site.id c
    obtain ⟨after,cut,ranRest,uprooted,listed,once,reports,acyclic⟩ := ih mid
    have ran : ((site :: rest).forM fun site => breakCycle site.id).run c = some ((),after) :=
      run_bind_iff.mpr ⟨(),mid,ranFirst,ranRest⟩
    rcases looked with ⟨-,reported,first⟩ | ⟨harmless,rfl⟩
    · refine ⟨after,site.id :: cut,ran,first.cons uprooted,listed.cons_cons _,?_,?_,?_⟩
      · refine nodup_cons.mpr ⟨fun again => ?_,once⟩
        exact first.not_inherits (by simp) (uprooted.taken _ again).1
      · simp [reports,reported,first.cycleReport]
      · refine forall_mem_cons.mpr ⟨fun inherits => ?_,acyclic⟩
        exact first.not_inherits (by simp) (uprooted.inherits inherits)
    · exact ⟨after,cut,ran,uprooted,listed.cons _,once,reports,
        forall_mem_cons.mpr ⟨fun inherits => harmless (uprooted.inherits inherits),acyclic⟩⟩

/-- Whatever the types inherit from, if those that lie on cycles are in the list of types. -/
lemma cyclesBroken (listed : ∀ id, c.registry.Inherits id id → id ∈ c.nominals.map (·.id)) :
    ∃ after cut, breakCycles.run c = some ((),after) ∧ CyclesBroken c after cut := by
  obtain ⟨after,cut,ran,uprooted,sublist,once,reports,acyclic⟩ := run_breakCycles c.nominals c
  refine ⟨after,cut,ran,?_,fun id harmless => ?_,reports,sublist,once,fun id => ⟨?_,?_⟩⟩
  · intro id inherits
    obtain ⟨site,mem,rfl⟩ := mem_map.mp (listed id (uprooted.inherits inherits))
    exact acyclic site mem inherits
  · rw [uprooted.kept id fun gone => harmless (uprooted.taken id gone).1]
    exact ⟨rfl,rfl⟩
  · intro gone
    obtain ⟨inherits,lost⟩ := uprooted.taken id gone
    exact ⟨inherits.supertypes_ne_nil,by rw [lost]; rfl⟩
  · rintro ⟨had,none⟩
    by_contra kept
    rw [uprooted.kept id kept] at none
    exact had none

lemma CyclesBroken.acyclic_of_object
    (broken : CyclesBroken c after cut) (root : (c.registry.nominal .object).supertypes = []) :
    after.registry.Acyclic := by
  refine ⟨broken.acyclic,?_⟩
  obtain ⟨superclass,interfaces⟩ := broken.untouched .object fun inherits =>
    inherits.supertypes_ne_nil root
  rw [Nominal.supertypes,superclass,interfaces]
  exact root

end Collecting

namespace Registry

lemma nominals_ensureNamespace (r : Registry) (span : Span) (segments : List String) :
    (r.ensureNamespace span segments).2.nominals = r.nominals := by
  induction segments with
  | nil => rfl
  | cons last parents ih =>
    rw [ensureNamespace]
    dsimp only
    split
    · rfl
    · exact ih

lemma nominals_attach (r : Registry) (name : String) (member : Member) (span : Span) :
    (r.attach name member span).nominals = r.nominals := by
  unfold attach
  split
  · rfl
  · exact r.nominals_ensureNamespace span _

/-- The types that are new in the second registry are the given ones, and they come last. -/
structure Lists (r after : Registry) (given : NominalId → Prop) : Prop where
  old : ∀ id, id.index < r.nominals.length → after.nominal id = r.nominal id
  count : r.nominals.length ≤ after.nominals.length
  new : ∀ id, given id ↔ r.nominals.length ≤ id.index ∧ id.index < after.nominals.length

lemma lists_apply (r : Registry) (naming : Naming) :
    r.Lists (naming.apply r) fun id => naming.gives r = some (.nominal id) := by
  by_cases accepted : naming.isAccepted r = true
  · have attached : (naming.apply r).nominals = (naming.add r).nominals := by
      rw [apply,if_pos accepted,nominals_attach]
    refine ⟨fun id inside => ?_,?_,fun id => ?_⟩
    · rw [nominal,attached]
      exact nominal_add naming inside
    · rw [attached]
      exact (counts_add naming).1
    · rw [attached]
      cases naming with
      | nominal name kind jsdoc src span =>
        simp only [gives,accepted,if_true,declaration,add,addNominal,
          modifyNominal,length_modify,length_append,length_singleton,
          Option.some.injEq,Declaration.nominal.injEq]
        obtain ⟨index⟩ := id
        simp only [NominalId.mk.injEq]
        omega
      | enumType name span => simp [gives,accepted,declaration,add,addEnum]
      | typedef name meaning span => simp [gives,add,addTypedef]
      | object name real span => simp [gives,add,addNamespace]
  · have eq : naming.apply r = r := if_neg accepted
    have nothing : naming.gives r = none := by cases naming <;> simp [gives,accepted]
    rw [eq,nothing]
    exact ⟨fun _ _ => rfl,Nat.le_refl _,fun id => by simp⟩

lemma lists_after (r : Registry) (namings : List Naming) :
    r.Lists (r.after namings) fun id => .nominal id ∈ r.gained namings := by
  induction namings generalizing r with
  | nil => exact ⟨fun _ _ => rfl,Nat.le_refl _,fun id => by simp [gained]⟩
  | cons naming rest ih =>
    have first := r.lists_apply naming
    have later := ih (naming.apply r)
    have count := first.count
    have count' := later.count
    rw [after_cons]
    refine ⟨fun id inside => ?_,Nat.le_trans count count',fun id => ?_⟩
    · rw [later.old id (by omega),first.old id inside]
    · rw [gained,mem_append,Option.mem_toList,first.new,later.new]
      omega

/-- The builtin types inherit from nothing but `Object`. -/
structure Rooted (count : Nat) (r : Registry) : Prop where
  count : r.nominals.length = count
  builtin : ∀ id : NominalId, id.index < 3 → (r.nominal id).supertypes = (initial.nominal id).supertypes

lemma Rooted.declared {r : Registry} (rooted : Rooted count r)
    (inherits : r.Inherits id id) : 3 ≤ id.index ∧ id.index < count := by
  constructor
  · by_contra builtin
    have object {other : NominalId} : ¬r.Names .object other :=
      not_names_of_supertypes (rooted.builtin .object (by decide))
    obtain ⟨next,⟨s,mem,rfl⟩,onwards⟩ := Relation.TransGen.head'_iff.mp inherits
    have above : s = objectInstance := by
      rw [rooted.builtin id (by omega)] at mem
      obtain ⟨_ | _ | _ | _⟩ := id
      · cases mem
      · exact mem_singleton.mp mem
      · exact mem_singleton.mp mem
      · exact absurd (Nat.le_add_left 3 _) builtin
    subst above
    rcases Relation.ReflTransGen.cases_head onwards with eq | ⟨_,names,_⟩
    · have names : r.Names id objectInstance.id := ⟨_,mem,rfl⟩
      rw [← eq] at names
      exact object names
    · exact object names
  · by_contra beyond
    refine inherits.supertypes_ne_nil ?_
    rw [nominal,getElem?_eq_none (by rw [rooted.count]; omega)]
    rfl

end Registry

namespace Declarations

lemma mem_nominals_registered : id ∈ (registered prog externs).nominals.map (·.id) ↔
      3 ≤ id.index ∧ id.index < (registered prog externs).registry.nominals.length := by
  have listed : id ∈ (registered prog externs).nominals.map (·.id) ↔ .nominal id ∈ (registered prog externs).types := by
    simp [Collection.types]
  rw [listed,mem_types_registered,registry_registered]
  exact (lists_after _ _).new id

lemma rooted_registered : (registered prog externs).registry.Rooted
    (registered prog externs).registry.nominals.length := by
  refine ⟨rfl,fun id builtin => ?_⟩
  rw [registry_registered,(initial.lists_after _).old id builtin]

lemma nominals_of_found {c' : Collection} (eq : c.found = c'.found) : c.nominals = c'.nominals := by
  have nominals : c.found.nominals = c'.found.nominals := by rw [eq]
  exact nominals

lemma rooted_headers (listed : ∀ site ∈ c.nominals, 3 ≤ site.id.index) (rooted : c.registry.Rooted count)
    (ran : headers.run c = some ((),after)) : after.found = c.found ∧ after.registry.Rooted count := by
  have keeps : (Lifting.runs.keeping fun now : Collection => now.found = c.found ∧
      now.registry.Rooted count).Holds (fun _ => True) fun _ => headers := by
    refine Lifting.sequence _ Lifting.keeping_get fun now kept => Lifting.forM _ fun site mem => ?_
    rw [nominals_of_found kept.1] at mem
    refine (keeps_header site fun r superclass interfaces access _ rooted => ?_).keeping c.found
    refine ⟨by simp [modifyNominal,rooted.count],fun id builtin => ?_⟩
    rcases nominal_modifyNominal site.id id _ with eq | ⟨eq,-⟩
    · rw [eq]
      exact rooted.builtin id builtin
    · have := listed site mem
      rw [eq] at builtin
      omega
  exact (keeps c ⟨rfl,rooted⟩ _ ran).2

/-- Once the headers have been read, the types that lie on cycles are in the list of types. -/
lemma rooted_inheritance (headed : inheritance.run (registered prog externs) = some ((),c)) :
    (∃ count, c.registry.Rooted count) ∧ ∀ id, c.registry.Inherits id id → id ∈ c.nominals.map (·.id) := by
  obtain ⟨_,meant,typedefs,ran⟩ := run_bind_iff.mp headed
  obtain ⟨_,backed,enums,headers⟩ := run_bind_iff.mp ran
  have keptTypedefs := (keeps_typedefs fun _ _ _ rooted =>
    ⟨rooted.count,rooted.builtin⟩).run_found rooted_registered typedefs
  have keptEnums := (keeps_enums fun _ _ _ _ _ rooted =>
    ⟨rooted.count,rooted.builtin⟩).run_found keptTypedefs.2.2 enums
  have listed : backed.nominals = (registered prog externs).nominals :=
    nominals_of_found (keptEnums.2.1.trans keptTypedefs.2.1)
  have declared (site : NominalSite) (mem : site ∈ backed.nominals) : 3 ≤ site.id.index := by
    rw [listed] at mem
    exact (mem_nominals_registered.mp (mem_map_of_mem mem)).1
  obtain ⟨eq,rooted⟩ := rooted_headers declared keptEnums.2.2 headers
  refine ⟨⟨_,rooted⟩,fun id inherits => ?_⟩
  rw [nominals_of_found eq,listed,mem_nominals_registered]
  exact rooted.declared inherits

/-- Once the headers have been read, cycles are broken completely, and nothing is lost that does
not lie on one. -/
theorem cycles_broken {c : Collection} (headed : Collecting.inheritance.run (registered prog externs) = some ((),c)) :
    ∃ after cut, Collecting.breakCycles.run c = some ((),after) ∧ Collecting.CyclesBroken c after cut :=
  Collecting.cyclesBroken (rooted_inheritance headed).2

lemma collect_acyclic {decls : Declarations}
    (collected : collect prog externs legacy = some decls) : decls.registry.Acyclic := by
  obtain ⟨headed,signed,filled,final,phases,eq⟩ := collect_phases collected
  have headings : (do inheritance; breakCycles; bindMethodOwners).run (registered prog externs) = some ((),headed) := by
    rw [← phases.headings]
    simp only [inheritance,headings,bind_assoc]
  obtain ⟨_,c,inheritance,ran⟩ := run_bind_iff.mp headings
  obtain ⟨_,broken,breakCycles,bound⟩ := run_bind_iff.mp ran
  obtain ⟨⟨count,rooted⟩,listed⟩ := rooted_inheritance inheritance
  obtain ⟨after,cut,ran,cyclesBroken⟩ := cyclesBroken listed
  obtain ⟨-,rfl⟩ := Prod.mk.inj (Option.some.inj (breakCycles.symm.trans ran))
  have acyclic := cyclesBroken.acyclic_of_object (rooted.builtin .object (by decide))
  have bound : headed.registry = broken.registry := by
    cases bound
    rfl
  have signed := ((keeps_signatures ⟨fun _ id _ kept => kept.of_sameHeaders
    (sameHeaders_modifyNominal id),fun _ _ kept => kept.of_sameHeaders
    (sameHeaders_of_nominals rfl)⟩ prog externs).run (bound ▸ acyclic) phases.signatures).2.2
  have contents : Contents Acyclic := ⟨fun _ id _ _ kept =>
    kept.of_sameHeaders (sameHeaders_modifyNominal id),fun _ _ _ _ kept =>
    kept.of_sameHeaders (sameHeaders_of_nominals rfl)⟩
  have filled := ((keeps_members contents).run signed phases.members).2.2
  have closed := ((keeps_closing contents.setMember legacy).run filled phases.closing).2.2
  rw [eq]
  exact closed.of_sameHeaders (sameHeaders_of_nominals rfl)

open Outline in
/-- Two classes that extend each other, and one that extends the first. -/
def entangled : List Outline := [
  {name := "A", doc := {kind := some .constructor, supertypes := [named "B" []]}},
  {name := "B", doc := {kind := some .constructor, supertypes := [named "A" []]}},
  {name := "C", doc := {kind := some .constructor, supertypes := [named "A" []]}}]

theorem cycles_broken_entangled : ∃ c,
    Collecting.inheritance.run (registered (Outline.program entangled) none) = some ((),c) ∧
    (c.registry.Inherits ⟨3⟩ ⟨3⟩ ∧ c.registry.Inherits ⟨4⟩ ⟨4⟩ ∧ ¬c.registry.Inherits ⟨5⟩ ⟨5⟩) ∧
    ∃ after cut, Collecting.breakCycles.run c = some ((),after) ∧ Collecting.CyclesBroken c after cut := by
  have cyclic : (Collecting.inheritance.run (registered (Outline.program entangled) none)).map
      (fun ran => [⟨3⟩,⟨4⟩,⟨5⟩].map (Collecting.inheritsItself ran.2.registry)) = some [true,true,false] := by
    decide
  obtain ⟨⟨_,c⟩,headed,cyclic⟩ := Option.map_eq_some_iff.mp cyclic
  simp only [List.map_cons,List.map_nil,List.cons.injEq,and_true,← Bool.not_eq_true,
    Registry.inheritsItself_iff] at cyclic
  exact ⟨c,headed,cyclic,cycles_broken headed⟩

end Declarations

end GradualJs
