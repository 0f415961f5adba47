import GradualJs.Proofs.Lattice.Joining

/-! Which properties the explanation of a mismatch blames. It goes through the properties of the
expected record once more, and differs from the comparison where the record is loose, and where
`undefined` is added to the type of an optional property. -/
namespace GradualJs.Lattice

open List Option

variable {l : Lattice} {tgt : Record} {p : Field} {problem : Option String}

/-- What is said of a property that is blamed. -/
def blame (l : Lattice) (fields : List Field) (p : Field) : String :=
  "property " ++ p.name ++ match Field.find? fields p.name with
    | none => " is missing"
    | some f => if f.optional && !p.optional then " is optional but required"
      else " has type " ++ l.describe f.type ++ " where " ++ l.describe p.type ++ " was expected"

/-- The comparison by structure, asked afresh about a single property of the target. -/
def accepts (l : Lattice) (fields : List Field) (loose : Bool) (tgt : Record) (p : Field) : Option Bool :=
  (l.relations.structural l.bivariant fields loose [p] tgt.loose).run' []

/-- The explanation does not see that the target is loose, nor that an optional property may be
undefined. -/
def Misjudges (l : Lattice) (fields : List Field) (loose : Bool) (tgt : Record) (p : Field) : Prop :=
  match Field.find? fields p.name with
  | none => p.optional = false ∧ loose = false ∧ tgt.loose = true
  | some f => p.optional = true ∧ l.isSubtype f.type p.type ≠ (l.join p.type .undefined).bind (l.isSubtype f.type)

lemma accepts_eq : l.accepts fields loose tgt p = match Field.find? fields p.name with
    | none => some (p.optional || loose || tgt.loose)
    | some f =>
      if f.optional && !p.optional then some false
      else if p.optional then (l.join p.type .undefined).bind (l.isSubtype f.type)
      else l.isSubtype f.type p.type := by
  unfold accepts Relations.structural
  rw [Query.allM_singleton]
  cases Field.find? fields p.name with
  | none => rfl
  | some f =>
    dsimp only
    split
    · rfl
    · split
      · rw [join]
        cases l.relations.join p.type .undefined <;> rfl
      · rfl

lemma fieldProblem_some (ended : l.fieldProblem fields loose p = some problem) :
    ∀ text ∈ problem, text = l.blame fields p := by
  unfold fieldProblem at ended
  unfold blame
  split at ended
  · rename_i absent
    cases ended
    simp [absent]
  · rename_i f has
    split at ended
    · rename_i optional
      cases ended
      simp [has,optional]
    · rename_i other
      obtain ⟨fits,-,rest⟩ := bind_eq_some_iff.mp ended
      cases fits <;> cases rest <;> simp [has,other,String.append_assoc]

lemma isSome_problem_iff (ended : l.fieldProblem fields loose p = some problem)
    (accepted : l.accepts fields loose tgt p = some fits) :
    (problem.isSome ↔ fits = false) ↔ ¬l.Misjudges fields loose tgt p := by
  rw [accepts_eq] at accepted
  unfold fieldProblem at ended
  unfold Misjudges
  cases has : Field.find? fields p.name with
  | none =>
    rw [has] at accepted ended
    cases ended
    cases accepted
    cases p.optional <;> cases loose <;> cases tgt.loose <;> simp
  | some f =>
    rw [has] at accepted ended
    dsimp only at accepted ended ⊢
    split at ended
    · rename_i optional
      rw [if_pos optional] at accepted
      cases ended
      cases accepted
      simp_all
    · rename_i other
      rw [if_neg other] at accepted
      obtain ⟨below,asked,rest⟩ := bind_eq_some_iff.mp ended
      have verdict : problem.isSome = !below := by cases below <;> cases rest <;> rfl
      split at accepted
      · cases below <;> cases fits <;> simp_all
      · cases asked.symm.trans accepted
        simp_all

lemma explainFields_of_mismatch (shape : l.registry.fieldsOf found = (fields,loose))
    (misfit : l.isSubtype (.object found) (.record tgt) = some false)
    (explained : l.explainMismatch (.object found) (.record tgt) = some text) :
    l.explainFields fields loose tgt.fields = some text := by
  have compared : l.explainObject found (.record tgt) = l.explainFields fields loose tgt.fields := by
    cases found <;> simp [explainObject,explainStructure,shape]
  rw [explainMismatch,misfit] at explained
  have member : l.explainMember (.object found) (.record tgt) = some text := explained
  simp only [explainMember,Ty.object,Ty.record,Ty.objects,filterMapM_cons,compared] at member
  obtain ⟨lines,asked,eq⟩ := bind_eq_some_iff.mp member
  obtain ⟨line,here,asked⟩ := bind_eq_some_iff.mp asked
  cases line <;> cases asked <;> cases eq <;> simp [here,Registry.joined]

/-- The text has one line for each property that is blamed. Those are the properties for which the
comparison by structure refuses the target, but for the ones that are misjudged. -/
theorem explanation_blames_iff (shape : l.registry.fieldsOf found = (fields,loose))
    (misfit : l.isSubtype (.object found) (.record tgt) = some false)
    (explained : l.explainMismatch (.object found) (.record tgt) = some text) :
    ∃ blamed : List Field, blamed.Sublist tgt.fields ∧ text = (if blamed.isEmpty then none else
        some (Registry.joined ", " (blamed.map (l.blame fields)))) ∧
      ∀ p ∈ tgt.fields, ∀ fits, l.accepts fields loose tgt p = some fits →
        ((p ∈ blamed ↔ fits = false) ↔ ¬l.Misjudges fields loose tgt p) := by
  obtain ⟨problems,listed,eq⟩ := bind_eq_some_iff.mp (explainFields_of_mismatch shape misfit explained)
  obtain ⟨all,each⟩ := filterMapM_eq_some listed
  let said (p : Field) : Option String := (l.fieldProblem fields loose p).join
  have known (p : Field) (mem : p ∈ tgt.fields) : l.fieldProblem fields loose p = some (said p) := by
    obtain ⟨problem,ended⟩ := each p mem
    simp [said,ended]
  have lines : problems = (tgt.fields.filter fun p => (said p).isSome).map (l.blame fields) := by
    rw [all,← filterMap_eq_map,filterMap_filter]
    refine filterMap_congr fun p mem => ?_
    have texts := fieldProblem_some (known p mem)
    cases named : said p with
    | none => exact named
    | some text => simpa [texts text named] using named
  refine ⟨tgt.fields.filter fun p => (said p).isSome,filter_sublist,?_,?_⟩
  · cases eq
    rw [lines,isEmpty_map]
  · intro p mem fits accepted
    rw [mem_filter,and_iff_right mem]
    exact isSome_problem_iff (known p mem) accepted

def bay : Lattice := ⟨Registry.initial,false,9⟩

def moored : Record :=
  ⟨[{name := "depth", type := .union {primitives := ⟨false,true,false,false,true,false⟩}}], false,false⟩

def berthDepth : Field := {name := "depth", type := .number, optional := true}
def berthWidth : Field := {name := "width", type := .string}
def berth : Record := ⟨[berthDepth,berthWidth],false,false⟩

theorem explanation_blames_width : bay.isSubtype (.record moored) (.record berth) = some false ∧
    ∃ text, bay.explainMismatch (.record moored) (.record berth) = some text ∧
      ∃ blamed : List Field, text = (if blamed.isEmpty then none else
        some (Registry.joined ", " (blamed.map (bay.blame moored.fields)))) ∧ berthWidth ∈ blamed := by
  obtain ⟨misfit,explained,refused⟩ : bay.isSubtype (.record moored) (.record berth) = some false ∧
      (bay.explainMismatch (.record moored) (.record berth)).isSome ∧
      bay.accepts moored.fields false berth berthWidth = some false := by decide +kernel
  obtain ⟨text,explained⟩ := isSome_iff_exists.mp explained
  obtain ⟨blamed,-,eq,each⟩ := explanation_blames_iff rfl misfit explained
  have judged : ¬bay.Misjudges moored.fields false berth berthWidth := fun wrong => Bool.noConfusion wrong.2.2
  exact ⟨misfit,text,explained,blamed,eq, ((each berthWidth (by simp [berth]) false refused).mpr judged).mpr rfl⟩

/-- The depth is blamed, although nothing is wrong with it. -/
theorem explanation_blames_depth : bay.isSubtype (.record moored) (.record berth) = some false ∧
    bay.explainMismatch (.record moored) (.record berth) = some (some
      "property depth has type (undefined|number) where number was expected, property width is missing") ∧
    bay.accepts moored.fields false berth berthDepth = some true := by
  decide +kernel

end GradualJs.Lattice
