import GradualJs.Proofs.Flow.ReadBack

/-! Operators on enums. Where an operand has to be a number or a string, an enum counts as the type of
its values. A sum looks at the operands themselves, and misses an enum of strings. -/
namespace GradualJs.Walk

open BinaryOperator (isArithmetic isRelational)

variable {c : WalkContext} {id : EnumId} {s : WalkState}

/-- The result of a walk, and the kinds of what is reported until then. -/
def kinds (walk : Walk Ty) (s : WalkState) : Option (Ty × List DiagnosticKind) :=
  (walk.run s).map fun res => (res.1,res.2.diagnostics.map (·.kind))

def outcome (c : WalkContext) (op : BinaryOperator) (left right : Ty) (spans : Span × Span)
    (s : WalkState) : Option (Ty × List DiagnosticKind) :=
  kinds (binaryResult c op left right spans.1 spans.2) s

/-- What a report says does not matter for its kind. -/
lemma kinds_report (test : Walk Bool) (message other : String) :
    kinds (do if !(← test) then report kind message span
              return type) s =
      kinds (do if !(← test) then report kind other span
                return type) s := by
  cases ran : test.run s with
  | none => simp [kinds,ran]
  | some res =>
    obtain ⟨yes,after⟩ := res
    cases yes with
    | true => simp [kinds,ran]
    | false =>
      by_cases heard : after.muted = 0 <;> simp [kinds,ran,report,heard,Diagnostic.report]

/-- On either side of an operator an enum gives the same type and the same kinds of reports as the
type of its values, except in a sum of an enum of strings and something that is no string. -/
theorem enum_operand_iff (collected : Declarations.collect prog externs legacy = some decls)
    (eq : c.registry = decls.registry)
    (scalar : c.registry.enumBacking id ∈ [Ty.number,.string,.boolean]) (op : BinaryOperator)
    (t : Ty) (spans : Span × Span) (s : WalkState) : outcome c op (.enumMember id) t spans s =
        outcome c op (c.registry.enumBacking id) t spans s ∧
      outcome c op t (.enumMember id) spans s = outcome c op t (c.registry.enumBacking id) spans s ↔
    ¬(op = .add ∧ c.registry.enumBacking id = .string ∧ t.isUnknown = false ∧ isStringy t = false) := by
  simp only [List.mem_cons,List.not_mem_nil,or_false] at scalar
  have plain := (eq ▸ Declarations.collect_kinded collected : c.registry.Kinded).enumBacking
  have alike (set : PrimitiveSet) : c.lattice.isSubtype (.enumMember id) (.union {primitives := set}) =
      c.lattice.isSubtype (c.registry.enumBacking id) (.union {primitives := set}) := by
    obtain ⟨fits,backed,answers⟩ := Lattice.isSubtype_primitives plain set 4094
    exact ((answers {enums := [id]}).trans (by simp)).trans (backed id).symm
  have number : c.lattice.isSubtype (.enumMember id) .number =
      c.lattice.isSubtype (c.registry.enumBacking id) .number := alike .numberOnly
  have string : c.lattice.isSubtype (.enumMember id) .string =
      c.lattice.isSubtype (c.registry.enumBacking id) .string := alike .stringOnly
  cases arithmetic : op.isArithmetic with
  | true =>
    refine iff_of_true ?_ fun sum => by simp [sum.1,isArithmetic] at arithmetic
    simp only [outcome,kinds,binaryResult,arithmetic,expectNumber,isSubtype,number,ask,report]
    rcases c.lattice.isSubtype (c.registry.enumBacking id) .number with _ | _ | _ <;>
      rcases c.lattice.isSubtype t .number with _ | _ | _ <;>
      by_cases heard : s.muted = 0 <;> simp [heard,Diagnostic.report]
  | false =>
    cases relational : op.isRelational with
    | true =>
      refine iff_of_true ?_ fun sum => by simp [sum.1,isRelational] at relational
      simp only [outcome,binaryResult,arithmetic,relational,areComparable,bothFit,isSubtype, number,string]
      exact ⟨kinds_report _ _ _,kinds_report _ _ _⟩
    | false =>
      cases op with
      | add =>
        have ends (left right : Ty) : outcome c .add left right spans s =
            some (sumType left right,s.diagnostics.map (·.kind)) := rfl
        have known : Ty.isUnknown .number = false ∧ Ty.isUnknown .string = false ∧
            Ty.isUnknown .boolean = false ∧ Ty.isUnknown (.enumMember id) = false :=
          ⟨rfl,rfl,rfl,rfl⟩
        have texts : isStringy .number = false ∧ isStringy .string = true ∧
            isStringy .boolean = false ∧ isStringy (.enumMember id) = false := ⟨rfl,rfl,rfl,rfl⟩
        have differ : Ty.number ≠ .string ∧ Ty.boolean ≠ .string := ⟨nofun,nofun⟩
        rcases scalar with eq | eq | eq <;> cases unknown : t.isUnknown <;>
          cases stringy : isStringy t <;>
          simp [ends,eq,sumType,known,texts,differ,unknown,stringy]
      | instanceOf | isIn =>
        refine iff_of_true ⟨by simp [outcome,binaryResult,arithmetic,relational],?_⟩ (by simp)
        rcases scalar with eq | eq | eq <;> rw [eq] <;> exact kinds_report (pure false) _ _
      | equal | notEqual | strictEqual | strictNotEqual =>
        simp [outcome,binaryResult,isArithmetic,isRelational]
      | _ => simp [isArithmetic,isRelational] at arithmetic relational

/-- `var Level = {}`, an enum of strings. -/
def levels : Program where
  statements := [.var .var [{name := ⟨"Level",{}⟩, initializer := some {kind := .object []}}]
    (some {isEnum := true, enumType := some (Outline.named "string" [])}) {}]

lemma levels_collected : ∃ decls, Declarations.collect levels none false = some decls ∧
    decls.registry.enumBacking ⟨0⟩ = .string := by
  have eq : (Declarations.collect levels none false).map (·.registry.enumBacking ⟨0⟩) = some .string := by
    decide +kernel
  exact Option.map_eq_some_iff.mp eq

/-- Levels are compared as strings are. -/
theorem enum_operand_compared : ∃ decls, Declarations.collect levels none false = some decls ∧
    outcome (.bare decls.registry) .less .string (.enumMember ⟨0⟩) ({},{}) {} =
      outcome (.bare decls.registry) .less .string .string ({},{}) {} := by
  obtain ⟨decls,collected,text⟩ := levels_collected
  have scalar : (WalkContext.bare decls.registry).registry.enumBacking ⟨0⟩ ∈ [Ty.number,.string,.boolean] := by
    simp [WalkContext.bare,Flow.context,text]
  have alike := (enum_operand_iff collected rfl scalar .less .string ({},{}) {}).mpr (by simp)
  exact ⟨decls,collected,text ▸ alike.2⟩

/-- A level and a number make a number, although a string and a number make a string. -/
theorem enum_sum_missed : ∃ decls, Declarations.collect levels none false = some decls ∧
    decls.registry.enumBacking ⟨0⟩ = .string ∧
    outcome (.bare decls.registry) .add (.enumMember ⟨0⟩) .number ({},{}) {} = some (.number,[]) ∧
      outcome (.bare decls.registry) .add .string .number ({},{}) {} = some (.string,[]) := by
  obtain ⟨decls,collected,text⟩ := levels_collected
  exact ⟨decls,collected,text,rfl,rfl⟩

end GradualJs.Walk
