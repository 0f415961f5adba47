import GradualJs.Flow.Scope
import GradualJs.Proofs.Lifting
import GradualJs.Proofs.Nodes
import GradualJs.Proofs.Table

/-! The scopes of a program. A name is declared once in a scope, by its first declaration, so
the parameters of a function are never variables of its body. -/
namespace GradualJs

open Lifting List

variable {l : Local}

structure Scope.WellFormed (s : Scope) : Prop where
  distinct : s.locals.keys.Nodup
  body : ∀ fn ∈ s.function, s.body = fn.body.statements
  parameters : ∀ fn ∈ s.function, ∀ p ∈ fn.parameters, ∃ l, s.locals.get? p.name = some l ∧ l.kind = .parameter
  binds : ∀ entry ∈ s.locals.entries, ∀ id ∈ entry.2.function,
    id ∈ (Node.childFunctions (statementNodes s.body)).map (·.id)

section Declaring

variable {start locals : Table String Local} {functions : List FunctionLiteral}

abbrev Reporting.Yields {α : Type} (p : α → Prop) (x : Reporting α) : Prop :=
  (runs.keeping fun _ : List Diagnostic => True).Holds p fun _ => x

/-- Locals are added, and only such functions are bound to them. -/
structure AddsLocals (functions : List FunctionLiteral) (start locals : Table String Local) : Prop
    extends start.Grows locals where
  binds : ∀ entry ∈ locals.entries, ∀ id ∈ entry.2.function, id ∈ functions.map (·.id)

lemma AddsLocals.insertNew (adds : AddsLocals functions start locals) (name : String)
    (bound : ∀ id ∈ l.function, id ∈ functions.map (·.id)) :
    AddsLocals functions start (locals.insertNew name l) := by
  refine ⟨adds.toGrows.insertNew name l,fun entry mem => ?_⟩
  rcases Table.mem_insertNew mem with rfl | old
  · exact bound
  · exact adds.binds entry old

lemma AddsLocals.addLocal (adds : AddsLocals functions start locals) (name : String)
    (bound : ∀ id ∈ l.function, id ∈ functions.map (·.id)) :
    AddsLocals functions start (addLocal r topLevel locals name l) := by
  unfold GradualJs.addLocal
  split
  · exact adds
  · exact adds.insertNew name bound

lemma yields_addDeclarator {d : Declarator}
    (bound : ∀ span fn, d.initializer = some ⟨span,.function fn⟩ → fn ∈ functions)
    (adds : AddsLocals functions start locals) : Reporting.Yields (AddsLocals functions start)
      (addDeclarator r templates topLevel kind locals d jsdoc) := by
  have resolves {α : Type} (x : Reporting α) : Reporting.Yields (fun _ => True) x := fun _ _ _ _ => ⟨trivial,trivial⟩
  unfold addDeclarator
  split
  · exact value _ adds
  · refine sequence _ (resolves _) fun _ _ => value _ (adds.insertNew _ ?_)
    intro id isBound
    split at isBound
    · rename_i initial
      cases isBound
      exact mem_map_of_mem (bound _ _ initial)
    · cases isBound

lemma yields_addNodeLocals {node : Node} (rooted : node.Rooted nodes)
    (adds : AddsLocals (Node.childFunctions nodes) start locals) :
    Reporting.Yields (AddsLocals (Node.childFunctions nodes) start)
      (addNodeLocals r templates topLevel locals node) := by
  unfold addNodeLocals
  split
  · exact foldlM _ adds fun d mem _ adds => yields_addDeclarator (rooted d mem) adds
  · refine value _ (adds.addLocal _ ?_)
    rintro _ ⟨⟩
    exact mem_map_of_mem rooted
  · exact value _ (adds.insertNew _ nofun)
  · exact value _ (adds.insertNew _ nofun)
  · exact value _ (adds.addLocal _ nofun)
  · exact value _ adds

lemma get?_parameterLocals {fn : FunctionLiteral} {id : Identifier} (mem : id ∈ fn.parameters) :
    ∃ l, (parameterLocals r fn).get? id.name = some l ∧ l.kind = .parameter := by
  have names (entry : Identifier × Nat → Local) :
      (fn.parameters.zipIdx.map fun p => (p.1.name,entry p)).map (·.1) = fn.parameters.map (·.name) := by
    rw [map_map,← zipIdx_map_fst 0 fn.parameters,map_map,zipIdx_map_fst]
    rfl
  obtain ⟨l,found,listed⟩ := Table.get?_ofList ((names _).symm ▸ mem_map_of_mem mem)
  obtain ⟨p,-,eq⟩ := mem_map.mp listed
  obtain ⟨-,rfl⟩ := Prod.ext_iff.mp eq
  exact ⟨_,found,rfl⟩

lemma unbound_parameterLocals (fn : FunctionLiteral) :
    ∀ entry ∈ (parameterLocals r fn).entries, entry.2.function = none := by
  intro entry mem
  obtain ⟨p,-,rfl⟩ := mem_map.mp (Table.mem_of_mem_ofList mem)
  rfl

end Declaring

namespace Scoping

abbrev Yields {α : Type} (p : α → Prop) (x : Scoping α) : Prop :=
  (runs.keeping fun found : ScopeList => ∀ s ∈ found.scopes, s.WellFormed).Holds p fun _ => x

lemma yields_localsOf (templates : List String) (topLevel : Bool) {parameters : Table String Local}
    (unbound : ∀ entry ∈ parameters.entries, entry.2.function = none)
    (rooted : ∀ node ∈ nodes, node.Rooted nodes) : Yields (AddsLocals (Node.childFunctions nodes) parameters)
      (localsOf r templates topLevel parameters nodes) := by
  refine sequence _ keeping_get fun found _ => ?_
  refine sequence _ (p := fun collected =>
    AddsLocals (Node.childFunctions nodes) parameters collected.1) ?_ fun collected adds => ?_
  · rintro s kept ⟨res,s'⟩ ran
    obtain ⟨collected,ended,eq⟩ := Option.bind_eq_some_iff.mp ran
    cases eq
    have start : AddsLocals (Node.childFunctions nodes) parameters parameters := by
      refine ⟨.refl _,fun entry mem id isBound => ?_⟩
      cases (unbound entry mem).symm.trans isBound
    have folded : Reporting.Yields (AddsLocals (Node.childFunctions nodes) parameters)
        (nodes.foldlM (addNodeLocals r templates topLevel) parameters) :=
      foldlM _ start fun node mem _ => yields_addNodeLocals (rooted node mem)
    exact ⟨(folded _ trivial _ ended).1,kept⟩
  · exact sequence _ (keeping_modify fun _ => id) fun _ _ => value _ adds

lemma yields_add {s : Scope} (wf : s.WellFormed) : Yields (fun _ => True) (add s) := by
  refine sequence _ keeping_get fun _ _ => ?_
  refine sequence _ (keeping_modify fun found all => ?_) fun _ _ =>
    value _ trivial
  exact forall_mem_append.mpr ⟨all,by simpa using wf⟩

mutual
lemma yields_ofNode (r : Registry) (outer : List ScopeId) (around : List String) :
    (node : Node) → node.Rooted nodes → Yields (fun _ => True) (ofNode r outer around node)
  | .statement _, _ | .expression _, _ => value _ trivial
  | .function fn inner, (eq : inner = _) => by
    have rooted : ∀ node ∈ inner, node.Rooted inner := eq ▸ rooted_statementNodes _
    refine sequence _ (yields_localsOf _ false (unbound_parameterLocals fn) rooted) fun locals adds => ?_
    refine sequence _ (yields_add ⟨adds.distinct (Table.nodup_ofList _),?_,?_,eq ▸ adds.binds⟩) fun id _ =>
      yields_ofNodes r _ _ inner rooted
    · rintro _ ⟨⟩
      rfl
    · rintro _ ⟨⟩ p mem
      obtain ⟨l,found,kind⟩ := get?_parameterLocals mem
      exact ⟨l,adds.kept found,kind⟩

lemma yields_ofNodes (r : Registry) (outer : List ScopeId) (around : List String) :
    (list : List Node) → (∀ node ∈ list, node.Rooted nodes) →
    Yields (fun _ => True) (ofNodes r outer around list)
  | [], _ => value _ trivial
  | node :: rest, rooted => by
    obtain ⟨first,others⟩ := forall_mem_cons.mp rooted
    exact sequence _ (yields_ofNode r outer around node first) fun _ _ =>
      yields_ofNodes r outer around rest others
end

lemma wellFormed_ofProgram {found : ScopeList}
    (ran : (ofProgram r p).run {} = some ((),found)) : ∀ s ∈ found.scopes, s.WellFormed := by
  have rooted := rooted_statementNodes p.statements
  have yields : Yields (fun _ => True) (ofProgram r p) := by
    refine sequence _ (yields_localsOf [] true (by simp) rooted) fun locals adds => ?_
    refine sequence _ (yields_add ⟨adds.distinct (by simp [Table.keys]),nofun,nofun,adds.binds⟩) fun id _ =>
      yields_ofNodes r _ _ _ rooted
  exact (yields {} (by simp) _ ran).2

end Scoping

lemma ScopeTree.wellFormed_scope {t : ScopeTree} (all : ∀ s ∈ t.scopes, s.WellFormed) (id : ScopeId) :
    (t.scope id).WellFormed := by
  unfold scope
  cases found : t.scopes[id]? with
  | none => exact ⟨by simp [default,Table.keys],nofun,nofun,nofun⟩
  | some s => exact all s (mem_of_getElem? found)

end GradualJs
