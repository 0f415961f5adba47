import GradualJs.Proofs.Flow.Scopes
import Mathlib.Data.List.Nodup
import Mathlib.Data.List.Perm.Subperm
import Mathlib.Logic.Relation

/-! The order in which scopes are followed. Siblings are placed depth first along their calls, so
that a callee comes first unless it leads back to its caller. A scope is followed by the scopes
inside it. -/
namespace GradualJs

open List Option

variable {s : Scope} {pre : List Scope}
namespace ScopeTree

section Placing

variable {callees : ScopeId → List ScopeId} {siblings waiting placed : List ScopeId}

abbrev Reaches (callees : ScopeId → List ScopeId) : ScopeId → ScopeId → Prop :=
  Relation.ReflTransGen fun caller callee => callee ∈ callees caller

/-- What holds of the scopes that are placed while others wait for their callees. -/
structure Placed (callees : ScopeId → List ScopeId) (siblings waiting placed : List ScopeId) : Prop where
  nodup : placed.Nodup
  within : placed ⊆ siblings
  apart : ∀ other ∈ waiting, other ∉ placed
  first : ∀ caller ∈ placed, ∀ callee ∈ callees caller, [callee,caller].Sublist placed ∨ Reaches callees callee caller

/-- Some scopes are placed behind others, except for those that wait. -/
structure Places (callees : ScopeId → List ScopeId) (siblings waiting placed list after : List ScopeId) :
    Prop extends Placed callees siblings waiting after where
  kept : placed ⊆ after
  present : ∀ child ∈ list, child ∈ after ∨ child ∈ waiting

lemma Placed.snoc (held : Placed callees siblings (child :: waiting) placed)
    (mem : child ∈ siblings) (fresh : child ∉ waiting)
    (ready : ∀ callee ∈ callees child, callee ∈ placed ∨ Reaches callees callee child) :
    Placed callees siblings waiting (placed ++ [child]) where
  nodup := by
    have absent := held.apart child mem_cons_self
    exact nodup_append.mpr ⟨held.nodup,by simp,by grind⟩
  within := append_subset.mpr ⟨held.within,by simpa using mem⟩
  apart other waits := by
    have absent := held.apart other (mem_cons_of_mem _ waits)
    grind
  first caller isPlaced callee isCallee := by
    rcases mem_append.mp isPlaced with pre | last
    · exact (held.first caller pre callee isCallee).imp_left (·.trans (sublist_append_left _ _))
    · obtain rfl := mem_singleton.mp last
      refine (ready callee isCallee).imp_left fun pre => ?_
      exact (singleton_sublist.mpr pre).append (.refl [caller])

lemma foldl_place (list : List ScopeId) (step : ∀ child ∈ list, ∀ placed, Placed callees siblings waiting placed →
      Places callees siblings waiting placed [child] (place callees levels waiting placed child))
    (held : Placed callees siblings waiting placed) :
    Places callees siblings waiting placed list (list.foldl (place callees levels waiting) placed) := by
  induction list generalizing placed with
  | nil => exact ⟨held,Subset.refl _,nofun⟩
  | cons child rest ih =>
    have one := step child mem_cons_self placed held
    have others := ih (fun other mem => step other (mem_cons_of_mem _ mem)) one.toPlaced
    refine ⟨others.toPlaced,Subset.trans one.kept others.kept,?_⟩
    intro other mem
    rcases mem_cons.mp mem with rfl | later
    · exact (one.present other mem_cons_self).imp_left fun here => others.kept here
    · exact others.present other later

/-- A scope is placed behind its callees. The scopes that wait are distinct siblings, so there are
levels enough for all of them, and each of them leads to the scope. -/
lemma place_spec (closed : ∀ caller ∈ siblings, callees caller ⊆ siblings)
    (enough : siblings.length < levels + waiting.length) (distinct : waiting.Nodup)
    (inside : waiting ⊆ siblings) (mem : child ∈ siblings)
    (leads : ∀ other ∈ waiting, Reaches callees other child) (held : Placed callees siblings waiting placed) :
    Places callees siblings waiting placed [child] (place callees levels waiting placed child) := by
  induction levels generalizing waiting placed child with
  | zero =>
    have := (distinct.subperm inside).length_le
    omega
  | succ levels ih =>
    unfold place
    split
    · rename_i known
      exact ⟨held,Subset.refl _,by simpa using known⟩
    · rename_i unknown
      simp only [contains_iff_mem,Bool.or_eq_true,not_or] at unknown
      obtain ⟨notPlaced,fresh⟩ := unknown
      have waits : Placed callees siblings (child :: waiting) placed :=
        {held with apart := forall_mem_cons.mpr ⟨notPlaced,held.apart⟩}
      have around : ∀ other ∈ child :: waiting, Reaches callees other child := forall_mem_cons.mpr ⟨.refl,leads⟩
      have all := foldl_place (callees child) (fun callee isCallee _ held => ih (by simp only [length_cons]; omega)
          (nodup_cons.mpr ⟨fresh,distinct⟩) (cons_subset.mpr ⟨mem,inside⟩)
          (closed child mem isCallee) (fun other waits => (around other waits).tail isCallee) held)
        waits
      refine ⟨all.toPlaced.snoc mem fresh fun callee isCallee => ?_,
        Subset.trans all.kept (subset_append_left _ _),by simp⟩
      exact (all.present callee isCallee).imp_right (around callee)

end Placing

variable {t : ScopeTree} {id child : Nat}

@[simp] lemma mem_children : child ∈ t.children id ↔ child < t.scopes.length ∧ (t.scope child).parent? = some id := by
  simp [children]

lemma ofFunction?_eq_some (found : t.ofFunction? function = some id) :
    ∃ s, t.scopes[id]? = some s ∧ s.function.map (·.id) = some function := by
  obtain ⟨⟨s,index⟩,isFound,rfl⟩ := map_eq_some_iff.mp found
  have mem := mem_of_find?_eq_some isFound
  have eq := find?_some isFound
  refine ⟨s,?_,by simpa using eq⟩
  simpa [mem_zipIdx_iff_getElem?] using mem

lemma lt_of_getElem?_eq_some (found : t.scopes[id]? = some s) : id < t.scopes.length :=
  (List.getElem?_eq_some_iff.mp found).1

lemma places_orderedChildren {siblings : List ScopeId} (size : siblings.length ≤ t.scopes.length)
    (within : t.children id ⊆ siblings) (closed : ∀ caller ∈ siblings, t.callees id caller ⊆ siblings) :
    Places (t.callees id) siblings [] [] (t.children id) (t.orderedChildren id) :=
  foldl_place _ (fun _ isChild _ held => place_spec closed (by simp only [length_nil]; omega) .nil
      (nil_subset _) (within isChild) nofun held)
    ⟨.nil,nil_subset _,nofun,nofun⟩

lemma mem_orderedChildren (mem : child ∈ t.children id) : child ∈ t.orderedChildren id := by
  have closed (caller : ScopeId) : t.callees id caller ⊆ range t.scopes.length := by
    intro callee isCallee
    obtain ⟨name,-,called⟩ := mem_filterMap.mp isCallee
    obtain ⟨function,-,found⟩ := bind_eq_some_iff.mp called
    obtain ⟨s,present,-⟩ := ofFunction?_eq_some found
    exact mem_range.mpr (lt_of_getElem?_eq_some present)
  have placed := places_orderedChildren (Nat.le_of_eq length_range) (filter_subset_self _) fun caller _ => closed caller
  simpa using placed.present child mem

/-- The first scope is the root, and every other one lies in a scope before it. -/
def Nested (t : ScopeTree) : Prop :=
  ∀ (index : Nat) (s : Scope), t.scopes[index]? = some s →
    (index = root ∧ s.parent? = none) ∨ ∃ parent : Nat, s.parent? = some parent ∧ parent < index

/-- One scope is another one or lies somewhere inside it. -/
abbrev Within (t : ScopeTree) : ScopeId → ScopeId → Prop :=
  Relation.ReflTransGen fun child parent => child ∈ t.children parent

lemma lt_of_mem_children (nested : t.Nested) (mem : child ∈ t.children id) : id < child := by
  obtain ⟨present,inside⟩ := mem_children.mp mem
  rw [scope,getElem?_eq_getElem present] at inside
  rcases nested child _ (getElem?_eq_getElem present) with ⟨-,none⟩ | ⟨parent,some,pre⟩
  · cases none.symm.trans inside
  · cases some.symm.trans inside
    exact pre

lemma le_of_within (nested : t.Nested) (inside : t.Within other id) : id ≤ other := by
  induction inside with
  | refl => exact Nat.le_refl _
  | tail _ mem ih => exact Nat.le_trans (Nat.le_of_lt (lt_of_mem_children nested mem)) ih

lemma within_root (nested : t.Nested) (present : index < t.scopes.length) : t.Within index root := by
  induction index using Nat.strongRecOn with
  | ind index ih =>
    rcases nested index _ (getElem?_eq_getElem present) with ⟨rfl,-⟩ | ⟨parent,inside,pre⟩
    · exact .refl
    · refine .head (mem_children.mpr ⟨present,?_⟩) (ih parent pre (Nat.lt_trans pre present))
      rw [scope,getElem?_eq_getElem present]
      exact inside

/-- As scopes lie behind those around them, there are levels enough to reach all of them. -/
lemma infix_orderFrom (nested : t.Nested) (inside : t.Within other id) (enough : t.scopes.length ≤ levels + id) :
    ∃ further, t.scopes.length ≤ further + other ∧ t.orderFrom further other <:+: t.orderFrom levels id := by
  induction inside generalizing levels with
  | refl => exact ⟨levels,enough,infix_rfl⟩
  | tail _ mem ih =>
    have pre := lt_of_mem_children nested mem
    have present := (mem_children.mp mem).1
    obtain ⟨levels,rfl⟩ : ∃ fewer, levels = fewer + 1 := ⟨levels - 1,by omega⟩
    obtain ⟨further,deep,part⟩ := @ih levels (by omega)
    refine ⟨further,deep,part.trans (.trans ?_ (suffix_cons _ _).isInfix)⟩
    exact infix_of_mem_flatten (mem_map_of_mem (mem_orderedChildren mem))

lemma orderFrom_eq_cons (present : id < t.scopes.length) (enough : t.scopes.length ≤ levels + id) :
    ∃ block, t.orderFrom levels id = id :: block := by
  obtain ⟨levels,rfl⟩ : ∃ fewer, levels = fewer + 1 := ⟨levels - 1,by omega⟩
  exact ⟨_,rfl⟩

lemma infix_analysisOrder (nested : t.Nested) (present : id < t.scopes.length) :
    ∃ levels, t.scopes.length ≤ levels + id ∧ t.orderFrom levels id <:+: t.analysisOrder :=
  infix_orderFrom nested (within_root nested present) (Nat.le_add_right _ _)

lemma mem_orderFrom_of_within (nested : t.Nested) (present : other < t.scopes.length)
    (inside : t.Within other id) (enough : t.scopes.length ≤ levels + id) :
    other ∈ t.orderFrom levels id := by
  obtain ⟨further,deep,part⟩ := infix_orderFrom nested inside enough
  obtain ⟨block,eq⟩ := orderFrom_eq_cons present deep
  exact part.subset (eq ▸ mem_cons_self)

lemma mem_analysisOrder (nested : t.Nested) (present : id < t.scopes.length) : id ∈ t.analysisOrder :=
  mem_orderFrom_of_within nested present (within_root nested present) (Nat.le_add_right _ _)

structure Orderly (t : ScopeTree) : Prop where
  nested : t.Nested
  closed : ∀ parent caller, t.callees parent caller ⊆ t.children parent

namespace Orderly

variable (orderly : t.Orderly)

include orderly

lemma places (id : ScopeId) : Places (t.callees id) (t.children id) [] [] (t.children id) (t.orderedChildren id) :=
  places_orderedChildren (Nat.le_trans (length_filter_le _ _) (Nat.le_of_eq length_range)) (Subset.refl _)
    fun caller _ => orderly.closed id caller

lemma within_of_mem_orderFrom (mem : other ∈ t.orderFrom levels id) : t.Within other id := by
  induction levels generalizing id with
  | zero => cases mem
  | succ levels ih =>
    rcases mem_cons.mp mem with rfl | below
    · exact .refl
    · obtain ⟨child,isChild,inside⟩ := mem_flatMap.mp below
      exact (ih inside).tail ((orderly.places id).within isChild)

lemma eq_of_within (isFirst : first ∈ t.children id)
    (isSecond : second ∈ t.children id) (inside : t.Within first second) : first = second := by
  rcases inside.cases_head with eq | ⟨parent,isChild,above⟩
  · exact eq
  · obtain rfl : parent = id := some.inj ((mem_children.mp isChild).2.symm.trans (mem_children.mp isFirst).2)
    have := le_of_within orderly.nested above
    have := lt_of_mem_children orderly.nested isSecond
    omega

lemma nodup_orderFrom : (t.orderFrom levels id).Nodup := by
  induction levels generalizing id with
  | zero => exact .nil
  | succ levels ih =>
    have placed := orderly.places id
    refine nodup_cons.mpr ⟨fun again => ?_,nodup_flatMap.mpr ⟨fun _ _ => ih,?_⟩⟩
    · obtain ⟨child,isChild,inside⟩ := mem_flatMap.mp again
      have := le_of_within orderly.nested (orderly.within_of_mem_orderFrom inside)
      have := lt_of_mem_children orderly.nested (placed.within isChild)
      omega
    · refine placed.nodup.imp_of_mem fun {first second} isFirst isSecond differ => ?_
      intro other inFirst inSecond
      have unique : Relator.RightUnique fun child parent => child ∈ t.children parent :=
        fun child one two inOne inTwo =>
          some.inj ((mem_children.mp inOne).2.symm.trans (mem_children.mp inTwo).2)
      rcases Relation.ReflTransGen.total_of_right_unique unique
        (orderly.within_of_mem_orderFrom inFirst) (orderly.within_of_mem_orderFrom inSecond) with up | down
      · exact differ (orderly.eq_of_within (placed.within isFirst) (placed.within isSecond) up)
      · exact differ (orderly.eq_of_within (placed.within isSecond) (placed.within isFirst) down).symm

lemma mem_orderFrom (present : id < t.scopes.length) (enough : t.scopes.length ≤ levels + id) :
    other ∈ t.orderFrom levels id ↔ t.Within other id := by
  refine ⟨orderly.within_of_mem_orderFrom,fun inside => ?_⟩
  refine mem_orderFrom_of_within orderly.nested ?_ inside enough
  rcases inside.cases_head with rfl | ⟨parent,isChild,-⟩
  · exact present
  · exact (mem_children.mp isChild).1

lemma block_analysisOrder (present : id < t.scopes.length) :
    ∃ block, id :: block <:+: t.analysisOrder ∧ ∀ other, other ∈ id :: block ↔ t.Within other id := by
  obtain ⟨levels,enough,part⟩ := infix_analysisOrder orderly.nested present
  obtain ⟨block,eq⟩ := orderFrom_eq_cons present enough
  exact ⟨block,eq ▸ part,fun other => eq ▸ orderly.mem_orderFrom present enough⟩

lemma sublist_analysisOrder (present : id < t.scopes.length) : (t.orderedChildren id).Sublist t.analysisOrder := by
  obtain ⟨levels,enough,part⟩ := infix_analysisOrder orderly.nested present
  refine .trans ?_ part.sublist
  obtain ⟨levels,rfl⟩ : ∃ fewer, levels = fewer + 1 := ⟨levels - 1,by omega⟩
  have each (list : List ScopeId) (within : list ⊆ t.children id) :
      list.Sublist (list.flatMap (t.orderFrom levels)) := by
    induction list with
    | nil => exact .refl _
    | cons child rest ih =>
      obtain ⟨isChild,others⟩ := cons_subset.mp within
      have pre := lt_of_mem_children orderly.nested isChild
      obtain ⟨block,eq⟩ : ∃ block, t.orderFrom levels child = child :: block :=
        orderFrom_eq_cons (mem_children.mp isChild).1 (by omega)
      rw [flatMap_cons,eq]
      exact ((ih others).trans (sublist_append_right _ _)).cons_cons child
  exact (each _ (orderly.places id).within).cons id

end Orderly

end ScopeTree

namespace Scoping

variable {found after : ScopeList}

lemma run_localsOf (ran : (localsOf r templates topLevel parameters nodes).run found = some (locals,after)) :
    after.scopes = found.scopes := by
  obtain ⟨current,mid,read,ran⟩ := run_bind_iff.mp ran
  cases read
  obtain ⟨collected,mid,asked,ran⟩ := run_bind_iff.mp ran
  obtain ⟨_,-,eq⟩ := bind_eq_some_iff.mp asked
  cases eq
  cases ran
  rfl

/-- A scope of the literal lies directly inside the scope with the number. -/
def Opened (scopes : List Scope) (parent : Nat) (fn : FunctionLiteral) : Prop :=
  ∃ (child : Nat) (s : Scope), scopes[child]? = some s ∧ s.parent? = some parent ∧ s.function = some fn

/-- Scopes are added for the literals in the nodes, and for those inside them. -/
structure Opens (parent : Nat) (nodes : List Node) (pre after : List Scope) : Prop where
  added : ∃ new, after = pre ++ new ∧ new.map (·.function) = (Node.childFunctions (Node.deepList nodes)).map some
  direct : ∀ fn ∈ Node.childFunctions nodes, Opened after parent fn
  inner : ∀ index s, after[index]? = some s → pre.length ≤ index →
    (∃ parent : Nat, s.parent? = some parent ∧ parent < index) ∧
      ∀ fn ∈ Node.childFunctions (statementNodes s.body), Opened after index fn

lemma Opens.cons {mid after : List Scope} (first : Opens parent [node] pre mid) (others : Opens parent rest mid after) :
    Opens parent (node :: rest) pre after := by
  obtain ⟨new,rfl,functions⟩ := first.added
  obtain ⟨further,rfl,others'⟩ := others.added
  have kept {parent : Nat} {fn : FunctionLiteral} :
      Opened (pre ++ new) parent fn → Opened (pre ++ new ++ further) parent fn :=
    fun ⟨child,s,found,held⟩ => ⟨child,s,by grind,held⟩
  refine ⟨⟨new ++ further,by simp,?_⟩,?_,fun index s present isNew => ?_⟩
  · simp only [Node.deepList,append_nil] at functions ⊢
    rw [childFunctions_append,map_append,map_append,functions,others']
  · intro fn mem
    rw [← singleton_append,childFunctions_append,mem_append] at mem
    exact mem.elim (fun here => kept (first.direct fn here)) (others.direct fn)
  · rcases Nat.lt_or_ge index (pre ++ new).length with old | late
    · rw [getElem?_append_left old] at present
      obtain ⟨inside,opened⟩ := first.inner index s present isNew
      exact ⟨inside,fun fn mem => kept (opened fn mem)⟩
    · exact others.inner index s present late

lemma Opens.function {fn : FunctionLiteral} {after : List Scope} (inside : s.outer = parent :: outer)
    (isFunction : s.function = some fn) (body : s.body = fn.body.statements)
    (present : parent < pre.length)
    (opens : Opens pre.length (statementNodes fn.body.statements) (pre ++ [s]) after) :
    Opens parent [.function fn (statementNodes fn.body.statements)] pre after := by
  obtain ⟨new,rfl,functions⟩ := opens.added
  have atNumber : (pre ++ [s] ++ new)[pre.length]? = some s := by simp
  have isParent : s.parent? = some parent := by rw [Scope.parent?,inside,head?_cons]
  refine ⟨⟨s :: new,by simp,?_⟩,?_,fun index other found isNew => ?_⟩
  · simpa [Node.deepList,Node.deep,Node.childFunctions,isFunction] using functions
  · intro other mem
    obtain rfl : other = fn := by simpa [Node.childFunctions] using mem
    exact ⟨pre.length,s,atNumber,isParent,isFunction⟩
  · rcases Nat.eq_or_lt_of_le isNew with rfl | later
    · cases atNumber.symm.trans found
      exact ⟨⟨parent,isParent,present⟩,body ▸ opens.direct⟩
    · exact opens.inner index other found (by rw [length_append]; exact later)

mutual
lemma opens_ofNodes : (list : List Node) → (∀ node ∈ list, node.Rooted nodes) → ∀ {found after : ScopeList},
    parent < found.scopes.length → (ofNodes r (parent :: outer) around list).run found = some ((),after) →
    Opens parent list found.scopes after.scopes
  | [], _, found, after, _, ran => by
    cases ran
    exact ⟨⟨[],by simp,rfl⟩,nofun,by grind⟩
  | node :: rest, rooted, found, after, present, ran => by
    obtain ⟨isRooted,others⟩ := forall_mem_cons.mp rooted
    rw [ofNodes] at ran
    obtain ⟨_,mid,first,last⟩ := run_bind_iff.mp ran
    have opens := opens_ofNode node isRooted present first
    obtain ⟨new,grown,-⟩ := opens.added
    exact opens.cons (opens_ofNodes rest others (by rw [grown,length_append]; omega) last)

lemma opens_ofNode : (node : Node) → node.Rooted nodes → ∀ {found after : ScopeList}, parent < found.scopes.length →
    (ofNode r (parent :: outer) around node).run found = some ((),after) →
    Opens parent [node] found.scopes after.scopes
  | .statement _, _, found, after, _, ran | .expression _, _, found, after, _, ran => by
    cases ran
    exact ⟨⟨[],by simp,rfl⟩,nofun,by grind⟩
  | .function fn inner, (eq : inner = _), found, after, present, ran => by
    have rooted : ∀ node ∈ inner, node.Rooted inner := eq ▸ rooted_statementNodes _
    rw [ofNode] at ran
    obtain ⟨locals,mid,collected,ran⟩ := run_bind_iff.mp ran
    have unchanged := run_localsOf collected
    obtain ⟨id,added,opened,ran⟩ := run_bind_iff.mp ran
    cases opened
    have opens := opens_ofNodes inner rooted (by simp) ran
    rw [← unchanged] at present ⊢
    subst eq
    exact .function rfl rfl rfl present opens
end

/-- The scopes of a program: the top level, and one for each literal, which lies in the scope in
whose body the literal stands. -/
structure Divides (p : Program) (t : ScopeTree) : Prop where
  functions : t.scopes.map (·.function) = none :: p.literals.map some
  nested : t.Nested
  opened : ∀ index s, t.scopes[index]? = some s →
    ∀ fn ∈ Node.childFunctions (statementNodes s.body), Opened t.scopes index fn

lemma Divides.mem_literals {t : ScopeTree} (divides : Divides p t)
    (isLiteral : (t.scope child).function = some fn) : fn ∈ p.literals := by
  rw [ScopeTree.scope] at isLiteral
  cases isScope : t.scopes[child]? with
  | none => rw [isScope] at isLiteral; cases isLiteral
  | some s =>
    rw [isScope] at isLiteral
    have mem := mem_map_of_mem (f := Scope.function) (mem_of_getElem? isScope)
    simpa [divides.functions,show s.function = some fn from isLiteral] using mem

lemma divides_ofProgram (ran : (ofProgram r p).run {} = some ((),after)) : Divides p ⟨after.scopes⟩ := by
  obtain ⟨locals,mid,collected,ran⟩ := run_bind_iff.mp ran
  have empty : mid.scopes = [] := run_localsOf collected
  obtain ⟨id,added,opened,ran⟩ := run_bind_iff.mp ran
  cases opened
  have opens := opens_ofNodes _ (rooted_statementNodes p.statements) (by simp) ran
  simp only [empty,nil_append,length_nil] at opens
  obtain ⟨new,grown,functions⟩ := opens.added
  have inner (index : Nat) (s : Scope) (present : after.scopes[index]? = some s) :
      (index = 0 ∧ s = ⟨[],none,p.statements, "<top-level>",locals,[]⟩) ∨ 1 ≤ index := by
    rw [grown] at present
    cases index <;> simp_all
  refine ⟨?_,fun index s present => ?_,fun index s present => ?_⟩
  · simp [grown,functions,Program.literals,statementLiterals_eq]
  · rcases inner index s present with ⟨rfl,rfl⟩ | later
    · exact .inl ⟨rfl,rfl⟩
    · exact .inr (opens.inner index s present later).1
  · rcases inner index s present with ⟨rfl,rfl⟩ | later
    · exact opens.direct
    · exact (opens.inner index s present later).2

end Scoping

namespace ScopeTree

open Scoping (Divides)

variable {p : Program} {t : ScopeTree}

lemma eq_of_function (divides : Divides p t) (distinct : (p.literals.map (·.id)).Nodup)
    {i j : Nat} {s' : Scope} (isFirst : t.scopes[i]? = some s) (isSecond : t.scopes[j]? = some s')
    {id : Nat} (first : s.function.map (·.id) = some id) (second : s'.function.map (·.id) = some id) :
    i = j := by
  have eq : t.scopes.map (·.function.map (·.id)) = none :: (p.literals.map (·.id)).map some := by
    simpa [Function.comp_def] using congrArg (List.map (·.map (·.id))) divides.functions
  have numbers : (t.scopes.map (·.function.map (·.id))).Nodup := by
    rw [eq]
    exact List.nodup_cons.mpr ⟨by simp,distinct.map fun _ _ => some.inj⟩
  have atFirst : (t.scopes.map (·.function.map (·.id)))[i]? = some (some id) := by
    rw [List.getElem?_map,isFirst,map_some,first]
  have atSecond : (t.scopes.map (·.function.map (·.id)))[j]? = some (some id) := by
    rw [List.getElem?_map,isSecond,map_some,second]
  exact (List.getElem?_inj (List.getElem?_eq_some_iff.mp atFirst).1 numbers).mp (atFirst.trans atSecond.symm)

lemma orderly_of_distinct (divides : Divides p t) (wf : ∀ s ∈ t.scopes, s.WellFormed)
    (distinct : (p.literals.map (·.id)).Nodup) : t.Orderly := by
  refine ⟨divides.nested,fun parent caller callee isCallee => ?_⟩
  obtain ⟨name,-,called⟩ := mem_filterMap.mp isCallee
  obtain ⟨id,bound,found⟩ := bind_eq_some_iff.mp called
  obtain ⟨l,isLocal,isFunction⟩ := bind_eq_some_iff.mp bound
  obtain ⟨s,present,number⟩ := ofFunction?_eq_some found
  obtain ⟨around,isScope⟩ : ∃ around, t.scopes[parent]? = some around := by
    cases isScope : t.scopes[parent]? with
    | none => simp [scope,isScope,default,Table.get?,Table.lookup] at isLocal
    | some around => exact ⟨around,rfl⟩
  rw [scope,isScope] at isLocal
  have binds := (wf around (mem_of_getElem? isScope)).binds
  obtain ⟨fn,isChild,rfl⟩ := mem_map.mp (binds _ (Table.mem_of_lookup isLocal) id isFunction)
  obtain ⟨child,s',isThere,inside,isLiteral⟩ := divides.opened parent around isScope fn isChild
  obtain rfl := eq_of_function divides distinct present isThere number (by rw [isLiteral]; rfl)
  refine mem_children.mpr ⟨lt_of_getElem?_eq_some isThere,?_⟩
  rw [scope,isThere]
  exact inside

/-- The scopes are the top level and one for each literal. They are followed one by one: behind each
scope what lies inside it, and before a scope the siblings that it calls, unless they lead back to
it. -/
theorem analysisOrder_callees_first {r : Registry} {found : ScopeList}
    (divided : (Scoping.ofProgram r p).run {} = some ((),found))
    (distinct : (p.literals.map (·.id)).Nodup) : let t : ScopeTree := ⟨found.scopes⟩
    t.scopes.map (·.function) = none :: p.literals.map some ∧
    t.analysisOrder.Nodup ∧ (∀ id, id ∈ t.analysisOrder ↔ id < t.scopes.length) ∧
    (∀ parent, ∀ child ∈ t.children parent, [parent,child].Sublist t.analysisOrder) ∧
    (∀ id < t.scopes.length, ∃ block, id :: block <:+: t.analysisOrder ∧
      ∀ other, other ∈ id :: block ↔ t.Within other id) ∧
    ∀ parent, ∀ f ∈ t.children parent, ∀ g ∈ t.callees parent f, g ∈ t.children parent ∧
      (¬ Reaches (t.callees parent) g f → [g,f].Sublist t.analysisOrder) := by
  intro t
  have divides : Divides p t := Scoping.divides_ofProgram divided
  have orderly := orderly_of_distinct divides (Scoping.wellFormed_ofProgram divided) distinct
  have isParent {parent child : Nat} (isChild : child ∈ t.children parent) : parent < t.scopes.length :=
    Nat.lt_trans (lt_of_mem_children divides.nested isChild) (mem_children.mp isChild).1
  have nonempty : 0 < t.scopes.length := by
    have size := congrArg List.length divides.functions
    simp_all
  refine ⟨divides.functions,orderly.nodup_orderFrom,fun id => ⟨fun mem => ?_,?_⟩,?_,
    fun id => orderly.block_analysisOrder,fun parent f isChild g isCallee => ?_⟩
  · rcases (orderly.within_of_mem_orderFrom mem).cases_head with rfl | ⟨parent,isChild,-⟩
    · exact nonempty
    · exact (mem_children.mp isChild).1
  · exact mem_analysisOrder divides.nested
  · intro parent child isChild
    obtain ⟨block,part,inside⟩ := orderly.block_analysisOrder (isParent isChild)
    have mem := (inside child).mpr (.single isChild)
    have later := lt_of_mem_children divides.nested isChild
    have inBlock := (List.mem_cons.mp mem).resolve_left (Nat.ne_of_gt later)
    exact ((List.singleton_sublist.mpr inBlock).cons_cons parent).trans part.sublist
  · have placed := orderly.places parent
    refine ⟨orderly.closed parent f isCallee,fun apart => ?_⟩
    have isPlaced := (placed.present f isChild).resolve_right (by simp)
    have pre := (placed.first f isPlaced g isCallee).resolve_right apart
    exact pre.trans (orderly.sublist_analysisOrder (isParent isChild))

/-- Two functions, of which the first calls the second, and one inside the second. -/
def crew : Program where
  statements := [
    .function ⟨"row",{}⟩ {id := 0, parameters := [], body := ⟨[.expression
      ⟨{},.call ⟨{},.identifier ⟨"steer",{}⟩⟩ []⟩ none],{}⟩},
    .function ⟨"steer",{}⟩ {id := 1, parameters := [], body := ⟨[.expression
      ⟨{},.function {id := 2, parameters := [], body := ⟨[],{}⟩}⟩ none],{}⟩}]

def crewScopes : ScopeList := (((Scoping.ofProgram {} crew).run {}).get (by decide +kernel)).2

theorem analysisOrder_callees_first_crew :
    (Scoping.ofProgram {} crew).run {} = some ((),crewScopes) ∧ (crew.literals.map (·.id)).Nodup ∧
      [2,1].Sublist (ScopeTree.mk crewScopes.scopes).analysisOrder := by
  have divided : (Scoping.ofProgram {} crew).run {} = some ((),crewScopes) := rfl
  have distinct : (crew.literals.map (·.id)).Nodup := by decide
  obtain ⟨-,-,-,-,-,first⟩ := analysisOrder_callees_first divided distinct
  have calls : (ScopeTree.mk crewScopes.scopes).callees 0 1 = [2] := rfl
  have none : (ScopeTree.mk crewScopes.scopes).callees 0 2 = [] := rfl
  refine ⟨divided,distinct,(first 0 1 (by decide) 2 (calls ▸ List.mem_cons_self)).2 fun back => ?_⟩
  rcases back.cases_head with eq | ⟨callee,isCallee,-⟩
  · cases eq
  · rw [none] at isCallee
    cases isCallee

end ScopeTree
end GradualJs
