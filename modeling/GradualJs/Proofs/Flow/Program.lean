import GradualJs.Proofs.Flow.Fitting
import GradualJs.Proofs.Flow.Following
import GradualJs.Proofs.Flow.Scopes
import GradualJs.Proofs.Ty.DecidableEq

/-! Declared locals through the flow of a program. A scope starts with the declared types of
its variables, and each scope is followed once. -/
namespace GradualJs

open List

open Option (bind_eq_some_iff)

/-! Statements keep what is known of a declared local: whatever leaves a statement, at its end,
by a jump or by an exception, is recorded with the local as it was. -/
namespace Walk

open Node

variable {e : Expression} {env : Env} {c : WalkContext}

def Guards.regard (guards : Guards c name type) : Regard c where
  toWalking := .between (Calm (Fitting c name type))
  holds := Fitting c name type
  Knows path t := path = name → name ≠ "this" → c.lattice.Below type t
  harmless path := path ≠ name
  walks_meet call :=
    have : Moves (Calm (Fitting c name type)) (meet call) := .of_modify fun _ => .of_same rfl rfl rfl
    .of_moves _
  visiting := yields_visiting
  refine other held := held.refine fun eq => absurd eq other
  join := yields_join guards
  readName {env id} held := by
    by_cases eq : id.name = name
    · exact (yields_readName guards held eq).mono fun _ below _ _ => below
    · exact (Yields.of_moves _).mono fun _ _ isName => absurd isName eq
  assignName held := yields_assignName guards held
  writeProperty held known := yields_writeProperty guards held fun isPath => known name isPath rfl
  this type isThis notThis := absurd isThis.symm notThis
  dotted path prop := by
    have other := Name.property_ne guards.undotted path prop
    exact ⟨other,fun type eq => absurd eq other⟩

lemma yields_declarator (guards : Guards c name type) {d : Declarator}
    (free : ∀ path ∈ subjects d.nodes, path ≠ name) (held : Fitting c name type env) :
    Yields (Calm (Fitting c name type)) (declarator c env d) (Fitting c name type) := by
  obtain ⟨id,jsdoc,init⟩ := d
  cases init with
  | none => exact .pure held
  | some e =>
    refine (guards.regard.walks_value free held).bind fun r kept => ?_
    dsimp only
    split
    · rename_i resolved
      split
      · exact yields_assignLocal guards kept (guards.resolved resolved)
      · exact .pure kept
    · exact .pure kept

/-- What is known of the local, whatever is stored on the way. -/
def Guards.follower (guards : Guards c name type) : Follower c where
  toSimulator := guards.regard.simulator
  Tried _ := True
  Calm := Calm (Fitting c name type)
  Noted := Visits (Fitting c name type)
  deferring := inferInstance
  yields := id
  calm held := ⟨held.jumps,held.tryFrames,held.visits⟩
  calm_leaving _ _ _ _ := .of_same rfl rfl rfl
  noted_trans := .trans
  noted_same _ := .of_same
  noted_visited _ _ _ all others := forall_mem_append.mpr ⟨all,others⟩
  empty := Env.holds_of_empty rfl
  dead held _ := held
  kill := id
  merge left right := left.join (fun _ _ _ => guards.closed.join) right
  revive held _ _ := held
  declares := yields_declarator guards
  -- The parameter may have the name of the local; nothing is known of what is caught.
  forgets held := yields_writeLocal held fun _ => below_unknown c type

lemma keeps_statements (guards : Guards c name type)
    (free : name ∉ subjects (statementNodes list)) (held : Fitting c name type env) :
    Yields (Visits (Fitting c name type)) (statements c list env) (Fitting c name type) := by
  intro s left s' ran
  have others : guards.follower.Free (subjects (statementNodes list)) := fun _ mem eq => free (eq ▸ mem)
  have keeps : guards.follower.Sends (fun _ _ => True) (statements c list env) _ :=
    Follower.keeps_statements list others held
  exact (keeps s left s' ran fun _ _ => trivial).imp_left (·.noted)

end Walk

variable {l : Lattice} {entry : Env} {fn : FunctionLiteral} {s : Signature} {c : WalkContext} {state after : FlowState}

/-- A variable of the scope with a declared type, which no condition of the scope is about. -/
structure Scope.Declares (s : Scope) (name : String) (type : Ty) : Prop where
  binding : ∃ l, s.locals.get? name = some l ∧ l.kind = .binding ∧ l.declared = some type
  undotted : Name.isDotted name = false
  untested : name ∉ Node.subjects (statementNodes s.body)

instance (s : Scope) (name : String) (type : Ty) : Decidable (s.Declares name type) :=
  decidable_of_iff ((∃ l ∈ s.locals.get? name, l.kind = .binding ∧ l.declared = some type) ∧
      Name.isDotted name = false ∧ name ∉ Node.subjects (statementNodes s.body))
    ⟨fun ⟨binding,undotted,untested⟩ => ⟨binding,undotted,untested⟩,
      fun ⟨binding,undotted,untested⟩ => ⟨binding,undotted,untested⟩⟩

/-- What is read of the local fits the type. -/
def Env.ReadsBack (l : Lattice) (name : String) (type : Ty) (e : Env) : Prop :=
  l.isSubtype ((e.get? name).getD type) type = some true

instance (l : Lattice) (name : String) (type : Ty) (e : Env) : Decidable (e.ReadsBack l name type) :=
  inferInstanceAs (Decidable (_ = some true))

lemma Env.Holds.readsBack {e : Env}
    (held : e.Holds (l.Below type) name) (self : l.Below type type) : e.ReadsBack l name type := by
  unfold ReadsBack
  cases found : e.get? name with
  | none => exact self
  | some t => exact held.get? found

lemma Env.Holds.bindFormals {env : Env} (held : env.Holds p name) (others : ∀ f ∈ formals, f.name ≠ name)
    (bound : Flow.bindFormals l env formals = some entry) : entry.Holds p name := by
  induction formals generalizing env with
  | nil =>
    cases bound
    exact held
  | cons f rest ih =>
    obtain ⟨other,others⟩ := forall_mem_cons.mp others
    obtain ⟨next,first,bound⟩ := bind_eq_some_iff.mp bound
    obtain ⟨type,-,eq⟩ := bind_eq_some_iff.mp first
    cases eq
    exact ih (held.set fun eq => absurd eq other) others bound

namespace Walk

variable {c : WalkContext}

lemma guards_of_declares (declares : (c.tree.scope c.scope).Declares name type)
    (closed : c.lattice.Closed type) : Guards c name type where
  found := by
    obtain ⟨l,found,-,declared⟩ := declares.binding
    exact ⟨l,by simp [ScopeTree.resolve,found],declared⟩
  undotted := declares.undotted
  closed := closed

lemma keeps_scope (declares : (c.tree.scope c.scope).Declares name type)
    (closed : c.lattice.Closed type) (entered : entry.Holds (· = type) name) :
    Yields (Visits (Fitting c name type)) (statements c (c.tree.scope c.scope).body entry) (Fitting c name type) :=
  keeps_statements (guards_of_declares declares closed) declares.untested <|
    entered.mono fun _ eq => eq ▸ closed.self

end Walk

namespace Flow

lemma mem_formals {f : Formal} (mem : f ∈ formals fn s inferred) : ∃ id ∈ fn.parameters, f.name = id.name := by
  obtain ⟨⟨id,index⟩,isParameter,rfl⟩ := mem_map.mp mem
  exact ⟨id,(mem_zipIdx' isParameter).2 ▸ getElem_mem _,rfl⟩

section Entry

variable {c : WalkContext} (wf : (c.tree.scope c.scope).WellFormed)
  (declares : (c.tree.scope c.scope).Declares name type)
include wf declares

lemma hoist_declared : (hoist c).Holds (· = type) name := by
  obtain ⟨l,found,binding,declared⟩ := declares.binding
  refine foldlRecOn _ _ (Env.holds_of_empty rfl) fun env held entry listed => ?_
  obtain ⟨key,l'⟩ := entry
  dsimp only
  split
  · rename_i hoisted isHoisted
    refine held.set fun eq => ?_
    subst eq
    obtain rfl : l = l' := Option.some.inj (found.symm.trans (Table.lookup_of_mem wf.distinct listed))
    simpa [hoistedType,binding,declared,eq_comm] using isHoisted
  · exact held

lemma bindFormals_declared (isLiteral : (c.tree.scope c.scope).function = some fn)
    (bound : bindFormals c.lattice (hoist c) (formals fn s inferred) = some entry) :
    entry.Holds (· = type) name := by
  refine (hoist_declared wf declares).bindFormals (fun f mem eq => ?_) bound
  obtain ⟨id,isParameter,isName⟩ := mem_formals mem
  obtain ⟨l,found,binding,-⟩ := declares.binding
  obtain ⟨l',found',kind⟩ := wf.parameters fn isLiteral id isParameter
  rw [← isName,eq,found] at found'
  cases found'
  rw [binding] at kind
  cases kind

end Entry

lemma keeps_function (bound : bindFormals c.lattice (hoist c) (formals fn s inferred) = some entry)
    (wf : (c.tree.scope c.scope).WellFormed)
    (declares : (c.tree.scope c.scope).Declares name type) (closed : c.lattice.Closed type)
    (isLiteral : (c.tree.scope c.scope).function = some fn) :
    Walk.Yields (Walk.Visits (Walk.Fitting c name type)) (Walk.statements c fn.body.statements entry)
      (Walk.Fitting c name type) := by
  have entered := bindFormals_declared wf declares isLiteral bound
  exact wf.body fn isLiteral ▸ Walk.keeps_scope declares closed entered

section Run

variable {tree : ScopeTree}

lemma readsBack_of_yields {α : Type} {walk : Walk α}
    (yields : Walk.Yields (Walk.Visits (Walk.Fitting c name type)) walk fun _ => True)
    (self : c.lattice.Below type type) {res : α × WalkState}
    (ran : walk.run (startOf state) = some res) :
    ∀ env ∈ res.2.visited, env.ReadsBack c.lattice name type := by
  intro env visited
  have visits : Walk.Visits (Walk.Fitting c name type) (startOf state) res.2 := (yields _ _ _ ran).1
  exact (visits nofun env visited).readsBack self

/-- All that is noted of a scope reads its declared variables back. -/
def ReadsBack (r : Registry) (tree : ScopeTree) (type : Ty) (state : FlowState) : Prop :=
  ∀ id name env, (tree.scope id).Declares name type → (id,env) ∈ state.visited → env.ReadsBack {registry := r} name type

lemma ReadsBack.finish (pre : ReadsBack r tree type state) {walked : WalkState}
    (walk : ∀ name, (tree.scope scope).Declares name type → ∀ env ∈ walked.visited,
      env.ReadsBack {registry := r} name type) :
    ReadsBack r tree type (finish state scope walked) := by
  intro id name env declares mem
  rcases mem_append.mp mem with new | old
  · obtain ⟨_,visited,eq⟩ := mem_map.mp new
    cases eq
    exact walk name declares env visited
  · exact pre id name env declares old

variable (wf : ∀ id, (tree.scope id).WellFormed) (closed : Lattice.Closed {registry := r} type)
include wf closed

lemma topLevel_readsBack (pre : ReadsBack r tree type state)
    (ran : topLevel r options tree state scope = some after) : ReadsBack r tree type after := by
  obtain ⟨⟨left,walked⟩,walk,eq⟩ := bind_eq_some_iff.mp ran
  cases eq
  refine pre.finish fun name declares => ?_
  let c := context r options tree state scope .unknown none
  have entered : (hoist c).Holds (· = type) name := hoist_declared (wf scope) declares
  have keeps := Walk.keeps_scope (c := c) declares closed entered
  exact readsBack_of_yields (keeps.mono fun _ _ => trivial) closed.self walk

lemma function_readsBack (isLiteral : (tree.scope scope).function = some fn) (pre : ReadsBack r tree type state)
    (ran : function r options tree state scope fn = some after) : ReadsBack r tree type after := by
  obtain ⟨inferred,-,ran⟩ := bind_eq_some_iff.mp ran
  obtain ⟨entry,bound,ran⟩ := bind_eq_some_iff.mp ran
  obtain ⟨⟨left,walked⟩,walk,ran⟩ := bind_eq_some_iff.mp ran
  obtain ⟨returned,-,eq⟩ := bind_eq_some_iff.mp ran
  cases eq
  refine pre.finish fun name declares => ?_
  have keeps := keeps_function bound (wf scope) declares closed isLiteral
  refine readsBack_of_yields (keeps.bind fun _ _ => ?_) closed.self walk
  exact .moves_then fun _ => .pure trivial

lemma step_readsBack (pre : ReadsBack r tree type state)
    (ran : step r options tree state scope = some after) : ReadsBack r tree type after := by
  unfold step at ran
  split at ran
  · exact topLevel_readsBack wf closed pre ran
  · rename_i fn isLiteral
    exact function_readsBack wf closed isLiteral pre ran

omit wf in
lemma analyze_readsBack {found : ScopeList} (collected : (Scoping.ofProgram r p).run {} = some ((),found))
    (ran : analyze r options p = some flow) : ReadsBack r ⟨found.scopes⟩ type flow := by
  obtain ⟨⟨_,found'⟩,collected',ran⟩ := bind_eq_some_iff.mp ran
  rw [collected] at collected'
  cases collected'
  have wf := ScopeTree.wellFormed_scope (t := ⟨found.scopes⟩) (Scoping.wellFormed_ofProgram collected)
  have start : ReadsBack r ⟨found.scopes⟩ type {diagnostics := found.diagnostics} := nofun
  exact Lifting.runs.foldlM (f := fun _ => step r options ⟨found.scopes⟩) start
    (fun scope _ state pre after ran => step_readsBack wf closed pre ran) flow ran

end Run

end Flow
end GradualJs
