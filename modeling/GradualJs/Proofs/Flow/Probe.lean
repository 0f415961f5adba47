import GradualJs.Proofs.Flow.Program

/-! A type that is not closed is given away by two short bodies: one assigns to a variable in
both branches of a condition, the other extends a record in it. The values come from variables
of the scope around, so they may have any type. -/
namespace GradualJs

open Walk Table

variable {c : WalkContext} {env : Env} {value : Ty} {record : Record}

namespace Walk

lemma left_visited {s s' : WalkState} (ran : (statements c list env).run s = some (left,s')) : left ∈ s'.visited := by
  induction list generalizing env s with
  | nil =>
    cases ran
    exact List.mem_cons_self
  | cons first rest ih =>
    simp only [statements,StateT.run_bind,Option.bind_eq_bind,Option.bind_eq_some_iff] at ran
    obtain ⟨_,-,_,-,ran⟩ := ran
    exact ih ran

/-- The action ends with the value, if the values given to locals so far are the first ones,
and leaves the second ones. -/
def Gives {α : Type} (pre after : Table String Ty) (action : Walk α) (a : α) : Prop :=
  ∀ s, s.assigned = pre → ∃ s', action.run s = some (a,s') ∧ s'.assigned = after

namespace Gives

variable {α β : Type} {t : Table String Ty} {a : α} {b : β}

lemma pure : Gives t t (Pure.pure a) a := fun s eq => ⟨s,rfl,eq⟩

lemma bind (first : Gives t u x a) (next : Gives u v (f a) b) : Gives t v (x >>= f) b := by
  intro s eq
  obtain ⟨s₁,ran,eq⟩ := first s eq
  obtain ⟨s₂,ran',eq⟩ := next s₁ eq
  exact ⟨s₂,Option.bind_eq_some_iff.mpr ⟨_,ran,ran'⟩,eq⟩

lemma ask (found : ans = some a) : Gives t t (ask ans) a := by
  cases found
  exact fun s eq => ⟨s,rfl,eq⟩

lemma of_modify (kept : ∀ s, (f s).assigned = s.assigned) : Gives t t (modify f) () :=
  fun s eq => ⟨f s,rfl,(kept s).trans eq⟩

lemma visiting (gives : Gives t u (walk env) a) : Gives t u (visiting left walk env) a := by
  refine bind (of_modify ?_) (gives.bind (bind (of_modify ?_) pure))
  · exact fun _ => rfl
  · exact fun _ => rfl

lemma following (gives : Gives t u (walk env) left) : Gives t u (following walk env) left :=
  bind (of_modify fun _ => rfl) (visiting gives)

lemma entering (gives : Gives t u (walk env) a) : Gives t u (entering walk env) a := bind (of_modify fun _ => rfl) gives

lemma snapshot : Gives t t (snapshot env) () := by
  refine of_modify fun s => ?_
  split <;> rfl

lemma writeLocal (joins : match t.get? name with
      | some prev => c.lattice.join prev type = some joined
      | none => type = joined) :
    Gives t (t.insert name joined) (Walk.writeLocal c env name type) (env.set name type) := by
  intro s eq
  subst eq
  cases found : s.assigned.get? name with
  | none =>
    rw [found] at joins
    subst joins
    exact ⟨{s with assigned := s.assigned.insert name type},by simp [Walk.writeLocal,found],rfl⟩
  | some prev =>
    rw [found] at joins
    refine ⟨{s with assigned := s.assigned.insert name joined},?_,rfl⟩
    simp [Walk.writeLocal,found,Walk.ask,joins]

lemma assignLocal (below : c.lattice.Below type value) (known : value.isUnknown = false)
    (inhabited : value.isBottom = false) (joins : match t.get? name with
      | some prev => c.lattice.join prev value = some joined
      | none => value = joined) : Gives t (t.insert name joined)
      (assignLocal c env name {kind := .binding, declared := some type} value span false)
      (env.set name value) := by
  have checks : Gives t t (checkStored c ("assignment to " ++ name) value type span) true := (ask below).bind pure
  have stores : Gives t t (Pure.pure (if true && !value.isUnknown && !value.isBottom then value
      else type) : Walk Ty) value := by
    simpa [known,inhabited] using pure
  exact checks.bind (stores.bind (writeLocal joins))

end Gives
end Walk

namespace Probe

def here : Span := ⟨0,0,0,0⟩
def name (text : String) : Expression := ⟨here,.identifier ⟨text,here⟩⟩

def assign (tgt : Expression) (src : String) : Statement := .expression ⟨here,.assignment none tgt (name src)⟩ none

def scope (outer : List ScopeId) (body : List Statement) (types : List (String × Ty)) : Scope where
  outer
  function := none
  body
  name := ""
  locals := ⟨types.map fun (name,type) => (name,{kind := .binding, declared := some type})⟩
  templates := []

/-- A variable `x` of the given type, inside a scope with variables `a` and `b`. -/
def context (r : Registry) (type a b : Ty) (body : List Statement) : WalkContext where
  registry := r
  options := {}
  tree := ⟨[scope [] [] [("a",a),("b",b)],scope [0] body [("x",type)]]⟩
  scope := 1
  receiver := .unknown
  declaredReturn := none
  summaries := {}
  assignedBy := {}

def knowing (type : Ty) : Env := {values := ⟨[("x",type)]⟩}

lemma knowing_set (old type : Ty) : (knowing old).set "x" type = knowing type := by
  have kept : Name.isBelow "x" "x" = false := by decide
  simp [knowing,Env.set,Table.filterKeys,kept,Table.insert,Table.put]

section Runs

variable {a b : Ty} {t : Table String Ty}

lemma gives_value (reads : Gives t t (readName (context r type a b body) ⟨src,here⟩ env) value) :
    Gives t t (((name src).roles (context r type a b body)).value env) (value,env) :=
  .visiting (.bind (.bind reads .pure) (.bind .pure .pure))

lemma gives_assign (reads : Gives t t (readName (context r type a b body) ⟨src,here⟩ env) value)
    (below : Lattice.Below {registry := r} type value) (known : value.isUnknown = false)
    (inhabited : value.isBottom = false) (joins : match t.get? "x" with
      | some prev => Lattice.join {registry := r} prev value = some joined
      | none => value = joined) : Gives t (t.insert "x" joined)
      (statement (context r type a b body) (assign (name "x") src) env)
      (env.set "x" value) := by
  have stores : Gives t (t.insert "x" joined) (assignLocal (context r type a b body) env "x"
      {kind := .binding, declared := some type} value here false) (env.set "x" value) :=
    .assignLocal below known inhabited joins
  exact .following (.bind (.visiting (.bind (gives_value reads) (.bind (.visiting stores) .pure))) .pure)

/-- Both branches of a condition assign to the variable. -/
def branching : List Statement :=
  [.ifStmt ⟨here,.literal .null⟩ (assign (name "x") "a") (some (assign (name "x") "b")) here]

lemma gives_branching (belowA : Lattice.Below {registry := r} type a)
    (belowB : Lattice.Below {registry := r} type b) (knownA : a.isUnknown = false)
    (knownB : b.isUnknown = false) (inhabitedA : a.isBottom = false) (inhabitedB : b.isBottom = false)
    (joins : Lattice.join {registry := r} a b = some joined) :
    Gives {} ((insert {} "x" a).insert "x" joined)
      (statements (context r type a b branching) branching (knowing type)) (knowing joined) := by
  have first : Gives {} (insert {} "x" a) (statement (context r type a b branching)
      (assign (name "x") "a") (knowing type)) (knowing a) :=
    knowing_set type a ▸ gives_assign .pure belowA knownA inhabitedA rfl
  have second : Gives (insert {} "x" a) ((insert {} "x" a).insert "x" joined)
      (statement (context r type a b branching) (assign (name "x") "b") (knowing type))
      (knowing b) :=
    knowing_set type b ▸ gives_assign .pure belowB knownB inhabitedB joins
  have merged : Env.join {registry := r} (knowing a) (knowing b) = some (knowing joined) := by
    simp [Env.join,Env.joinEntries,Env.unmatched,knowing,get?,lookup,contains,joins]
  have branches : Gives {} {} (branchOn (context r type a b branching) ⟨here,.literal .null⟩
      (knowing type)) ⟨.null,knowing type,knowing type⟩ := .visiting (.bind .pure .pure)
  exact .bind (.following (branches.bind (.bind (.entering first) (.bind (.entering second) (.ask merged)))))
    (.bind .snapshot (.visiting .pure))

/-- The variable gets a record, and the record a new property. -/
def extending (prop : String) : List Statement := [assign (name "x") "a",assign ⟨here,.member (name "x") prop here⟩ "b"]

lemma knowing_set_property (type stored : Ty) (prop : String) :
    ((knowing type).set (Name.property "x" prop) stored).get? "x" = some type := by
  have plain : Name.isDotted "x" = false := by decide
  rw [Env.get?_set_of_ne plain (Name.property_ne plain "x" prop)]
  rfl

lemma gives_writeProperty (strict : record.loose = false) (fresh : Field.find? record.fields prop = none) : Gives t t
      (writeProperty c (.record record) (some "x") prop stored here (knowing (.record record)))
      ((knowing (.record (record.extended prop stored))).set (Name.property "x" prop) stored) := by
  have writes : Gives t t (writeMember c prop stored here (.record record)) none := by
    unfold writeMember
    dsimp only
    rw [fresh]
    exact .pure
  have mem : Gives t t ([Obj.record record].mapM (writeMember c prop stored here)) [none] := by
    rw [List.mapM_cons,List.mapM_nil]
    exact writes.bind (.bind .pure .pure)
  have extended : extendRecord (.record record) "x" prop stored (knowing (.record record)) =
      knowing (.record (record.extended prop stored)) := by
    have undotted : Name.isDotted "x" = false := by decide
    have objects : (Ty.record record).objects = [.record record] := rfl
    have single : (Ty.record record).memberCount = 1 := rfl
    simp [extendRecord,undotted,objects,single,strict,fresh,Record.extended,knowing, Env.refine,Table.insert,Table.put]
  rw [← extended]
  exact mem.bind .pure

lemma gives_extending (below : Lattice.Below {registry := r} type (.record record)) (strict : record.loose = false)
    (fresh : Field.find? record.fields prop = none) : Gives {} (insert {} "x" (.record record))
      (statements (context r type (.record record) stored (extending prop)) (extending prop) (knowing type))
      ((knowing (.record (record.extended prop stored))).set (Name.property "x" prop) stored) := by
  have first : Gives {} (insert {} "x" (.record record))
      (statement (context r type (.record record) stored (extending prop))
        (assign (name "x") "a") (knowing type)) (knowing (.record record)) :=
    knowing_set type (.record record) ▸ gives_assign .pure below rfl rfl rfl
  refine first.bind (.bind .snapshot (.bind ?_ (.bind .snapshot (.visiting .pure))))
  refine .following (.bind (.visiting (.bind (gives_value .pure) (.bind (.visiting ?_) .pure))) .pure)
  exact .bind (gives_value .pure) (gives_writeProperty strict fresh)

end Runs

end Probe
end GradualJs
