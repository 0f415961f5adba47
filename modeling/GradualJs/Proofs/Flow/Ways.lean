import GradualJs.Syntax.Traversal
import Mathlib.Tactic.Common

/-! Where control goes from a piece of code. The types of values play no part: which ways out
there are depends on the statements alone, and on whether the code is reached at all. -/
namespace GradualJs

open Statement List

/-- The ways out of a piece of code other than its end. -/
structure Exits where
  breaks : Bool := false
  continues : Bool := false
  returns : Bool := false
  raises : Bool := false
  deriving DecidableEq

structure Ways extends Exits where
  completes : Bool := false
  deriving DecidableEq

namespace Exits

instance : Union Exits where
  union x y := ⟨x.breaks || y.breaks,x.continues || y.continues,x.returns || y.returns, x.raises || y.raises⟩

lemma union_def (x y : Exits) : x ∪ y = ⟨x.breaks || y.breaks,x.continues || y.continues,
    x.returns || y.returns,x.raises || y.raises⟩ := rfl

@[simp] lemma empty_union (x : Exits) : ({} : Exits) ∪ x = x := by
  simp [union_def]

@[simp] lemma union_empty (x : Exits) : x ∪ ({} : Exits) = x := by
  simp [union_def]

lemma union_assoc (x y z : Exits) : x ∪ y ∪ z = x ∪ (y ∪ z) := by
  simp [union_def,Bool.or_assoc]

end Exits

namespace Ways

def either (x y : Ways) : Ways := {x.toExits ∪ y.toExits with completes := x.completes || y.completes}
def next (x y : Ways) : Ways := {x.toExits ∪ y.toExits with completes := y.completes}

/-- The body of a loop comes back to the head. -/
def repeats (x : Ways) : Bool := x.completes || x.continues

/-- The head of a loop is reached from before the loop and from its body. -/
def head (body : Bool → Ways) (live : Bool) : Bool := live || (body live).repeats

/-- A loop, where `done` says when its condition lets control out. -/
def loop (done : Bool → Ways → Bool) (body : Bool → Ways) (live : Bool) : Ways :=
  let last := body (head body live)
  { returns := last.returns
    raises := last.raises
    completes := done (head body live) last || last.breaks}

/-- The cases of a switch, and what comes behind it where no case is chosen. -/
def switch (cases : Ways) (skipped : Bool) : Ways :=
  {cases with breaks := false, completes := cases.completes || cases.breaks || skipped}

/-- A block whose handler, if there is one, can be reached whether the block is or not. -/
def handled (live : Bool) (body : Ways) : Option Ways → Ways
  | none => {body with raises := live || body.raises}
  | some handler => either {body with raises := false} handler

/-- A finalizer runs in any case, and what it does not let through ends there. -/
def finalized (x : Ways) : Option Ways → Ways
  | none => x
  | some finalizer =>
    {x.toExits ∪ finalizer.toExits with completes := x.completes && finalizer.completes}

end Ways

mutual
/-- Where control goes from a statement that is reached or not. -/
def Statement.ways : Statement → Bool → Ways
  | .var _ _ _ _, live | .function _ _, live | .classDecl _, live | .expression _ _, live
  | .empty _, live => {completes := live}
  | .returnStmt _ _, live => {returns := live}
  | .ifStmt _ consequent alternative _, live =>
    (consequent.ways live).either (optionalWays alternative live)
  | .whileLoop _ body _, live | .forIn _ _ _ body _, live =>
    .loop (fun head _ => head) body.ways live
  | .doWhile body _ _, live => .loop (fun _ last => last.repeats) body.ways live
  | .forLoop start condition _ body _, live =>
    let started := optionalWays start live
    started.next (.loop (fun head _ => head && condition.isSome) body.ways started.completes)
  | .block body, live => body.ways live
  | .breakStmt _, live => {breaks := live}
  | .continueStmt _, live => {continues := live}
  | .throwStmt _ _, live => {raises := live}
  | .tryStmt body handler finalizer _, live =>
    ((body.ways live).handled live (handlerWays handler)).finalized (finalizerWays finalizer)
  | .switch _ cases _, live =>
    .switch (casesWays live cases false) (live && cases.all (·.test.isSome))

def optionalWays : Option Statement → Bool → Ways
  | none, live => {completes := live}
  | some s, live => s.ways live

def Block.ways : Block → Bool → Ways
  | ⟨list,_⟩, live => statementsWays list live

def handlerWays : Option CatchClause → Option Ways
  | none => none
  | some ⟨_,body⟩ => some (body.ways true)

def finalizerWays : Option Block → Option Ways
  | none => none
  | some body => some (body.ways true)

/-- The cases of a switch that is reached or not, the first entered from a case before it or
not. -/
def casesWays (live : Bool) : List SwitchCase → Bool → Ways
  | [], falling => {completes := falling}
  | ⟨_,body⟩ :: rest, falling =>
    let entered := statementsWays body (live || falling)
    entered.next (casesWays live rest entered.completes)

/-- Statements in order. An exception may come up behind each of them. -/
def statementsWays : List Statement → Bool → Ways
  | [], live => {completes := live}
  | s :: rest, live =>
    let first := s.ways live
    Ways.next {first with raises := first.raises || first.completes} (statementsWays rest first.completes)
end

namespace Ways

structure Within (x y : Ways) : Prop where
  completes : x.completes = true → y.completes = true
  breaks : x.breaks = true → y.breaks = true
  continues : x.continues = true → y.continues = true
  returns : x.returns = true → y.returns = true
  raises : x.raises = true → y.raises = true

/-- Code that is reached has all the ways of code that is not. -/
def Rising (f : Bool → Ways) : Prop := ∀ ⦃a b : Bool⦄, (a = true → b = true) → (f a).Within (f b)

namespace Within

variable {x y x' : Ways}

lemma either (left : x.Within x') (right : y.Within y') : (x.either y).Within (x'.either y') := by
  obtain ⟨_,_,_,_,_⟩ := left
  obtain ⟨_,_,_,_,_⟩ := right
  constructor <;> simp only [Ways.either,Exits.union_def] <;> grind

lemma next (left : x.Within x') (right : y.Within y') : (x.next y).Within (x'.next y') := by
  obtain ⟨_,_,_,_,_⟩ := left
  obtain ⟨_,_,_,_,_⟩ := right
  constructor <;> simp only [Ways.next,Exits.union_def] <;> grind

lemma repeats (within : x.Within y) (again : x.repeats = true) : y.repeats = true := by
  have completes := within.completes
  have continues := within.continues
  grind [Ways.repeats]

lemma switch (within : x.Within y) (rises : a = true → b = true) : (x.switch a).Within (y.switch b) := by
  obtain ⟨_,_,_,_,_⟩ := within
  constructor <;> simp only [Ways.switch] <;> grind

lemma handled (within : x.Within y) (rises : a = true → b = true)
    (handler : Option Ways) : (x.handled a handler).Within (y.handled b handler) := by
  obtain ⟨_,_,_,_,_⟩ := within
  cases handler <;> constructor <;>
    simp only [Ways.handled,Ways.either,Exits.union_def] <;> grind

lemma finalized (within : x.Within y) (finalizer : Option Ways) :
    (x.finalized finalizer).Within (y.finalized finalizer) := by
  obtain ⟨_,_,_,_,_⟩ := within
  cases finalizer <;> constructor <;>
    simp only [Ways.finalized,Exits.union_def] <;> grind

end Within

lemma Rising.head (rising : Rising body)
    (rises : a = true → b = true) (reached : head body a = true) : head body b = true := by
  have repeats := (rising rises).repeats
  grind [Ways.head]

lemma Rising.loop (rising : Rising body) (doneRises : ∀ ⦃a b : Bool⦄ ⦃x y : Ways⦄, (a = true → b = true) → x.Within y →
      done a x = true → done b y = true) : Rising (Ways.loop done body) := by
  intro a b rises
  have within := rising (rising.head rises)
  have exits := doneRises (rising.head rises) within
  obtain ⟨_,breaks,_,returns,raises⟩ := within
  constructor <;> simp only [Ways.loop] <;> grind

end Ways

open Ways in
mutual
lemma Statement.rising_ways : (s : Statement) → Rising s.ways
  | .var _ _ _ _ | .function _ _ | .classDecl _ | .expression _ _ | .empty _ =>
    fun _ _ rises => ⟨rises,id,id,id,id⟩
  | .returnStmt _ _ => fun _ _ rises => ⟨id,id,id,rises,id⟩
  | .breakStmt _ => fun _ _ rises => ⟨id,rises,id,id,id⟩
  | .continueStmt _ => fun _ _ rises => ⟨id,id,rises,id,id⟩
  | .throwStmt _ _ => fun _ _ rises => ⟨id,id,id,id,rises⟩
  | .ifStmt _ consequent alternative _ => fun _ _ rises =>
    (consequent.rising_ways rises).either (rising_optionalWays alternative rises)
  | .whileLoop _ body _ | .forIn _ _ _ body _ =>
    body.rising_ways.loop fun _ _ _ _ rises _ => rises
  | .doWhile body _ _ => body.rising_ways.loop fun _ _ _ _ _ within => within.repeats
  | .forLoop start condition _ body _ => fun _ _ rises => by
    have started := rising_optionalWays start rises
    have leaves ⦃a b : Bool⦄ ⦃x y : Ways⦄ (rises : a = true → b = true) (_ : x.Within y) :
        (a && condition.isSome) = true → (b && condition.isSome) = true := by grind
    exact started.next (body.rising_ways.loop leaves started.completes)
  | .block body => body.rising_ways
  | .tryStmt body handler finalizer _ => fun _ _ rises =>
    ((body.rising_ways rises).handled rises _).finalized _
  | .switch _ cases _ => fun _ _ rises =>
    (rising_casesWays cases rises id).switch fun skipped => by
      rw [Bool.and_eq_true] at skipped ⊢
      exact skipped.imp_left rises

lemma rising_optionalWays : (s : Option Statement) → Rising (optionalWays s)
  | none => fun _ _ rises => ⟨rises,id,id,id,id⟩
  | some s => s.rising_ways

lemma Block.rising_ways : (b : Block) → Rising b.ways
  | ⟨list,_⟩ => rising_statementsWays list

lemma rising_casesWays : (list : List SwitchCase) → ∀ {live live' falling falling' : Bool},
    (live = true → live' = true) → (falling = true → falling' = true) →
      (casesWays live list falling).Within (casesWays live' list falling')
  | [], _, _, _, _, _, rises => ⟨rises,id,id,id,id⟩
  | ⟨_,body⟩ :: rest, live, live', falling, falling', rises, falls => by
    have reached : (live || falling) = true → (live' || falling') = true := by
      simpa only [Bool.or_eq_true] using Or.imp rises falls
    have entered := rising_statementsWays body reached
    exact entered.next (rising_casesWays rest rises entered.completes)

lemma rising_statementsWays : (list : List Statement) → Rising (statementsWays list)
  | [] => fun _ _ rises => ⟨rises,id,id,id,id⟩
  | s :: rest => fun _ _ rises => by
    have first := s.rising_ways rises
    refine Within.next ⟨first.completes,first.breaks,first.continues,first.returns,?_⟩
      (rising_statementsWays rest first.completes)
    simpa only [Bool.or_eq_true] using Or.imp first.raises first.completes
end

/-- A `try` statement with a handler or a finalizer, which control enters in its own way. -/
def Node.isGuard : Node → Bool
  | .statement (.tryStmt _ handler finalizer _) => handler.isSome || finalizer.isSome
  | _ => false

def Node.Unguarded (nodes : List Node) : Prop := ∀ node ∈ nodes, node.isGuard = false

instance (nodes : List Node) : Decidable (Node.Unguarded nodes) :=
  inferInstanceAs (Decidable (∀ node ∈ nodes, node.isGuard = false))

lemma Node.unguarded_cons {node : Node} : Unguarded (node :: rest) ↔ node.isGuard = false ∧ Unguarded rest :=
  forall_mem_cons

lemma Node.unguarded_append : Unguarded (left ++ right) ↔ Unguarded left ∧ Unguarded right := forall_mem_append

open Node in
mutual
/-- Code that is not reached leads nowhere unless it has a handler or a finalizer. -/
lemma Statement.ways_unreached : (s : Statement) → Unguarded s.nodes → s.ways false = {}
  | .var _ _ _ _, _ | .function _ _, _ | .classDecl _, _ | .expression _ _, _ | .empty _, _
  | .returnStmt _ _, _ | .breakStmt _, _ | .continueStmt _, _ | .throwStmt _ _, _ => rfl
  | .ifStmt _ consequent alternative _, free => by
    simp only [nodes,unguarded_cons,unguarded_append,cons_append] at free
    rw [ways,consequent.ways_unreached free.2.1.2,optionalWays_unreached alternative free.2.2]
    rfl
  | .whileLoop _ body _, free | .forIn _ _ _ body _, free => by
    simp only [nodes,unguarded_cons,unguarded_append,cons_append] at free
    simp [ways,Ways.loop,Ways.head,Ways.repeats,body.ways_unreached free.2.2]
  | .doWhile body _ _, free => by
    simp only [nodes,unguarded_cons,unguarded_append,cons_append] at free
    simp [ways,Ways.loop,Ways.head,Ways.repeats,body.ways_unreached free.2.1]
  | .forLoop start condition _ body _, free => by
    simp only [nodes,unguarded_cons,unguarded_append,cons_append] at free
    simp [ways,optionalWays_unreached start free.2.1.1.1,Ways.next,
      Ways.loop,Ways.head,Ways.repeats,body.ways_unreached free.2.2]
  | .block body, free => body.ways_unreached (unguarded_cons.mp free).2
  | .tryStmt body handler finalizer _, free => by
    simp only [nodes,unguarded_cons,unguarded_append,cons_append] at free
    obtain ⟨plain,⟨inBody,-⟩,-⟩ := free
    obtain ⟨rfl,rfl⟩ : handler = none ∧ finalizer = none := by simpa [isGuard] using plain
    rw [ways,body.ways_unreached inBody]
    rfl
  | .switch _ cases _, free => by
    simp only [nodes,unguarded_cons,unguarded_append,cons_append] at free
    rw [ways,casesWays_unreached cases free.2.2]
    rfl

lemma optionalWays_unreached : (s : Option Statement) → Unguarded (optionalStatementNodes s) → optionalWays s false = {}
  | none, _ => rfl
  | some s, free => s.ways_unreached free

lemma Block.ways_unreached : (b : Block) → Unguarded b.nodes → b.ways false = {}
  | ⟨list,_⟩, free => statementsWays_unreached list free

lemma casesWays_unreached : (list : List SwitchCase) → Unguarded (caseNodes list) → casesWays false list false = {}
  | [], _ => rfl
  | ⟨_,body⟩ :: rest, free => by
    simp only [caseNodes,SwitchCase.nodes,unguarded_append] at free
    simp only [casesWays,Bool.or_false,statementsWays_unreached body free.1.2, casesWays_unreached rest free.2]
    rfl

lemma statementsWays_unreached : (list : List Statement) → Unguarded (statementNodes list) →
    statementsWays list false = {}
  | [], _ => rfl
  | s :: rest, free => by
    simp only [statementNodes,unguarded_append] at free
    simp only [statementsWays,s.ways_unreached free.1,statementsWays_unreached rest free.2]
    rfl
end

end GradualJs
