import GradualJs.Proofs.Declarations.Kinds
import GradualJs.Proofs.Flow.Probe
import GradualJs.Proofs.Lattice.Joining

/-! Declared variables read back at their declared types exactly if these are closed: what fits
them still fits when it is joined with what fits, and when it is a record that gets a new property. -/
namespace GradualJs

open Relations Probe

variable {a b t : Ty} {depth : Nat} {v : Union}

/-- However the body of a scope is followed, a variable of the type that no condition is about
fits the type wherever the body can be reached. -/
def Walk.ReadsBack (r : Registry) (type : Ty) : Prop :=
  ∀ (c : WalkContext) (name : String) (entry left : Env) (s : WalkState), c.registry = r →
    (c.tree.scope c.scope).Declares name type → entry.Holds (· = type) name →
    (statements c (c.tree.scope c.scope).body entry).run {} = some (left,s) →
    ∀ env ∈ s.visited, env.live = true → env.ReadsBack {registry := r} name type

namespace Lattice

section Necessary

variable {r : Registry}

lemma below_of_gives (reads : Walk.ReadsBack r type) (untested : "x" ∉ Node.subjects (statementNodes body)) {left : Env}
    (gives : Walk.Gives {} given (Walk.statements (context r type a b body) body
      (knowing type)) left) (live : left.live = true) (found : left.get? "x" = some t) :
    Below {registry := r} type t := by
  obtain ⟨s,ran,-⟩ := gives {} rfl
  have entered : (knowing type).Holds (· = type) "x" := fun t mem => by
    cases List.mem_singleton.mp mem
    rfl
  have declares : (scope [0] body [("x",type)]).Declares "x" type := ⟨⟨_,rfl,rfl,rfl⟩,by decide,untested⟩
  have readsBack := reads (context r type a b body) "x" _ left s rfl declares entered ran left
    (Walk.left_visited ran) live
  rwa [Env.ReadsBack,found] at readsBack

lemma eq_of_join (vague : (a.isUnknown || a.isBottom || b.isUnknown || b.isBottom) = true)
    (joined : join {registry := r, depth} a b = some t) : t = a ∨ t = b := by
  cases depth with
  | zero => cases joined
  | succ depth =>
    change (mergeRules r (.within r depth)).joinStep a b = some t at joined
    cases a <;> cases b <;> simp_all [MergeRules.joinStep,Ty.isUnknown,Ty.isBottom]

lemma below_join_of_vague (vague : (a.isUnknown || a.isBottom || b.isUnknown || b.isBottom) = true)
    (belowA : Below {registry := r} type a) (belowB : Below {registry := r} type b)
    (joined : join {registry := r} a b = some t) : Below {registry := r} type t := by
  rcases eq_of_join vague joined with rfl | rfl
  · exact belowA
  · exact belowB

lemma closed_of_readsBack (reads : Walk.ReadsBack r type) : Closed {registry := r} type where
  self := by
    have gives : Walk.Gives {} {} (Walk.statements (context r type .unknown .unknown []) []
        (knowing type)) (knowing type) := .visiting .pure
    exact below_of_gives reads List.not_mem_nil gives rfl rfl
  join {a b t} belowA belowB joined := by
    by_cases vague : (a.isUnknown || a.isBottom || b.isUnknown || b.isBottom) = true
    · exact below_join_of_vague vague belowA belowB joined
    · simp only [Bool.not_eq_true,Bool.or_eq_false_iff] at vague
      obtain ⟨⟨⟨knownA,inhabitedA⟩,knownB⟩,inhabitedB⟩ := vague
      exact below_of_gives reads (by decide)
        (gives_branching belowA belowB knownA knownB inhabitedA inhabitedB joined) rfl rfl
  extend {record name} stored below strict fresh :=
    below_of_gives reads List.not_mem_nil (gives_extending below strict fresh) rfl (knowing_set_property _ _ _)

end Necessary

section Primitive

variable {r : Registry}

/-- Only primitive values, and enums of such values, fit a type of primitive values. -/
lemma isSubtype_primitives (plain : ∀ id, (r.enumBacking id).Plain) (set : PrimitiveSet)
    (depth : Nat) : ∃ fits : EnumId → Bool, (∀ id, isSubtype {registry := r, depth := depth + 2} (r.enumBacking id)
        (.union {primitives := set}) = some (fits id)) ∧ ∀ u : Union,
      isSubtype {registry := r, depth := depth + 2} (.union u) (.union {primitives := set}) =
        some (set.contains u.primitives && u.vars.isEmpty && u.enums.all fits && u.objects.isEmpty) := by
  have steady (id : EnumId) := Registry.subtypeStep_plain r false (.union {primitives := set}) (plain id)
  refine ⟨fun id => (steady id).choose,fun id => ?_,fun u => ?_⟩
  · exact congrArg (Option.map Prod.fst) ((steady id).choose_spec (.within r (depth + 1)) [])
  change StateT.run' (subtypeUnions r (.within r (depth + 1)) false u {primitives := set}) [] = _
  have enums : (u.enums.allM fun id => (within r (depth + 1)).subtype false (r.enumBacking id)
      (.union {primitives := set})).run [] = some (u.enums.all fun id => (steady id).choose,[]) :=
    Query.run_allM_of_steady (fun id _ => (steady id).choose_spec _) []
  have vars : u.vars.all ([] : List String).contains = u.vars.isEmpty := by
    cases u.vars <;> simp
  have objects : (u.objects.all fun _ => false) = u.objects.isEmpty := by
    cases u.objects <;> simp
  cases first : set.contains u.primitives with
  | false => simp [subtypeUnions,first]
  | true =>
    cases second : u.vars.isEmpty with
    | false => simp [subtypeUnions,first,vars,second]
    | true =>
      cases third : u.enums.all fun id => (steady id).choose with
      | false => simp [subtypeUnions,first,vars,second,enums,third]
      | true => simp [subtypeUnions,first,vars,second,enums,third,objects]

lemma eq_union_of_below (below : Below {registry := r} (.union v) t)
    (definite : t.isUnknown = false ∧ t.isBottom = false) : ∃ u, t = .union u := by
  cases t with
  | union u => exact ⟨u,rfl⟩
  | top => cases below
  | _ => simp [Ty.isUnknown,Ty.isBottom] at definite

lemma join_eq_of_objectless {u : Union} (noneU : u.objects = [])
    (noneV : v.objects = []) (joined : join {registry := r, depth} (.union u) (.union v) = some t) :
    ∃ enums, (∀ id ∈ enums, id ∈ u.enums ∨ id ∈ v.enums) ∧ t = .ofUnion {u.joined v [] with enums} := by
  cases depth with
  | zero => cases joined
  | succ depth =>
    obtain ⟨objects,settled,normalized,absorbed,rfl⟩ := Registry.joinUnions_eq_some joined
    rw [noneU,noneV] at normalized
    cases normalized
    obtain ⟨enums,fewer,rfl⟩ := Registry.absorbEnums_eq_some absorbed
    exact ⟨enums,fun id mem => by simpa [Union.joined] using fewer.subset mem,rfl⟩

lemma closed_primitives (kinded : r.Kinded) (set : PrimitiveSet) :
    Closed {registry := r} (.union {primitives := set}) := by
  obtain ⟨fits,-,answers⟩ := isSubtype_primitives kinded.enumBacking set 4094
  replace answers (u : Union) : isSubtype {registry := r} (.union u) (.union {primitives := set}) =
      some (set.contains u.primitives && u.vars.isEmpty && u.enums.all fits && u.objects.isEmpty) :=
    answers u
  have below_iff (u : Union) : Below {registry := r} (.union {primitives := set}) (.union u) ↔
      ((set.contains u.primitives = true ∧ u.vars = []) ∧ ∀ id ∈ u.enums, fits id = true) ∧ u.objects = [] := by
    simp [Below,answers]
  refine ⟨(below_iff _).mpr (by simp),fun {a b t} belowA belowB joined => ?_,fun stored below => ?_⟩
  · by_cases vague : (a.isUnknown || a.isBottom || b.isUnknown || b.isBottom) = true
    · exact below_join_of_vague vague belowA belowB joined
    obtain ⟨u,rfl⟩ := eq_union_of_below belowA (by simp_all)
    obtain ⟨v,rfl⟩ := eq_union_of_below belowB (by simp_all)
    obtain ⟨⟨⟨primitivesU,varsU⟩,enumsU⟩,objectsU⟩ := (below_iff u).mp belowA
    obtain ⟨⟨⟨primitivesV,varsV⟩,enumsV⟩,objectsV⟩ := (below_iff v).mp belowB
    obtain ⟨enums,ofBoth,rfl⟩ := join_eq_of_objectless objectsU objectsV joined
    unfold Ty.ofUnion
    split
    · rfl
    · refine (below_iff _).mpr ⟨⟨⟨?_,?_⟩,fun id mem => ?_⟩,rfl⟩
      · exact PrimitiveSet.contains_union primitivesU primitivesV
      · refine List.eq_nil_iff_forall_not_mem.mpr fun name mem => ?_
        simp [Union.joined,varsU,varsV] at mem
      · exact (ofBoth id mem).elim (enumsU id) (enumsV id)
  · simp [Ty.record,Ty.object,below_iff] at below

end Primitive

end Lattice

namespace Drawing

open Outline in
/-- Two classes with a common superclass, and an interface that both implement. -/
def shapes : List Outline := [
  {name := "Shape", doc := {kind := some .interface}},
  {name := "Figure", doc := {kind := some .constructor}},
  {name := "Circle", doc := {
      kind := some .constructor, supertypes := [named "Figure" []], interfaces := [named "Shape" []]}},
  {name := "Square", doc := {
      kind := some .constructor, supertypes := [named "Figure" []], interfaces := [named "Shape" []]}}]

def text (value : String) : Expression := ⟨{},.literal (.string value)⟩
def create (name : String) : Expression := ⟨{},.new ⟨{},.identifier ⟨name,{}⟩⟩ []⟩

def declare (name : String) (type : TypeExpr) (value : Expression) : Statement :=
  .var .var [⟨⟨name,{}⟩,none,some value⟩] (some {declaredType := some type}) {}

def put (name : String) (value : Expression) : Statement :=
  .expression ⟨{},.assignment none ⟨{},.identifier ⟨name,{}⟩⟩ value⟩ none

/-- One branch assigns a circle and the other a square; one label does not fit. -/
def body : List Statement := [
  declare "shape" (Outline.instanceOf "Shape" []) (create "Circle"),
  declare "label" (Outline.named "string" []) (text "none"),
  .ifStmt ⟨{},.identifier ⟨"round",{}⟩⟩ (.block ⟨[put "shape" (create "Circle"),put "label" (text "circle")],{}⟩)
    (some (.block ⟨[put "shape" (create "Square"),put "label" (create "Square")],{}⟩)) {},
  .whileLoop ⟨{},.identifier ⟨"round",{}⟩⟩ (.tryStmt ⟨[put "label" (text "again")],{}⟩
      (some ⟨some ⟨"error",{}⟩,⟨[.breakStmt {}],{}⟩⟩) none {}) {}]

def prog : Program where
  statements := (Outline.program shapes).statements ++
    [.function ⟨"draw",{}⟩ {id := 4, parameters := [⟨"round",{}⟩], body := ⟨body,{}⟩}]

def registry : Registry := ((Declarations.collect prog none false).map (·.registry)).getD {}
def scopes : ScopeList := (((Scoping.ofProgram registry prog).run {}).map (·.2)).getD {}
def flow : FlowState := (Flow.analyze registry {} prog).getD {}
def drawScope : Scope := ScopeTree.scope ⟨scopes.scopes⟩ 5
def shape : Ty := .nominal ⟨3⟩ []

lemma drawn : ((Scoping.ofProgram registry prog).run {}).isSome = true ∧
    (Flow.analyze registry {} prog).isSome = true ∧ registry.Kinded ∧
    drawScope.Declares "label" .string ∧ drawScope.Declares "shape" shape ∧
    (∃ p ∈ flow.visited, p.1 = 5 ∧ p.2.live = true ∧ p.2.get? "label" = some .string) ∧
    ∃ p ∈ flow.visited, p.1 = 5 ∧ p.2.live = true ∧ ¬p.2.ReadsBack {registry := registry} "shape" shape := by
  decide +kernel

lemma analyzed : (Scoping.ofProgram registry prog).run {} = some ((),scopes) ∧
    Flow.analyze registry {} prog = some flow := by
  obtain ⟨⟨_,found⟩,collected⟩ := Option.isSome_iff_exists.mp drawn.1
  obtain ⟨state,followed⟩ := Option.isSome_iff_exists.mp drawn.2.1
  simp [scopes,collected,flow,followed]

end Drawing

/-- Variables of a type read back at it if and only if the type is closed: in every walk over a
scope, and then at every point of every program. -/
theorem declared_readsBack_iff (r : Registry) (type : Ty) :
    (Lattice.Closed {registry := r} type ↔ Walk.ReadsBack r type) ∧ (Lattice.Closed {registry := r} type →
        ∀ (options : Options) (p : Program) (found : ScopeList) (flow : FlowState),
          (Scoping.ofProgram r p).run {} = some ((),found) →
          Flow.analyze r options p = some flow → Flow.ReadsBack r ⟨found.scopes⟩ type flow) := by
  refine ⟨⟨fun closed => ?_,Lattice.closed_of_readsBack⟩,fun closed options p found flow => ?_⟩
  · rintro c name entry left s rfl declares entered ran env visited -
    have visits := (Walk.keeps_scope declares closed entered _ _ _ ran).1
    exact (visits (by simp) env visited).readsBack closed.self
  · exact Flow.analyze_readsBack closed

open Drawing in
/-- The label is a string wherever the function can be reached. -/
theorem label_readsBack : drawScope.Declares "label" .string ∧
    (∃ env, (5,env) ∈ flow.visited ∧ env.live = true ∧ env.get? "label" = some .string) ∧
    ∀ env, (5,env) ∈ flow.visited → env.ReadsBack {registry := registry} "label" .string := by
  obtain ⟨-,-,kinded,declares,-,visited,-⟩ := drawn
  refine ⟨declares,?_,fun env mem => ?_⟩
  · obtain ⟨⟨_,env⟩,mem,rfl,known⟩ := visited
    exact ⟨env,mem,known⟩
  · have closed : Lattice.Closed {registry := registry} .string := Lattice.closed_primitives kinded .stringOnly
    exact (declared_readsBack_iff registry .string).2 closed {} prog scopes flow
      analyzed.1 analyzed.2 5 "label" env declares mem

open Drawing in
/-- Behind the branches the shape is a figure, and a figure need not be a shape. -/
theorem shape_not_readsBack : drawScope.Declares "shape" shape ∧ ∃ env, (5,env) ∈ flow.visited ∧ env.live = true ∧
      ¬env.ReadsBack {registry := registry} "shape" shape := by
  obtain ⟨-,-,-,-,declares,-,⟨_,env⟩,mem,rfl,live,other⟩ := drawn
  exact ⟨declares,env,mem,live,other⟩

end GradualJs
