import GradualJs.Proofs.Lattice.Normal
import GradualJs.Proofs.Lattice.Raw
import GradualJs.Proofs.Resolve

/-! What annotations of functions mean during and after collection. What an annotation stands for
is stored before anything is written to a property. Over the finished registry it stands for the
same if it is firm. -/
namespace GradualJs

open Resolver Outline Option

variable {α β : Type} {e e₁ e₂ : TypeExpr} {t a b : Ty} {x : Resolve α}
  {result : Except ResolveError Ty} {p : PrimitiveSet}

/-- A place in a signature that an annotation may be about. -/
inductive Place where
  | param (index : Nat)
  | result

namespace TypeExpr

/-- The annotation of a formal without the mark that it may be left out or repeated. -/
def unwrapped : TypeExpr → TypeExpr
  | ⟨.rest inner,_⟩ | ⟨.optional inner,_⟩ => inner
  | e => e

end TypeExpr

def FunctionLiteral.annotation? (fn : FunctionLiteral) : Place → Option TypeExpr
  | .param index => do
    let formal ← fn.parameters[index]?
    let doc ← fn.jsdoc
    return (← doc.param formal.name).unwrapped
  | .result => fn.jsdoc.bind (·.returnType)

def Signature.typeAt (s : Signature) : Place → Option Ty
  | .param index => (s.params[index]?).bind (·.type)
  | .result => s.returnType

namespace Resolver

/-- The type that an annotation stands for; one that cannot be resolved is unknown. -/
def Means (r : Resolver) (e : TypeExpr) (t : Ty) : Prop :=
  ∃ result, (r.expr e).run = some result ∧ t = result.toOption.getD .unknown

variable {r : Resolver}

lemma means_of_exprOrNote (ran : (r.exprOrNote e).run errors = some (t,errors')) : r.Means e t := by
  obtain ⟨result,mid,asked,rest⟩ := run_bind_iff.mp ran
  obtain ⟨result',resolved,eq⟩ := bind_eq_some_iff.mp asked
  cases eq
  refine ⟨result,resolved,?_⟩
  cases result with
  | ok t | error e => cases rest; rfl

lemma means_of_declaredParam
    (ran : (r.declaredParam seenOptional isLast (some e)).run errors = some ((type,kind),errors')) :
    ∃ t, type = some t ∧ r.Means e.unwrapped t := by
  obtain ⟨kind',span⟩ := e
  cases kind' with
  | rest inner =>
    rw [declaredParam] at ran
    obtain ⟨t,mid,resolved,rest⟩ := run_bind_iff.mp ran
    refine ⟨t,?_,means_of_exprOrNote resolved⟩
    split at rest
    all_goals
      cases rest
      rfl
  | optional inner =>
    rw [declaredParam] at ran
    obtain ⟨t,mid,resolved,rest⟩ := run_bind_iff.mp ran
    cases rest
    exact ⟨t,rfl,means_of_exprOrNote resolved⟩
  | _ =>
    rw [declaredParam] at ran
    · obtain ⟨t,mid,resolved,rest⟩ := run_bind_iff.mp ran
      refine ⟨t,?_,means_of_exprOrNote resolved⟩
      split at rest
      all_goals
        cases rest
        rfl
    all_goals nofun

/-- Every formal has the type that its tag stands for, and none without a tag. -/
lemma means_of_declaredParams {doc : Option JsDoc} {params : List DeclaredParam}
    (ran : (r.declaredParams doc seenOptional formals).run errors = some (params,errors')) :
    List.Forall₂ (fun formal => Option.Rel (fun e t => r.Means e.unwrapped t)
      (doc.bind (·.param formal.name))) formals (params.map (·.type)) := by
  induction formals generalizing seenOptional params errors with
  | nil =>
    cases ran
    exact .nil
  | cons first rest ih =>
    rw [declaredParams] at ran
    obtain ⟨⟨type,kind⟩,mid,here,ran⟩ := run_bind_iff.mp ran
    obtain ⟨others,_,later,ran⟩ := run_bind_iff.mp ran
    cases ran
    refine .cons ?_ (ih later)
    cases tagged : doc.bind (·.param first.name) with
    | none =>
      rw [tagged] at here
      cases here
      exact .none
    | some e =>
      rw [tagged] at here
      obtain ⟨t,rfl,means⟩ := means_of_declaredParam here
      exact .some means

lemma types_demoteRequired (seenOptional : Bool) (params : List DeclaredParam) :
    (demoteRequired seenOptional params).map (·.type) = params.map (·.type) := by
  induction params generalizing seenOptional with
  | nil => rfl
  | cons p rest ih =>
    unfold demoteRequired
    cases p.kind <;> simp [ih]

/-- What a comment says about a place is resolved to the type at that place. -/
lemma means_of_signature {fn : FunctionLiteral} {declared : Signature}
    (ran : (r.signature fn.jsdoc fn.parameters).run errors = some (declared,errors'))
    (annotated : fn.annotation? place = some e) : ∃ t, declared.typeAt place = some t ∧ r.Means e t := by
  rw [signature] at ran
  obtain ⟨params,_,formals,ran⟩ := run_bind_iff.mp ran
  obtain ⟨returnType,_,result,ran⟩ := run_bind_iff.mp ran
  obtain ⟨recv,_,-,ran⟩ := run_bind_iff.mp ran
  cases ran
  cases place with
  | param index =>
    simp only [FunctionLiteral.annotation?,bind_eq_bind,bind_eq_some_iff, pure_def,some.injEq] at annotated
    obtain ⟨formal,at',doc,commented,tag,tagged,rfl⟩ := annotated
    have means := means_of_declaredParams formals
    rw [← types_demoteRequired false] at means
    have declared := Registry.rel_getElem? means index
    rw [at',List.getElem?_map] at declared
    cases found : (demoteRequired false params)[index]? with
    | none => simp [found] at declared
    | some p =>
      simp only [found,map_some,rel_some_some,commented,bind_some, tagged] at declared
      cases typed : p.type with
      | none => simp [typed] at declared
      | some t => exact ⟨t,by simp [Signature.typeAt,found,typed],by simpa [typed] using declared⟩
  | result =>
    have commented : fn.jsdoc.bind (·.returnType) = some e := annotated
    rw [commented,mapM_some,map_eq_pure_bind] at result
    obtain ⟨t,_,resolved,rest⟩ := run_bind_iff.mp result
    cases rest
    exact ⟨t,rfl,means_of_exprOrNote resolved⟩

lemma run_bind_ok {a : α} (ended : x.run = some (.ok a)) (f : α → Resolve β) : (x >>= f).run = (f a).run := by
  rw [ExceptT.run_bind,ended]
  rfl

lemma run_expr_pair (first : (r.expr e₁).run = some (.ok a))
    (second : (r.expr e₂).run = some (.ok b)) (noneA : a.functionMember = none)
    (noneB : b.functionMember = none) (span : Span) : (r.expr ⟨.union [e₁,e₂],span⟩).run =
      r.lattice.join a b >>= fun t => (inhabited span t).run := by
  have members : (r.exprs [e₁,e₂]).run = some (.ok [a,b]) := by
    have last : (r.exprs [e₂]).run = some (.ok [b]) := by
      rw [exprs,run_bind_ok second]
      rfl
    rw [exprs,run_bind_ok first,run_bind_ok last]
    rfl
  have joinAll : r.lattice.joinAll [a,b] = r.lattice.join a b := by
    have deep (depth : Nat) : Lattice.joinAll {registry := r.registry, depth := depth + 1} [a,b] =
        Lattice.join {registry := r.registry, depth := depth + 1} a b := by
      have start : Lattice.join {registry := r.registry, depth := depth + 1} .bottom a = some a := rfl
      simp [Lattice.joinAll,start]
    exact deep 4095
  have receivers : [a,b].filterMap (fun t => t.functionMember.bind (·.receiver)) = [] := by
    simp [noneA,noneB]
  rw [expr,run_bind_ok members,receivers,Resolver.joinAll,joinAll]
  cases r.lattice.join a b <;> rfl

lemma answered_of_bind {result : Except ResolveError β} (ended : (x >>= f).run = some result) :
    ∃ first, x.run = some first := by
  rw [ExceptT.run_bind] at ended
  obtain ⟨first,asked,-⟩ := bind_eq_some_iff.mp ended
  exact ⟨first,asked⟩

/-- The annotation is a union of two firm ones that stand for the types. -/
inductive Pair (r : Resolver) (named : NominalId → Bool) : TypeExpr → Ty → Ty → Prop
  | union {e₁ e₂ : TypeExpr} {a b : Ty} (span : Span) : r.firm named e₁ = true → r.firm named e₂ = true →
      (r.expr e₁).run = some (.ok a) → (r.expr e₂).run = some (.ok b) →
      Pair r named ⟨.union [e₁,e₂],span⟩ a b

end Resolver

namespace Registry

/-- However deep they are compared, neither type is found not to fit the other. -/
def Interchangeable (r : Registry) (a b : Ty) : Prop :=
  ∀ lax depth, Lattice.isSubtype ⟨r,lax,depth⟩ a b ≠ some false ∧ Lattice.isSubtype ⟨r,lax,depth⟩ b a ≠ some false

lemma Tame.interchangeable {r : Registry} (kinded : r.Kinded) (tame : r.Tame t) : r.Interchangeable t t := by
  have itself (lax : Bool) (depth : Nat) : Lattice.isSubtype ⟨r,lax,depth⟩ t t ≠ some false := by
    intro refused
    cases (tame.fits_self kinded.enumBacking).isSubtype refused
  exact fun lax depth => ⟨itself lax depth,itself lax depth⟩

namespace Unfilled

variable {r early : Registry} {scope : List String} {named : NominalId → Bool}
  (unfilled : r.Unfilled early) (kinded : r.Kinded)

include unfilled

lemma notObject {id : NominalId} (record : (r.nominal id).kind = .record) : id ≠ .object := by
  rintro rfl
  have isClass := unfilled.unwritten.builtin .object (by decide)
  rw [kind_of_bare unfilled.bare,record] at isClass
  cases isClass

include kinded

lemma join {x y : NominalId} (different : x ≠ y)
    (record : (r.nominal x).kind = .record ∨ (r.nominal y).kind = .record) :
    Lattice.join {registry := early} (r.rawType p x) (r.rawType q y) = some (r.rawType (p.union q) (r.left x y)) := by
  have joined (depth : Nat) : Lattice.join {registry := early, depth := depth + 2}
      (early.rawType p x) (early.rawType q y) = some (early.rawType (p.union q) (early.left x y)) :=
    join_unwritten (kinded.of_bare unfilled.bare.symm) unfilled.unwritten different
      (by simpa only [kind_of_bare unfilled.bare] using record)
  simp only [rawType,raw_of_bare unfilled.bare,left_of_bare unfilled.bare] at joined
  exact joined 4094

variable (closed : r.ByName named)
include closed

lemma expr_of_firm (firm : (r.resolver scope).firm named e = true)
    (resolved : ((early.resolver scope).expr e).run = some result) :
    ((r.resolver scope).expr e).run = some result := by
  let both (i : Bool) : Registry := if i then r else early
  have shared (i : Bool) : (both false).bare = (both i).bare := by
    cases i with
    | false => rfl
    | true => exact unfilled.bare
  have eq := same_expr (r := both) shared
    (kinded.of_bare unfilled.bare.symm).enumBacking (closed.of_bare unfilled.bare.symm) e firm
  exact (eq result resolved).1

lemma means_of_firm (firm : (r.resolver scope).firm named e = true)
    (means : (early.resolver scope).Means e t) : (r.resolver scope).Means e t := by
  obtain ⟨result,resolved,eq⟩ := means
  exact ⟨result,unfilled.expr_of_firm kinded closed firm resolved,eq⟩

/-- The members of a union that was resolved before were resolved to what they stand for. -/
lemma members_of_pair (firm₁ : (r.resolver scope).firm named e₁ = true)
    (firm₂ : (r.resolver scope).firm named e₂ = true)
    (first : ((r.resolver scope).expr e₁).run = some (.ok a))
    (second : ((r.resolver scope).expr e₂).run = some (.ok b))
    (resolved : ((early.resolver scope).expr ⟨.union [e₁,e₂],span⟩).run = some result) :
    ((early.resolver scope).expr e₁).run = some (.ok a) ∧ ((early.resolver scope).expr e₂).run = some (.ok b) := by
  have agree {e : TypeExpr} {t : Ty} {result : Except ResolveError Ty} (firm : (r.resolver scope).firm named e = true)
      (now : ((r.resolver scope).expr e).run = some (.ok t))
      (pre : ((early.resolver scope).expr e).run = some result) :
      ((early.resolver scope).expr e).run = some (.ok t) := by
    rw [← unfilled.expr_of_firm kinded closed firm pre,now] at pre
    exact pre
  rw [expr] at resolved
  obtain ⟨types,members⟩ := answered_of_bind resolved
  rw [exprs] at members
  obtain ⟨one,asked⟩ := answered_of_bind members
  have here := agree firm₁ first asked
  rw [run_bind_ok here] at members
  obtain ⟨rest,others⟩ := answered_of_bind members
  rw [exprs] at others
  obtain ⟨two,asked⟩ := answered_of_bind others
  exact ⟨here,agree firm₂ second asked⟩

/-- Of a union of two types, one of which is a record type, only one was kept. It is the type
that the union stands for afterwards exactly if the other one fits it. -/
lemma pair {x y : NominalId}
    (pair : (r.resolver scope).Pair named e (r.rawType p x) (r.rawType q y)) (different : x ≠ y)
    (record : (r.nominal x).kind = .record ∨ (r.nominal y).kind = .record)
    (means : (early.resolver scope).Means e stored) : stored = r.rawType (p.union q) (r.left x y) ∧
      ∀ t, ((r.resolver scope).expr e).run = some (.ok t) →
        (Lattice.Equal {registry := r} stored t ↔ Lattice.isSubtype {registry := r}
          (r.rawType {} (r.gone x y)) (r.rawType {} (r.left x y)) = some true) := by
  obtain ⟨span,firm₁,firm₂,first,second⟩ := pair
  obtain ⟨result,resolved,rfl⟩ := means
  obtain ⟨first',second'⟩ := unfilled.members_of_pair kinded closed firm₁ firm₂ first second resolved
  rw [run_expr_pair first' second' rfl rfl span,lattice,Registry.resolver,
    unfilled.join kinded different record] at resolved
  cases resolved
  refine ⟨rfl,fun t resolved => ?_⟩
  rw [run_expr_pair first second rfl rfl span,lattice,Registry.resolver] at resolved
  obtain ⟨joined,joins,kept⟩ := bind_eq_some_iff.mp resolved
  have eq : joined = t := by
    unfold inhabited at kept
    split at kept
    · cases kept
    · cases kept
      rfl
  subst eq
  have law (depth : Nat) (joins : Lattice.join {registry := r, depth := depth + 2}
      (r.rawType p x) (r.rawType q y) = some joined) := equal_left_iff different record (fun _ => unfilled.notObject) joins
  exact law 4094 joins

end Unfilled
end Registry

/-! Boats and barges are moored. What floats has a depth, and so do barges, but boats do not. -/
namespace Moorings

def boat : Outline where
  name := "Boat"
  doc := {kind := some .constructor}

def barge : Outline where
  name := "Barge"
  doc := {kind := some .constructor}
  properties := [("depth",named "number" [])]

def floating : Outline where
  name := "Floating"
  doc := {kind := some .record}
  properties := [("depth",named "number" [])]

def either (first second : String) : TypeExpr := ⟨.union [instanceOf first [],instanceOf second []],{}⟩

/-- Takes a vessel or anything that floats and gives back a boat or a barge. -/
def moor (number : Nat) (vessel : String) : FunctionLiteral where
  id := number
  parameters := [⟨"vessel",{}⟩]
  body := ⟨[],{}⟩
  jsdoc := some {
    params := [⟨"vessel",either vessel "Floating"⟩]
    returnType := some (either "Boat" "Barge")}

def program : Program where
  statements := (Outline.program [boat,barge,floating]).statements ++
    [.function ⟨"moorBoat",{}⟩ (moor 3 "Boat"),.function ⟨"moorBarge",{}⟩ (moor 4 "Barge")]

def boatId : NominalId := ⟨3⟩
def bargeId : NominalId := ⟨4⟩
def floatingId : NominalId := ⟨5⟩
def declarations : Declarations := (Declarations.collect program none false).get (by decide +kernel)

abbrev registry : Registry := declarations.registry

/-- Boats and barges are compared by name. -/
def vessel (id : NominalId) : Bool := id ∈ [.object,boatId,bargeId]
def both (x y : NominalId) : Ty := .union {objects := [.nominal (registry.raw x),.nominal (registry.raw y)]}
def resolve (e : TypeExpr) : Option Ty := ((registry.resolver []).expr e).run.bind Except.toOption

/-- What is found out about the program by running it. -/
@[mk_iff]
structure Outcome : Prop where
  quiet : declarations.diagnostics.isEmpty = true
  unscopedBoat : registry.scope [] (moor 3 "Boat") = []
  unscopedBarge : registry.scope [] (moor 4 "Barge") = []
  classes : ∀ id ∈ [.object,boatId,bargeId], (registry.nominal id).kind ≠ .record ∧
    (registry.nominal id).supertypes = [] ∧ (registry.raw id).args = []
  record : (registry.nominal floatingId).kind = .record
  firmBarge : (registry.resolver []).firm vessel (instanceOf "Barge" []) = true
  firmFloating : (registry.resolver []).firm vessel (instanceOf "Floating" []) = true
  firmVessels : (registry.resolver []).firm vessel (either "Boat" "Barge") = true
  barge : resolve (instanceOf "Barge" []) = some (registry.rawType {} bargeId)
  floating : resolve (instanceOf "Floating" []) = some (registry.rawType {} floatingId)
  vessels : resolve (either "Boat" "Barge") = some (both boatId bargeId)
  boatOrFloating : resolve (either "Boat" "Floating") = some (both boatId floatingId)
  bargeOrFloating : resolve (either "Barge" "Floating") = some (registry.rawType {} floatingId)
  stored : (registry.function? 3).bind (·.signature.typeAt (.param 0)) = some (registry.rawType {} floatingId)
  floats : Lattice.isSubtype {registry} (registry.rawType {} (registry.gone bargeId floatingId))
    (registry.rawType {} (registry.left bargeId floatingId)) = some true
  sinks : Lattice.isSubtype {registry} (both boatId floatingId) (registry.rawType {} floatingId) = some false

lemma outcome : Outcome := outcome_iff.mpr (by decide +kernel)

lemma collected : Declarations.collect program none false = some declarations := (some_get _).symm

lemma occurs_boat : (moor 3 "Boat",[]) ∈ Declarations.literals program none registry := by
  have fourth : (Declarations.literals program none registry)[3]? =
      some (moor 3 "Boat",registry.scope [] (moor 3 "Boat")) := rfl
  rw [outcome.unscopedBoat] at fourth
  exact List.mem_of_getElem? fourth

lemma occurs_barge : Declarations.literals program none registry =
    (Declarations.literals program none registry).dropLast ++ [(moor 4 "Barge",[])] := by
  rw [← outcome.unscopedBarge]
  rfl

lemma byName : registry.ByName vessel where
  object := by decide
  kinds id mem := (outcome.classes id (of_decide_eq_true mem)).1
  supertypes id mem s above := by
    rw [(outcome.classes id (of_decide_eq_true mem)).2.1] at above
    cases above

lemma run_of_resolve (resolved : resolve e = some t) : ((registry.resolver []).expr e).run = some (.ok t) := by
  obtain ⟨result,ended,ok⟩ := bind_eq_some_iff.mp resolved
  cases result with
  | ok t' =>
    cases ok
    exact ended
  | error e => cases ok

lemma pair_barge : (registry.resolver []).Pair vessel (either "Barge" "Floating")
    (registry.rawType {} bargeId) (registry.rawType {} floatingId) :=
  .union {} outcome.firmBarge outcome.firmFloating (run_of_resolve outcome.barge) (run_of_resolve outcome.floating)

lemma tame_vessels : registry.Tame (both boatId bargeId) := by
  refine .union fun o mem => ?_
  simp only [List.mem_cons,List.not_mem_nil,or_false] at mem
  rcases mem with rfl | rfl
  · exact .nominal (by simp [(outcome.classes boatId (by simp)).2.2])
  · exact .nominal (by simp [(outcome.classes bargeId (by simp)).2.2])

end Moorings

namespace Declarations

variable {program : Program} {declarations : Declarations}

/-- What is stored for an annotation is what it stands for while nothing is in the types. If it
is firm, it stands for the same in the end. If it is a union of two types, one of which is a
record type, then one of them is stored, and that is the same in the end exactly if the other
one fits it. -/
theorem annotation_means_same_iff (collected : collect program externs legacy = some declarations)
    {pre after : List (FunctionLiteral × List String)} {fn : FunctionLiteral} {scope : List String}
    (occurs : literals program externs declarations.registry = pre ++ (fn,scope) :: after)
    (last : ∀ later ∈ after, later.1.id ≠ fn.id) {place : Place} {e : TypeExpr}
    (annotated : fn.annotation? place = some e) : let r := declarations.registry
    let resolver := r.resolver scope
    ∃ decl stored, r.function? fn.id = some decl ∧ decl.signature.typeAt place = some stored ∧
      (∃ early, r.Unfilled early ∧ (early.resolver scope).Means e stored) ∧
      ∀ named, r.ByName named → (resolver.firm named e = true → resolver.Means e stored) ∧
        ∀ t, (resolver.expr e).run = some (.ok t) →
          (resolver.firm named e = true → stored = t ∧ (r.Tame t → r.Interchangeable stored t)) ∧
          ∀ p q x y, resolver.Pair named e (r.rawType p x) (r.rawType q y) → x ≠ y →
            (r.nominal x).kind = .record ∨ (r.nominal y).kind = .record →
            stored = r.rawType (p.union q) (r.left x y) ∧
            (Lattice.Equal {registry := r} stored t ↔ Lattice.isSubtype {registry := r}
              (r.rawType {} (r.gone x y)) (r.rawType {} (r.left x y)) = some true) := by
  intro r resolver
  have kinded : r.Kinded := collect_kinded collected
  obtain ⟨decl,early,declared,errors,has,unfilled,ran,params,result⟩ := collect_signed collected occurs last
  obtain ⟨stored,at',means⟩ := Resolver.means_of_signature ran annotated
  have stands : decl.signature.typeAt place = some stored := by
    cases place with
    | param index => rw [← at',Signature.typeAt,params,Signature.typeAt]
    | result => rw [← at',Signature.typeAt,result,Signature.typeAt]
  refine ⟨decl,stored,has,stands,⟨early,unfilled,means⟩,fun named closed => ⟨?_,?_⟩⟩
  · exact fun firm => unfilled.means_of_firm kinded closed firm means
  · intro t resolved
    refine ⟨fun firm => ?_,fun p q x y pair different record => ?_⟩
    · obtain ⟨result,resolved',rfl⟩ := unfilled.means_of_firm kinded closed firm means
      rw [resolved] at resolved'
      cases resolved'
      exact ⟨rfl,fun tame => tame.interchangeable kinded⟩
    · obtain ⟨kept,law⟩ := unfilled.pair kinded closed pair different record means
      exact ⟨kept,law t resolved⟩

/-- Barges have what is asked of anything that floats, so the annotation of the formal means the
same; that of the result does, as boats and barges are compared by name. -/
theorem annotation_means_same_barge : ∃ declarations, collect Moorings.program none false = some declarations ∧
    literals Moorings.program none declarations.registry =
      (literals Moorings.program none declarations.registry).dropLast ++ [(Moorings.moor 4 "Barge",[])] ∧
    ∃ decl, declarations.registry.function? 4 = some decl ∧
      (∃ stored t, decl.signature.typeAt (.param 0) = some stored ∧
        ((declarations.registry.resolver []).expr (Moorings.either "Barge" "Floating")).run =
          some (.ok t) ∧ Lattice.Equal {registry := declarations.registry} stored t) ∧
      ∃ stored, decl.signature.typeAt .result = some stored ∧
        ((declarations.registry.resolver []).expr (Moorings.either "Boat" "Barge")).run =
          some (.ok stored) ∧ declarations.registry.Interchangeable stored stored := by
  refine ⟨Moorings.declarations,Moorings.collected,Moorings.occurs_barge,?_⟩
  have formal : (Moorings.moor 4 "Barge").annotation? (.param 0) = some (Moorings.either "Barge" "Floating") := rfl
  have result : (Moorings.moor 4 "Barge").annotation? .result = some (Moorings.either "Boat" "Barge") := rfl
  obtain ⟨decl,stored,has,atFormal,-,law⟩ :=
    annotation_means_same_iff Moorings.collected Moorings.occurs_barge (by simp) formal
  obtain ⟨decl',stored',has',atResult,-,law'⟩ :=
    annotation_means_same_iff Moorings.collected Moorings.occurs_barge (by simp) result
  cases has.symm.trans has'
  have floating := Moorings.run_of_resolve Moorings.outcome.bargeOrFloating
  have vessels := Moorings.run_of_resolve Moorings.outcome.vessels
  obtain ⟨-,fitted⟩ := ((law Moorings.vessel Moorings.byName).2 _ floating).2 _ _ _ _
    Moorings.pair_barge (by decide) (.inr Moorings.outcome.record)
  obtain ⟨kept,whole⟩ := ((law' Moorings.vessel Moorings.byName).2 _ vessels).1 Moorings.outcome.firmVessels
  subst kept
  exact ⟨decl,has,⟨stored,_,atFormal,floating,fitted.mpr Moorings.outcome.floats⟩,_,atResult,
    vessels,whole Moorings.tame_vessels⟩

/-- Boats do not, and the type that was stored leaves them out. -/
theorem annotation_forgets_boat : ∃ declarations,
    collect Moorings.program none false = some declarations ∧ declarations.diagnostics = [] ∧
    (Moorings.moor 3 "Boat",[]) ∈ literals Moorings.program none declarations.registry ∧
    (Moorings.moor 3 "Boat").annotation? (.param 0) = some (Moorings.either "Boat" "Floating") ∧
    ∃ decl stored t, declarations.registry.function? 3 = some decl ∧ decl.signature.typeAt (.param 0) = some stored ∧
      ((declarations.registry.resolver []).expr (Moorings.either "Boat" "Floating")).run = some (.ok t) ∧
      Lattice.isSubtype {registry := declarations.registry} t stored = some false := by
  obtain ⟨decl,has,stands⟩ := bind_eq_some_iff.mp Moorings.outcome.stored
  exact ⟨Moorings.declarations,Moorings.collected,by simpa using Moorings.outcome.quiet,
    Moorings.occurs_boat,rfl,decl,_,_,has,stands,
    Moorings.run_of_resolve Moorings.outcome.boatOrFloating,Moorings.outcome.sinks⟩

end Declarations
end GradualJs
