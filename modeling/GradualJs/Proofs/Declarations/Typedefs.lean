import GradualJs.Declarations
import GradualJs.Proofs.Lifting
import GradualJs.Proofs.Ty.DecidableEq

/-! Typedefs are resolved one after the other, and what one stands for is kept for those that refer
to it. One that can be resolved by itself comes to the same in every order. -/
namespace GradualJs

open List Option

section Comparing

open Relations

variable (r : Registry) (types : List TypedefDecl)

lemma Registry.commonSuperclass_typedefs (a b : NominalId) :
    ({r with typedefs := types} : Registry).commonSuperclass a b = r.commonSuperclass a b := by
  have chains (steps : Nat) : chainFrom {r with typedefs := types} steps = r.chainFrom steps := by
    induction steps with
    | zero => rfl
    | succ steps ih =>
      funext seen id
      simp only [chainFrom,ih]
      rfl
  simp only [commonSuperclass,superclassChain,chains]
  rfl

/-- Types are compared without looking at typedefs. -/
lemma Relations.within_typedefs (depth : Nat) : within {r with typedefs := types} depth = within r depth := by
  induction depth with
  | zero => rfl
  | succ depth ih =>
    have rules : mergeRules {r with typedefs := types} (within r depth) = mergeRules r (within r depth) := by
      unfold mergeRules joinDistinct
      simp only [Registry.commonSuperclass_typedefs]
      rfl
    have meets (lax : Bool) : meetUnions {r with typedefs := types} (within r depth) lax =
        meetUnions r (within r depth) lax := by
      funext u v
      unfold meetUnions
      rw [rules]
      rfl
    rw [within,within,ih,step,rules]
    unfold meetStep
    simp only [meets]
    rfl

end Comparing

/-- What the first resolution comes to without an error, the second comes to as well. -/
def Resolve.Follows (x y : Resolve α) : Prop := ∀ a, x.run = some (.ok a) → y.run = some (.ok a)

namespace Resolve.Follows

lemma refl (x : Resolve α) : Follows x x := fun _ => id

lemma bind {f g : α → Resolve β} (first : Follows x y) (next : ∀ a, Follows (f a) (g a)) :
    Follows (x >>= f) (y >>= g) := by
  intro b ended
  rw [ExceptT.run_bind] at ended ⊢
  obtain ⟨res,pre,after⟩ := bind_eq_some_iff.mp ended
  cases res with
  | error e => cases after
  | ok a => exact bind_eq_some_iff.mpr ⟨.ok a,first a pre,next a b after⟩

end Resolve.Follows

namespace Resolver

open Resolve

/-- The second resolver differs from the first only in typedefs, of which it knows more. -/
structure Sharper (x y : Resolver) : Prop where
  lookup : y.lookupName = x.lookupName
  arity : ∀ id, (y.registry.nominal id).typeParams = (x.registry.nominal id).typeParams
  join : y.join = x.join
  joinAll : y.joinAll = x.joinAll
  receivers : y.checkReceivers = x.checkReceivers
  typedef : ∀ id span, Follows (x.typedef id span) (y.typedef id span)

lemma Sharper.of_typedefs {f g : TypedefId → Span → Resolve Ty} (types : List TypedefDecl)
    (typedef : ∀ id span, Follows (f id span) (g id span)) : Sharper ⟨r,[],f⟩ ⟨{r with typedefs := types},[],g⟩ := by
  have relations : Lattice.relations {registry := {r with typedefs := types}} = Lattice.relations {registry := r} :=
    Relations.within_typedefs r types _
  have asked : isSubtype ⟨{r with typedefs := types},[],g⟩ = isSubtype ⟨r,[],f⟩ := by
    unfold isSubtype lattice Lattice.isSubtype
    rw [relations]
  refine ⟨rfl,fun _ => rfl,?_,?_,?_,typedef⟩
  · unfold Resolver.join lattice Lattice.join
    rw [relations]
  · unfold Resolver.joinAll lattice Lattice.joinAll Lattice.join
    rw [relations]
  · funext span list
    induction list with
    | nil => rfl
    | cons first rest ih => simp only [checkReceivers,related,asked,ih]

namespace Sharper

variable {x y : Resolver} (sharper : Sharper x y)
include sharper

set_option linter.unusedSectionVars false in
mutual
/-- An annotation that can be resolved means the same where more typedefs are known. -/
lemma expr : (e : TypeExpr) → Follows (x.expr e) (y.expr e)
  | ⟨.any,_⟩ | ⟨.unknown,_⟩ => .refl (pure _)
  | ⟨.rest _,_⟩ => .refl (throw _)
  | ⟨.named name args,span⟩ => by
    simp only [Resolver.expr,sharper.lookup,sharper.arity,sharper.join]
    refine .bind (.refl _) fun found => ?_
    cases found with
    | type t => exact .refl _
    | typedef id => exact sharper.typedef id span
    | nominal id =>
      dsimp only
      split
      · exact .refl _
      · exact .bind (exprs args) fun _ => .refl _
  | ⟨.nullable inner,_⟩ | ⟨.optional inner,_⟩ => by
    simp only [Resolver.expr,sharper.join]
    exact .bind (expr inner) fun _ => .refl _
  | ⟨.nonNull inner,_⟩ => .bind (expr inner) fun _ => .refl _
  | ⟨.union members,span⟩ => by
    simp only [Resolver.expr,sharper.receivers,sharper.joinAll]
    exact .bind (exprs members) fun _ => .refl _
  | ⟨.record list,_⟩ => .bind (fields list) fun _ => .refl _
  | ⟨.function shape,span⟩ => .bind (function span shape) fun _ => .refl _

lemma exprs : (es : List TypeExpr) → Follows (x.exprs es) (y.exprs es)
  | [] => .refl (pure [])
  | e :: rest => .bind (expr e) fun _ => .bind (exprs rest) fun _ => .refl _

lemma optional : (e : Option TypeExpr) → Follows (x.optionalExpr e) (y.optionalExpr e)
  | none => .refl (pure none)
  | some e => by
    simp only [optionalExpr,map_eq_pure_bind]
    exact .bind (expr e) fun _ => .refl _

lemma fields : (list : List RecordField) → Follows (x.recordFields list) (y.recordFields list)
  | [] => .refl (pure [])
  | f :: rest => .bind (field f) fun _ => .bind (fields rest) fun _ => .refl _

lemma field : (f : RecordField) → Follows (x.recordField f) (y.recordField f)
  | ⟨name,none⟩ => .refl (pure _)
  | ⟨name,some ⟨kind,span⟩⟩ => by
    cases kind with
    | optional inner => exact .bind (expr inner) fun _ => .refl _
    | _ => exact .bind (expr ⟨_,span⟩) fun _ => .refl _

lemma function (span : Span) : (shape : FunctionTypeExpr) → Follows (x.function span shape) (y.function span shape)
  | ⟨thisType,newType,parameters,returnType⟩ => .bind (params _ parameters) fun _ =>
    .bind (optional thisType) fun _ => .bind (optional newType) fun _ =>
      .bind (optional returnType) fun _ => .refl _

lemma params : (done : FunctionType) → (es : List TypeExpr) → Follows (x.params done es) (y.params done es)
  | done, [] => .refl (pure done)
  | done, ⟨kind,span⟩ :: rest => by
    cases kind with
    | optional inner => exact .bind (expr inner) fun _ => params _ rest
    | rest inner =>
      simp only [Resolver.params]
      split
      · exact .refl (throw _)
      · exact .bind (expr inner) fun _ => params _ rest
    | _ =>
      simp only [Resolver.params]
      split
      · exact .refl (throw _)
      · exact .bind (expr ⟨_,span⟩) fun _ => params _ rest
end

end Sharper
end Resolver

namespace Registry

open Resolve

lemma typedef_modifyTypedef (r : Registry) (id other : TypedefId) (f : TypedefDecl → TypedefDecl) :
    (r.modifyTypedef id f).typedef other =
      if id = other ∧ other.index < r.typedefs.length then f (r.typedef other) else r.typedef other := by
  cases id
  cases other
  simp only [modifyTypedef,typedef,getElem?_modify,TypedefId.mk.injEq]
  split <;> split <;> simp_all

/-- Typedefs have been resolved since, each to what it comes to by itself if it comes to anything. -/
structure Resolving (r r' : Registry) : Prop where
  only : r' = {r with typedefs := r'.typedefs}
  length : r'.typedefs.length = r.typedefs.length
  meaning : ∀ id, (r'.typedef id).meaning = (r.typedef id).meaning
  own : ∀ id t, (r'.typedef id).resolved = some t → ∀ s, (r.resolveTypedef id).run = some (.ok s) → s = t

variable {r r' : Registry} {id : TypedefId} (fresh : ∀ id, (r.typedef id).resolved = none)
include fresh

lemma follows_typedefType (only : r' = {r with typedefs := types})
    (meaning : ∀ id, (r'.typedef id).meaning = (r.typedef id).meaning)
    (known : ∀ id t, (r'.typedef id).resolved = some t → ∀ levels ≤ r.typedefLevels, ∀ active span s,
      (r.typedefType [] levels active id span).run = some (.ok s) → s = t)
    (few : levels ≤ r.typedefLevels) (enough : levels ≤ more) (subset : fewer ⊆ active) (span other : Span) :
    Follows (r.typedefType [] levels active id span) (r'.typedefType [] more fewer id other) := by
  intro s ended
  induction levels using Nat.strongRecOn generalizing more active fewer id span other s with
  | _ levels ih =>
    rw [typedefType.eq_def]
    cases now : (r'.typedef id).resolved with
    | some t =>
      cases known id t now levels few active span s ended
      simp [now]
    | none =>
      rw [typedefType.eq_def] at ended
      simp only [fresh,meaning,now,contains_iff_mem] at ended ⊢
      by_cases met : id ∈ active
      · simp [met] at ended
      simp only [met,mt (@subset id) met,if_false] at ended ⊢
      cases meant : (r.typedef id).meaning with
      | none => simpa [meant] using ended
      | some e =>
        cases levels with
        | zero => simp [meant,ExceptT.lift] at ended
        | succ levels =>
          obtain ⟨more,rfl⟩ : ∃ less, more = less + 1 := ⟨more - 1,by omega⟩
          simp only [meant] at ended ⊢
          subst only
          refine (Resolver.Sharper.of_typedefs types fun id' span' s ended => ?_).expr e s ended
          exact ih levels (by omega) (by omega) (by omega) (cons_subset_cons id subset) span' span' s ended

lemma Resolving.follows (resolving : r.Resolving r') (id : TypedefId) :
    Follows (r.resolveTypedef id) (r'.resolveTypedef id) := by
  have levels : r'.typedefLevels = r.typedefLevels := congrArg (· + 1) resolving.length
  unfold resolveTypedef
  rw [levels]
  refine follows_typedefType fresh resolving.only resolving.meaning (fun other t now levels few active span s ended =>
    resolving.own other t now s ?_) (Nat.le_refl _) (Nat.le_refl _) (Subset.refl _) _ _
  exact follows_typedefType fresh rfl (fun _ => rfl) (by simp [fresh]) few few (nil_subset _) _ _ s ended

omit fresh in
lemma Resolving.written (resolving : r.Resolving r') (own : ∀ s, (r.resolveTypedef id).run = some (.ok s) → s = t) :
    r.Resolving (r'.modifyTypedef id ({· with resolved := some t})) := by
  refine ⟨?_,by simp [modifyTypedef,resolving.length],fun other => ?_,fun other t' now => ?_⟩
  · rw [resolving.only]
    rfl
  · rw [typedef_modifyTypedef,← resolving.meaning]
    split <;> rfl
  · rw [typedef_modifyTypedef] at now
    split at now
    · rename_i here
      cases now
      cases here.1
      exact own
    · exact resolving.own other t' now

end Registry

namespace Collecting

open Registry

variable {r : Registry} {id : TypedefId} {c c' : Collection} (fresh : ∀ id, (r.typedef id).resolved = none)
include fresh

lemma run_typedef (resolving : r.Resolving c.registry)
    (ran : (typedef id (r.typedef id).meaning.isSome).run c = some ((),c')) : ∃ t,
      c'.registry = c.registry.modifyTypedef id ({· with resolved := some t}) ∧
        ∀ s, (r.resolveTypedef id).run = some (.ok s) → s = t := by
  have turn := resolving.follows fresh id
  obtain ⟨_,_,read,ran⟩ := run_bind_iff.mp ran
  cases read
  cases meant : (r.typedef id).meaning with
  | none =>
    simp only [meant] at ran
    cases ran
    refine ⟨.unknown,rfl,fun s alone => ?_⟩
    simpa [resolveTypedef,typedefType.eq_def,fresh,meant,eq_comm] using alone
  | some e =>
    simp only [meant,isSome_some,if_true] at ran
    unfold attempt ask at ran
    cases resolved : (c.registry.resolveTypedef id).run with
    | none => simp [resolved] at ran
    | some res =>
      rw [resolved] at ran
      cases res <;> cases ran <;>
        exact ⟨_,rfl,fun s alone => by simpa [resolved,eq_comm] using turn s alone⟩

lemma run_typedefs {sites : List (TypedefId × Bool)} (resolving : r.Resolving c.registry)
    (meant : ∀ site ∈ sites, site.2 = (r.typedef site.1).meaning.isSome)
    (ran : (sites.forM fun site => typedef site.1 site.2).run c = some ((),c')) :
    r.Resolving c'.registry ∧ ∀ id, id.index < r.typedefs.length →
      id ∈ sites.map (·.1) ∨ (c.registry.typedef id).resolved.isSome → (c'.registry.typedef id).resolved.isSome := by
  induction sites generalizing c with
  | nil =>
    cases ran
    exact ⟨resolving,fun id _ reached => reached.resolve_left not_mem_nil⟩
  | cons site rest ih =>
    obtain ⟨⟨⟩,mid,first,later⟩ := run_bind_iff.mp ran
    obtain ⟨here,meant⟩ := forall_mem_cons.mp meant
    simp only [here] at first
    obtain ⟨t,written,own⟩ := run_typedef fresh resolving first
    obtain ⟨ends,reached⟩ := ih (written ▸ resolving.written own) meant later
    refine ⟨ends,fun id present turn => reached id present ?_⟩
    rw [written,typedef_modifyTypedef,resolving.length]
    by_cases eq : site.1 = id
    · simp [eq,present]
    · simpa [eq,Ne.symm eq] using turn

end Collecting

/-- A typedef that can be resolved by itself comes to the same in every order. -/
theorem typedefs_in_every_order (c c' : Collection) (site : TypedefId × Bool)
    (fresh : ∀ id, (c.registry.typedef id).resolved = none)
    (meant : ∀ site ∈ c.typedefs, site.2 = (c.registry.typedef site.1).meaning.isSome)
    (permuted : order.Perm c.typedefs) (ran : Collecting.typedefs.run {c with typedefs := order} = some ((),c'))
    (mem : site ∈ c.typedefs) (present : site.1.index < c.registry.typedefs.length)
    (alone : (c.registry.resolveTypedef site.1).run = some (.ok t)) :
    (c'.registry.typedef site.1).resolved = some t := by
  have start : c.registry.Resolving c.registry := ⟨rfl,rfl,fun _ => rfl,by simp [fresh]⟩
  obtain ⟨ends,reached⟩ := Collecting.run_typedefs fresh (c := {c with typedefs := order}) start
    (fun site inOrder => meant site (permuted.mem_iff.mp inOrder)) ran
  have turn := reached site.1 present (.inl (mem_map_of_mem (permuted.mem_iff.mpr mem)))
  obtain ⟨t',now⟩ := isSome_iff_exists.mp turn
  rw [now,ends.own _ _ now _ alone]

/-- Two typedefs, of which the first is a record of the second. -/
def farAndNear (near : String) (typedefs : List (TypedefId × Bool)) : Collection where
  registry := {typedefs := [{meaning := some ⟨.record [⟨"x",some ⟨.named "Near" [],{}⟩⟩],{}⟩},
    {meaning := some ⟨.named near [],{}⟩}], declarations := ⟨[("Near",.typedef ⟨1⟩)]⟩}
  typedefs

def resolvedFar (near : String) (order : List (TypedefId × Bool)) : Option Ty := do
  let (_,c) ← Collecting.typedefs.run (farAndNear near order)
  (c.registry.typedef ⟨0⟩).resolved

theorem typedefs_in_every_order_number : resolvedFar "number" [(⟨1⟩,true),(⟨0⟩,true)] =
    some (.record {fields := [{name := "x", type := .number, declared := true}]}) := by
  have ended : (Collecting.typedefs.run (farAndNear "number" [(⟨1⟩,true),(⟨0⟩,true)])).isSome := by decide +kernel
  obtain ⟨⟨⟨⟩,c'⟩,ran⟩ := isSome_iff_exists.mp ended
  have resolved := typedefs_in_every_order (farAndNear "number" [(⟨0⟩,true),(⟨1⟩,true)]) c' (⟨0⟩,true)
    (t := .record {fields := [{name := "x", type := .number, declared := true}]})
    (by rintro ⟨_ | _ | i⟩ <;> rfl) (by simp [farAndNear,Registry.typedef]) (.swap _ _ _) ran (by simp [farAndNear])
    (by simp [farAndNear]) (by decide +kernel)
  simp [resolvedFar,ran,resolved]

theorem typedefs_order_missing : resolvedFar "Missing" [(⟨0⟩,true),(⟨1⟩,true)] ≠
    resolvedFar "Missing" [(⟨1⟩,true),(⟨0⟩,true)] := by
  decide +kernel

end GradualJs
