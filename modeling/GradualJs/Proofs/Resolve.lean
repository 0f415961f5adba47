import GradualJs.Proofs.Lattice.ByName
import GradualJs.Resolve
import Mathlib.Data.List.Nodup

/-! Annotations over two registries that differ only in what is in types. They can only mean
different things where a union is simplified. An annotation is firm if all that it joins is told
apart by kind or compared by name. -/
namespace GradualJs

open Registry Lifting List

variable {α : Type} {a b : Ty} {types : List Ty} {arguments : Nat} {id : TypedefId}

namespace Resolver

/-- The condition holds of what is resolved, if it can be resolved. -/
def given {α : Type} (resolution : Resolve α) (condition : α → Bool) : Bool :=
  match resolution.run with
  | some (.ok a) => condition a
  | _ => true

/-- The name does not stand for a typedef that has yet to be resolved. -/
def resolvedName (r : Resolver) (name : String) : Bool :=
  match r.registry.lookup name with
  | some (.typedef id) => (r.registry.typedef id).resolved.isSome
  | _ => true

mutual
/-- What is joined in the annotation is mergeable. -/
def firm (r : Resolver) (named : NominalId → Bool) : TypeExpr → Bool
  | ⟨.any,_⟩ | ⟨.unknown,_⟩ => true
  | ⟨.named name arguments,_⟩ => r.resolvedName name && firmAll r named arguments
  | ⟨.nullable inner,_⟩ | ⟨.optional inner,_⟩ =>
    firm r named inner && given (r.expr inner) fun t => Ty.mergeable named [t]
  | ⟨.nonNull inner,_⟩ | ⟨.rest inner,_⟩ => firm r named inner
  | ⟨.union members,_⟩ =>
    firmAll r named members && given (r.exprs members) (Ty.mergeable named)
  | ⟨.record fields,_⟩ => firmFields r named fields
  | ⟨.function shape,_⟩ => firmFunction r named shape
def firmAll (r : Resolver) (named : NominalId → Bool) : List TypeExpr → Bool
  | [] => true
  | e :: rest => firm r named e && firmAll r named rest
def firmOption (r : Resolver) (named : NominalId → Bool) : Option TypeExpr → Bool
  | none => true
  | some e => firm r named e
def firmFields (r : Resolver) (named : NominalId → Bool) : List RecordField → Bool
  | [] => true
  | f :: rest => firmField r named f && firmFields r named rest
def firmField (r : Resolver) (named : NominalId → Bool) : RecordField → Bool
  | ⟨_,type⟩ => firmOption r named type
def firmFunction (r : Resolver) (named : NominalId → Bool) : FunctionTypeExpr → Bool
  | ⟨thisType,newType,parameters,returnType⟩ =>
    firmOption r named thisType && firmOption r named newType && firmAll r named parameters &&
      firmOption r named returnType
end

lemma of_given {resolution : Resolve α} {a : α}
    (held : given resolution condition = true) (resolved : resolution.run = some (.ok a)) :
    condition a = true := by
  simpa [given,resolved] using held

/-- The second resolution comes to the same as the first, with an error or without. -/
abbrev Same {α : Type} (x : Bool → Resolve α) : Prop := keeps.failing.Holds (fun _ => True) x

section Same

variable {α β : Type}

lemma same_const (x : Resolve α) : Same fun _ => x := fun _ ended => ⟨ended,fun _ _ => trivial⟩

lemma Same.bind {f : Bool → α → Resolve β} (first : Same x)
    (next : ∀ a, (x true).run = some (.ok a) → Same fun i => f i a) : Same fun i => x i >>= f i := by
  have reached : keeps.failing.Holds (fun a => (x true).run = some (.ok a)) x := by
    intro res ended
    obtain ⟨again,-⟩ := first res ended
    refine ⟨again,fun a eq => ?_⟩
    subst eq
    exact again
  exact keeps.failing.sequence reached next

lemma Same.map (f : α → β) (first : Same x) : Same fun i => f <$> x i := keeps.failing.map first fun _ _ => trivial

end Same

section Receivers

lemma functionMember_mem {t : Ty} (found : t.functionMember = some f) : .function f ∈ t.objects := by
  obtain ⟨o,mem,eq⟩ := exists_of_findSome?_eq_some found
  split at eq
  · cases eq
    exact mem
  · cases eq

/-- Mergeable types have one function between them, or functions that are compared by name. -/
lemma receivers_of_mergeable (mergeable : Ty.mergeable named types = true) :
    (types.filterMap fun t => t.functionMember.bind (·.receiver)).length ≤ 1 ∨
      ∀ t ∈ types.filterMap fun t => t.functionMember.bind (·.receiver), t.byName named = true := by
  simp only [Ty.mergeable,Bool.or_eq_true,decide_eq_true_eq,all_eq_true] at mergeable
  rcases mergeable with apart | light
  · left
    have counted (types : List Ty) : (types.filterMap fun t => t.functionMember.bind (·.receiver)).length ≤
          ((types.flatMap Ty.objects).map Obj.sort).count 3 := by
      induction types with
      | nil => simp
      | cons t rest ih =>
        rw [flatMap_cons,map_append,count_append,filterMap_cons]
        split
        · omega
        · rename_i recv found
          obtain ⟨f,isFunction,-⟩ := Option.bind_eq_some_iff.mp found
          have here : 0 < (t.objects.map Obj.sort).count 3 :=
            count_pos_iff.mpr (mem_map.mpr ⟨_,functionMember_mem isFunction,rfl⟩)
          rw [length_cons]
          omega
    exact Nat.le_trans (counted types) (nodup_iff_count_le_one.mp apart 3)
  · right
    intro recv mem
    obtain ⟨t,inTypes,found⟩ := mem_filterMap.mp mem
    obtain ⟨f,isFunction,isReceiver⟩ := Option.bind_eq_some_iff.mp found
    have lightF := objects_light (light t inTypes) _ (functionMember_mem isFunction)
    have below := (Weights.looked named).weighFunction_le.mp (Nat.le_of_eq lightF) recv
      (f.receiver_subset (by simpa using isReceiver))
    exact decide_eq_true (by omega)

end Receivers

lemma lookup_of_typedef {r : Resolver} {span : Span}
    (looked : (r.lookupName name arguments span).run = some (.ok (.typedef id))) :
    r.registry.lookup name = some (.typedef id) := by
  unfold lookupName at looked
  split at looked
  · split at looked <;> simp at looked
  split at looked
  · simp at looked
  split at looked
  · dsimp only at looked
    repeat' split at looked
    all_goals simp at looked
  · split at looked <;> simp at looked
  · rename_i declared
    simp only [ExceptT.run_pure,Option.pure_def,Option.some.injEq,Except.ok.injEq, Named.typedef.injEq] at looked
    rw [declared,looked]
  · simp at looked
  · simp at looked

section Registries

variable {r : Bool → Registry} {templates : List String} (shared : ∀ i, (r false).bare = (r i).bare)
  (plain : ∀ id, ((r false).enumBacking id).Plain) (closed : (r false).ByName named)

include shared in
lemma lookupName_same (name : String) (arguments : Nat) (span : Span) (i : Bool) :
    ((r i).resolver templates).lookupName name arguments span =
      ((r false).resolver templates).lookupName name arguments span := by
  simp only [lookupName,template?,resolver,lookup_of_bare (shared i),typeParams_of_bare (shared i)]
  rfl

include shared in
/-- A typedef that was resolved means what it was resolved to. -/
lemma same_typedef (span : Span) (resolved : ((r true).resolver templates).resolvedName name = true)
    (looked : (((r false).resolver templates).lookupName name arguments span).run =
      some (.ok (.typedef id))) : Same fun i => ((r i).resolver templates).typedef id span := by
  have declared : (r false).lookup name = some (.typedef id) := lookup_of_typedef looked
  rw [resolvedName,resolver,← lookup_of_bare (shared true),declared] at resolved
  obtain ⟨t,meant⟩ := Option.isSome_iff_exists.mp resolved
  have eq (i : Bool) : ((r i).resolver templates).typedef id span = pure t := by
    have here : ((r i).typedef id).resolved = some t := by
      rw [← typedef_of_bare (shared i),typedef_of_bare (shared true),meant]
    unfold resolver typedefType
    simp [here]
  simp only [eq]
  exact same_const _

include shared plain closed

lemma same_join (mergeable : Ty.mergeable named [a] = true) (none : b.objects = []) :
    Same fun i => ((r i).resolver templates).join a b := by
  have joined (depth : Nat) : keeps.Holds (fun _ => True) fun i => Lattice.join {registry := r i, depth} a b :=
    Relations.keeps_join shared plain closed depth mergeable none
  exact failing_lift (joined _)

lemma same_joinAll (mergeable : Ty.mergeable named types = true) :
    Same fun i => ((r i).resolver templates).joinAll types := by
  have joined (depth : Nat) : keeps.Holds (fun _ => True) fun i => Lattice.joinAll {registry := r i, depth} types :=
    Relations.keeps_joinAll shared plain closed depth mergeable
  exact failing_lift (joined _)

lemma same_related (lightA : a.byName named = true) (lightB : b.byName named = true) :
    Same fun i => ((r i).resolver templates).related a b := by
  have asked {a b : Ty} (lightA : a.byName named = true) (lightB : b.byName named = true) :
      Same fun i => ((r i).resolver templates).isSubtype a b := by
    have answered (depth : Nat) : keeps.Holds (fun _ => True) fun i => Lattice.isSubtype ⟨r i,false,depth⟩ a b :=
      (Relations.agree_within shared plain closed depth).isSubtype lightA lightB
    exact failing_lift (answered _)
  unfold related
  refine (asked lightA lightB).bind fun fits _ => ?_
  split
  · exact same_const _
  · exact asked lightB lightA

lemma same_checkReceivers (span : Span) {receivers : List Ty}
    (few : receivers.length ≤ 1 ∨ ∀ t ∈ receivers, t.byName named = true) :
    Same fun i => ((r i).resolver templates).checkReceivers span receivers := by
  induction receivers with
  | nil => exact same_const _
  | cons first rest ih =>
    simp only [checkReceivers]
    rcases few with short | light
    · have none : rest = [] := by simpa using short
      subst none
      exact same_const _
    · obtain ⟨lightFirst,lightRest⟩ := forall_mem_cons.mp light
      refine Same.bind (keeps.failing.forM fun second mem => ?_) fun _ _ => ih (.inr lightRest)
      refine (same_related shared plain closed lightFirst (lightRest second mem)).bind fun fits _ => ?_
      split
      · exact same_const _
      · exact same_const _

set_option linter.unusedSectionVars false in
mutual
/-- A firm annotation comes to the same over both registries. -/
lemma same_expr : (e : TypeExpr) → ((r true).resolver templates).firm named e = true →
    Same fun i => ((r i).resolver templates).expr e
  | ⟨.any,_⟩, _ | ⟨.unknown,_⟩, _ => same_const _
  | ⟨.named name arguments,span⟩, firm => by
    simp only [Resolver.firm,Bool.and_eq_true] at firm
    simp only [expr,lookupName_same shared]
    refine Same.bind (same_const _) fun found looked => ?_
    cases found with
    | type t => exact same_const _
    | typedef id => exact same_typedef shared span firm.1 looked
    | nominal id =>
      have joined (args : List Ty) : Same fun i => ((r i).resolver templates).join (.nominal id args) .null :=
        same_join shared plain closed (by simp [Ty.mergeable,Ty.nominal,Ty.object,Ty.objects]) rfl
      have params (i : Bool) : ((r i).nominal id).typeParams = ((r false).nominal id).typeParams :=
        (typeParams_of_bare (shared i) id).symm
      by_cases bare : arguments.isEmpty
      · simp only [bare,if_true,resolver,params]
        exact Same.bind (same_const _) fun args _ => joined args
      · simp only [bare]
        exact (same_exprs arguments firm.2).bind fun args _ => joined args
  | ⟨.nullable inner,_⟩, firm | ⟨.optional inner,_⟩, firm => by
    simp only [Resolver.firm,Bool.and_eq_true] at firm
    refine (same_expr inner firm.1).bind fun t resolved => ?_
    have mergeable := of_given firm.2 resolved
    exact same_join shared plain closed mergeable rfl
  | ⟨.nonNull inner,_⟩, firm => (same_expr inner firm).bind fun t _ => same_const _
  | ⟨.rest _,_⟩, _ => same_const _
  | ⟨.union members,span⟩, firm => by
    simp only [Resolver.firm,Bool.and_eq_true] at firm
    refine (same_exprs members firm.1).bind fun types resolved => ?_
    have mergeable := of_given firm.2 resolved
    refine (same_checkReceivers shared plain closed span (receivers_of_mergeable mergeable)).bind fun _ _ => ?_
    exact (same_joinAll shared plain closed mergeable).bind fun _ _ => same_const _
  | ⟨.record fields,_⟩, firm => (same_fields fields firm).bind fun _ _ => same_const _
  | ⟨.function shape,span⟩, firm => (same_function span shape firm).bind fun _ _ => same_const _

lemma same_exprs : (es : List TypeExpr) → ((r true).resolver templates).firmAll named es = true →
    Same fun i => ((r i).resolver templates).exprs es
  | [], _ => same_const _
  | e :: rest, firm => by
    simp only [Resolver.firmAll,Bool.and_eq_true] at firm
    exact (same_expr e firm.1).bind fun _ _ => (same_exprs rest firm.2).bind fun _ _ => same_const _

lemma same_optionalExpr : (e : Option TypeExpr) → ((r true).resolver templates).firmOption named e = true →
    Same fun i => ((r i).resolver templates).optionalExpr e
  | none, _ => same_const _
  | some e, firm => (same_expr e firm).map some

lemma same_fields : (fields : List RecordField) → ((r true).resolver templates).firmFields named fields = true →
    Same fun i => ((r i).resolver templates).recordFields fields
  | [], _ => same_const _
  | f :: rest, firm => by
    simp only [Resolver.firmFields,Bool.and_eq_true] at firm
    exact (same_field f firm.1).bind fun _ _ => (same_fields rest firm.2).bind fun _ _ => same_const _

lemma same_field : (f : RecordField) → ((r true).resolver templates).firmField named f = true →
    Same fun i => ((r i).resolver templates).recordField f
  | ⟨name,none⟩, _ => same_const _
  | ⟨name,some ⟨kind,span⟩⟩, firm => by
    cases kind with
    | optional inner =>
      simp only [firmField,firmOption,Resolver.firm,Bool.and_eq_true] at firm
      exact (same_expr inner firm.1).bind fun _ _ => same_const _
    | _ => exact (same_expr ⟨_,span⟩ firm).bind fun _ _ => same_const _

lemma same_function (span : Span) : (shape : FunctionTypeExpr) →
    ((r true).resolver templates).firmFunction named shape = true →
    Same fun i => ((r i).resolver templates).function span shape
  | ⟨thisType,newType,parameters,returnType⟩, firm => by
    simp only [Resolver.firmFunction,Bool.and_eq_true] at firm
    obtain ⟨⟨⟨recv,constructed⟩,parameters'⟩,res⟩ := firm
    refine (same_params _ parameters parameters').bind fun _ _ => ?_
    refine (same_optionalExpr thisType recv).bind fun _ _ => ?_
    refine (same_optionalExpr newType constructed).bind fun _ _ => ?_
    exact (same_optionalExpr returnType res).bind fun _ _ => same_const _

lemma same_params : (done : FunctionType) → (es : List TypeExpr) →
    ((r true).resolver templates).firmAll named es = true →
    Same fun i => ((r i).resolver templates).params done es
  | done, [], _ => same_const _
  | done, ⟨kind,span⟩ :: rest, firm => by
    simp only [firmAll,Bool.and_eq_true] at firm
    cases kind with
    | optional inner =>
      simp only [Resolver.firm,Bool.and_eq_true] at firm
      exact (same_expr inner firm.1.1).bind fun _ _ => same_params _ rest firm.2
    | rest inner =>
      simp only [params]
      split
      · exact same_const _
      · exact (same_expr inner firm.1).bind fun _ _ => same_params _ rest firm.2
    | _ =>
      simp only [params]
      split
      · exact same_const _
      · exact (same_expr ⟨_,span⟩ firm.1).bind fun _ _ => same_params _ rest firm.2
end

end Registries

end Resolver
end GradualJs
