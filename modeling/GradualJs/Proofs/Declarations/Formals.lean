import GradualJs.Proofs.Declarations.Annotations

/-! The formals of a declared signature. Tags may be missing, in the wrong place or in any mixture,
but every formal has its place in the function type, which lists them by kind. -/
namespace GradualJs

open List

variable {type : Option Ty} {errors : List ResolveError} {r : Resolver} {doc : Option JsDoc}
  {formals : List Identifier} {params : List DeclaredParam} {s : Signature}

/-- Nothing stands behind a rest formal, and nothing required behind an optional one. -/
def ParamKind.Precedes (a b : ParamKind) : Prop := a ≠ .rest ∧ (a = .optional → b ≠ .required)

namespace Resolver

/-- The formals are in order, and the function type has each in its place with the type that its
tag stands for. -/
structure Places (r : Resolver) (doc : Option JsDoc) (formals : List Identifier) (s : Signature) : Prop where
  ordered : (s.params.map (·.kind)).Pairwise ParamKind.Precedes
  types : ∀ index formal, formals[index]? = some formal → ∃ type,
    Option.Rel (fun e t => r.Means e.unwrapped t) (doc.bind (·.param formal.name)) type ∧
      s.toFunctionType.param index = some (type.getD .unknown)
  minArity : s.toFunctionType.minArity = s.params.countP (·.kind = .required)
  maxArity : s.toFunctionType.maxArity =
    if s.params.any (·.kind = .rest) then none else some formals.length

lemma kind_of_declaredParam (ran : (r.declaredParam seenOptional isLast tag).run errors = some ((type,kind),errors')) :
    (kind = .optional → (seenOptional || isOptionalTag tag) = true) ∧
      (kind = .required → isOptionalTag tag = false) ∧ (kind = .rest → isLast = true) := by
  rcases tag with _ | ⟨kind',span⟩
  · cases ran
    cases seenOptional <;> simp [isOptionalTag]
  cases kind' with
  | rest inner =>
    rw [declaredParam] at ran
    obtain ⟨t,mid,-,rest⟩ := run_bind_iff.mp ran
    cases isLast <;> cases rest <;> simp [isOptionalTag,TypeExpr.isOptional]
  | optional inner =>
    rw [declaredParam] at ran
    obtain ⟨t,mid,-,rest⟩ := run_bind_iff.mp ran
    cases rest
    simp [isOptionalTag,TypeExpr.isOptional]
  | _ =>
    rw [declaredParam] at ran
    · obtain ⟨t,mid,-,rest⟩ := run_bind_iff.mp ran
      cases seenOptional <;> cases rest <;> simp [isOptionalTag,TypeExpr.isOptional]
    all_goals simp

/-- Both passes over the formals have seen an optional one at the same places. -/
lemma ordered_demoteRequired (ran : (r.declaredParams doc seenOptional formals).run errors = some (params,errors')) :
    ((demoteRequired seenOptional params).map (·.kind)).Pairwise ParamKind.Precedes ∧
      (seenOptional = true → ∀ p ∈ demoteRequired seenOptional params, p.kind ≠ .required) := by
  induction formals generalizing seenOptional params errors with
  | nil =>
    cases ran
    simp [demoteRequired]
  | cons formal rest ih =>
    rw [declaredParams] at ran
    obtain ⟨⟨type,kind⟩,mid,here,ran⟩ := run_bind_iff.mp ran
    obtain ⟨others,_,later,ran⟩ := run_bind_iff.mp ran
    cases ran
    obtain ⟨optional,required,last⟩ := kind_of_declaredParam here
    cases kind with
    | optional =>
      rw [optional rfl] at later
      obtain ⟨ordered,none⟩ := ih later
      simpa [demoteRequired,ParamKind.Precedes,ordered] using ⟨none rfl,fun _ => none rfl⟩
    | required =>
      rw [required rfl,Bool.or_false] at later
      obtain ⟨ordered,none⟩ := ih later
      cases seenOptional with
      | true => simpa [demoteRequired,ParamKind.Precedes,ordered] using none rfl
      | false => simpa [demoteRequired,ParamKind.Precedes] using ordered
    | rest =>
      cases List.isEmpty_iff.mp (last rfl)
      cases later
      simp [demoteRequired]

end Resolver

namespace Signature

lemma params_eq (ordered : (params.map (·.kind)).Pairwise ParamKind.Precedes) :
    params = params.filter (·.kind = .required) ++ (params.filter (·.kind = .optional) ++
        params.filter (·.kind = .rest)) ∧ (params.filter (·.kind = .rest)).length ≤ 1 := by
  induction params with
  | nil => simp
  | cons p rest ih =>
    obtain ⟨pre,others⟩ := pairwise_cons.mp ordered
    obtain ⟨split,once⟩ := ih others
    have behind : ∀ q ∈ rest, p.kind.Precedes q.kind := by simpa using pre
    cases kind : p.kind with
    | required => simpa [kind] using ⟨split,once⟩
    | optional =>
      have none : rest.filter (·.kind = .required) = [] :=
        filter_eq_nil_iff.mpr fun q mem => by simpa using (behind q mem).2 kind
      rw [none,nil_append] at split
      simpa [kind,none] using ⟨split,once⟩
    | rest =>
      cases eq_nil_iff_forall_not_mem.mpr fun q mem => (behind q mem).1 kind
      simp [kind]

variable (ordered : (s.params.map (·.kind)).Pairwise ParamKind.Precedes)
include ordered

lemma types_eq : s.params.map (·.type.getD .unknown) = s.toFunctionType.positional ++ s.toFunctionType.rest.toList := by
  obtain ⟨split,once⟩ := params_eq ordered
  have last (types : List Ty) (few : types.length ≤ 1) : types.getLast?.toList = types := by
    rcases types with _ | ⟨t,_ | ⟨u,rest⟩⟩
    · rfl
    · rfl
    · simp at few
  have rest : s.toFunctionType.rest.toList = s.paramTypes .rest := last _ (by simpa [paramTypes] using once)
  rw [rest,FunctionType.positional,append_assoc,split,map_append,map_append]
  rfl

lemma param_eq {p : DeclaredParam} (found : s.params[index]? = some p) :
    s.toFunctionType.param index = some (p.type.getD .unknown) := by
  have inTypes : (s.params.map (·.type.getD .unknown))[index]? = some (p.type.getD .unknown) := by
    simp [found]
  rw [types_eq ordered] at inTypes
  unfold FunctionType.param
  by_cases positional : index < s.toFunctionType.positional.length
  · rw [getElem?_append_left positional] at inTypes
    rw [inTypes]
  · rw [getElem?_append_right (by omega)] at inTypes
    rw [getElem?_eq_none (by omega)]
    cases rest : s.toFunctionType.rest with
    | none => simp [rest] at inTypes
    | some t =>
      rw [rest,Option.toList_some,getElem?_singleton] at inTypes
      split at inTypes
      · exact inTypes
      · cases inTypes

lemma maxArity_eq : s.toFunctionType.maxArity =
    if s.params.any (·.kind = .rest) then none else some s.params.length := by
  have lengths := congrArg length (types_eq ordered)
  have exists' : s.toFunctionType.rest.isSome = s.params.any (·.kind = .rest) := by
    rw [Bool.eq_iff_iff]
    simp [toFunctionType,paramTypes]
  rw [FunctionType.maxArity,exists']
  split
  · rfl
  · rename_i none
    rw [← exists'] at none
    simp_all [FunctionType.positional,FunctionType.positionalLength]

end Signature

namespace Resolver

lemma params_of_signature (ran : (r.signature doc formals).run errors = some (s,errors')) :
    (s.params.map (·.kind)).Pairwise ParamKind.Precedes ∧
      Forall₂ (fun formal => Option.Rel (fun e t => r.Means e.unwrapped t)
        (doc.bind (·.param formal.name))) formals (s.params.map (·.type)) := by
  rw [signature] at ran
  obtain ⟨params,_,declared,ran⟩ := run_bind_iff.mp ran
  obtain ⟨returnType,_,-,ran⟩ := run_bind_iff.mp ran
  obtain ⟨recv,_,-,ran⟩ := run_bind_iff.mp ran
  cases ran
  exact ⟨(ordered_demoteRequired declared).1, types_demoteRequired false params ▸ means_of_declaredParams declared⟩

/-- Whatever the tags say, every formal of a declared signature is in its place. -/
theorem signature_places (ran : (r.signature doc formals).run errors = some (s,errors')) : r.Places doc formals s := by
  obtain ⟨ordered,means⟩ := params_of_signature ran
  refine ⟨ordered,fun index formal found => ?_,?_,?_⟩
  · have typed := Registry.rel_getElem? means index
    rw [found,getElem?_map] at typed
    cases at' : s.params[index]? with
    | none => simp [at'] at typed
    | some p =>
      rw [at',Option.map_some,Option.rel_some_some] at typed
      exact ⟨p.type,typed,Signature.param_eq ordered at'⟩
  · simp [Signature.toFunctionType,FunctionType.minArity,Signature.paramTypes,countP_eq_length_filter]
  · have lengths : s.params.length = formals.length := by simpa using means.length_eq.symm
    rw [← lengths]
    exact Signature.maxArity_eq ordered

/-- A rest formal in the wrong place, an optional and a required one, and one without a tag. -/
def mixed : JsDoc where
  params := [⟨"a",⟨.rest (Outline.named "number" []),{}⟩⟩,
    ⟨"b",⟨.optional (Outline.named "string" []),{}⟩⟩,⟨"c",Outline.named "number" []⟩]

theorem signature_places_mixed : ∃ s errors, ((Registry.initial.resolver []).signature (some mixed)
      [⟨"a",{}⟩,⟨"b",{}⟩,⟨"c",{}⟩,⟨"d",{}⟩]).run [] = some (s,errors) ∧
    s.params.map (·.kind) = [.required,.optional,.optional,.optional] ∧
    (Registry.initial.resolver []).Places (some mixed) [⟨"a",{}⟩,⟨"b",{}⟩,⟨"c",{}⟩,⟨"d",{}⟩] s :=
  ⟨_,_,rfl,rfl,@signature_places [] _ _ _ _ _ rfl⟩

end Resolver
end GradualJs
