import GradualJs.Proofs.Declarations.Formals
import GradualJs.Proofs.Summaries

/-! The summary of a function keeps what its comment declares. Following the body only fills in the
types that the comment leaves out, so a call meets the same type before and after. -/
namespace GradualJs

open GradualJs.Flow List

/-- Of the same kind, and of the declared type if there is one. -/
def DeclaredParam.Fills (p q : DeclaredParam) : Prop := q.kind = p.kind ∧ ∀ t ∈ p.type, q.type = some t

namespace Signature

variable {s : Signature} {fn : FunctionLiteral}

/-- The function type has every declared part of the signature in its place. -/
structure KeptBy (s : Signature) (f : FunctionType) : Prop where
  required : f.required.length = s.toFunctionType.required.length
  optional : f.optional.length = s.toFunctionType.optional.length
  rest : f.rest.isSome = s.toFunctionType.rest.isSome
  params : ∀ (index : Nat) p t, s.params[index]? = some p → p.type = some t →
    f.param index = some t ∧ s.toFunctionType.param index = some t
  returnType : s.returnType.isSome ∨ s.constructs.isSome → f.returnType = s.toFunctionType.returnType
  receiver : f.receiver = s.toFunctionType.receiver
  constructs : f.constructs = s.toFunctionType.constructs
  typeParams : f.typeParams = s.toFunctionType.typeParams
  complete : s.isComplete = true → f = s.toFunctionType

/-- The signature with a type for every formal, inferred where none is declared. -/
def filled (s : Signature) (fn : FunctionLiteral) (inferred : Table String Ty) : Signature :=
  {s with params := (formals fn s inferred).map fun f => ⟨f.name,some f.type,f.kind⟩}

lemma fills_filled (inferred : Table String Ty) (lengths : s.params.length = fn.parameters.length) :
    Forall₂ DeclaredParam.Fills s.params (s.filled fn inferred).params := by
  refine forall₂_iff_get.mpr ⟨by simp [filled,formals,lengths],fun index inside _ => ?_⟩
  have present : s.params[index]? = some s.params[index] := getElem?_eq_getElem inside
  refine ⟨by simp [filled,formals,present],fun t typed => ?_⟩
  simp [filled,formals,present,show s.params[index].type = some t from typed]

lemma map_eq_of_fills {α : Type} {g : DeclaredParam → α} {ps qs : List DeclaredParam}
    (fills : Forall₂ DeclaredParam.Fills ps qs) (eq : ∀ p ∈ ps, ∀ q, p.Fills q → g q = g p) :
    qs.map g = ps.map g := by
  induction fills with
  | nil => rfl
  | cons here _ ih =>
    rw [map_cons,map_cons,eq _ mem_cons_self _ here,ih fun p mem => eq p (.tail _ mem)]

lemma keptBy_filled
    (lengths : s.params.length = fn.parameters.length)
    (ordered : (s.params.map (·.kind)).Pairwise ParamKind.Precedes)
    (returning : Flow.returnType l s returns live = some returned) :
    s.KeptBy { (s.filled fn inferred).toFunctionType with returnType := returned} := by
  have fills := fills_filled inferred lengths
  have ofKind (kind : ParamKind) : Forall₂ DeclaredParam.Fills (s.params.filter (·.kind = kind))
      ((s.filled fn inferred).params.filter (·.kind = kind)) := by
    refine rel_filter (fun p q fills => ?_) fills
    simp only [fills.1]
  have counted (kind : ParamKind) : ((s.filled fn inferred).paramTypes kind).length = (s.paramTypes kind).length := by
    simpa [paramTypes] using (ofKind kind).length_eq.symm
  have declared (given : s.returnType.isSome ∨ s.constructs.isSome) : returned = s.toFunctionType.returnType := by
    unfold Flow.returnType at returning
    unfold toFunctionType
    cases res : s.returnType with
    | some t => simp_all
    | none => cases built : s.constructs <;> simp_all
  refine ⟨counted _,counted _,?_,fun index p t present typed => ?_,declared,rfl,rfl,rfl, fun complete => ?_⟩
  · show (paramTypes _ .rest).getLast?.isSome = (paramTypes _ .rest).getLast?.isSome
    rw [Bool.eq_iff_iff,getLast?_isSome,getLast?_isSome,← length_pos_iff,← length_pos_iff,counted]
  · obtain ⟨inside,rfl⟩ := List.getElem?_eq_some_iff.mp present
    have inside' := fills.length_eq ▸ inside
    have type := (fills.get inside inside').2 t typed
    rw [get_eq_getElem] at type
    have here := param_eq (map_eq_of_fills fills (fun _ _ _ fills => fills.1) ▸ ordered) (getElem?_eq_getElem inside')
    rw [type] at here
    exact ⟨here,(param_eq ordered present).trans (by rw [typed]; rfl)⟩
  · obtain ⟨res,typed⟩ := Bool.and_eq_true_iff.mp complete
    have types (kind : ParamKind) : (s.filled fn inferred).paramTypes kind = s.paramTypes kind :=
      map_eq_of_fills (ofKind kind) fun p mem q fills => by
        obtain ⟨t,typed⟩ := Option.isSome_iff_exists.mp (all_eq_true.mp typed p (mem_filter.mp mem).1)
        rw [fills.2 t typed,typed]
    rw [declared (.inl res)]
    simp only [toFunctionType,types]
    rfl

end Signature

lemma Declarations.collect_formals (collected : collect prog externs legacy = some decls)
    (distinct : (prog.literals.map (·.id)).Nodup) (written : fn ∈ prog.literals) :
    ∃ decl, decls.registry.function? fn.id = some decl ∧ decl.signature.params.length = fn.parameters.length ∧
      (decl.signature.params.map (·.kind)).Pairwise ParamKind.Precedes := by
  rw [prog.literals_eq decls.registry.scope] at distinct written
  obtain ⟨⟨fn,scope⟩,mem,rfl⟩ := mem_map.mp written
  obtain ⟨pre,after,split⟩ := append_of_mem mem
  have occurs : literals prog externs decls.registry =
      (externs.elim [] fun e => GradualJs.literals decls.registry.scope []
        (statementNodes e.statements)) ++ pre ++ (fn,scope) :: after := by
    rw [literals,split,append_assoc]
  rw [split] at distinct
  obtain ⟨decl,early,declared,errors,found,-,resolved,params,-⟩ :=
    collect_signed collected occurs fun later inAfter eq => by
      simp only [map_append,map_cons,nodup_append,nodup_cons,mem_map,not_exists] at distinct
      exact distinct.2.1.1 later.1 ⟨⟨later,inAfter,rfl⟩,eq⟩
  obtain ⟨ordered,means⟩ := Resolver.params_of_signature resolved
  rw [← params] at ordered means
  exact ⟨decl,found,by simpa using means.length_eq.symm,ordered⟩

namespace Flow

variable {r : Registry} {state after : FlowState} {fn : FunctionLiteral} {summary : FunctionSummary}

/-- The summary has the declared signature with inferred types filled in, and some result. -/
def Summarizes (r : Registry) (fn : FunctionLiteral) (summary : FunctionSummary) : Prop :=
  let s := ((r.function? fn.id).map (·.signature)).getD {}
  ∃ inferred l returns live returned, returnType l s returns live = some returned ∧
    summary.function = { (s.filled fn inferred).toFunctionType with returnType := returned}

lemma step_summaries (ran : step r options tree state scope = some after) :
    after.summaries = state.summaries ∨ ∃ fn summary, (tree.scope scope).function = some fn ∧
      Summarizes r fn summary ∧ after.summaries = state.summaries.insert fn.id summary := by
  unfold step at ran
  split at ran
  · obtain ⟨_,-,eq⟩ := Option.bind_eq_some_iff.mp ran
    cases eq
    exact .inl rfl
  · rename_i fn isLiteral
    obtain ⟨inferred,-,ran⟩ := Option.bind_eq_some_iff.mp ran
    obtain ⟨entry,-,ran⟩ := Option.bind_eq_some_iff.mp ran
    obtain ⟨⟨env,walked⟩,-,ran⟩ := Option.bind_eq_some_iff.mp ran
    obtain ⟨returned,returning,eq⟩ := Option.bind_eq_some_iff.mp ran
    cases eq
    refine .inr ⟨fn,_,isLiteral,⟨inferred,_,_,_,returned,returning,?_⟩,rfl⟩
    simp [Signature.toFunctionType,formalTypes,Signature.paramTypes,Signature.filled,filter_map, Function.comp_def]

def Summarized (r : Registry) (p : Program) (state : FlowState) : Prop :=
  ∀ id summary, state.summaries.get? id = some summary → ∃ fn ∈ p.literals, fn.id = id ∧ Summarizes r fn summary

lemma analyze_summarized (followed : analyze r options p = some state) : Summarized r p state := by
  obtain ⟨⟨_,opened⟩,divided,ran⟩ := Option.bind_eq_some_iff.mp followed
  have start : Summarized r p {diagnostics := opened.diagnostics} := by intro _ _ absent; cases absent
  refine Lifting.runs.foldlM (f := fun _ => step r options ⟨opened.scopes⟩) start
    (fun scope _ pre held after ran id summary has => ?_) state ran
  rcases step_summaries ran with eq | ⟨fn,made,isLiteral,summarizes,eq⟩
  · exact held id summary (eq ▸ has)
  · rw [eq,Table.get?_insert] at has
    split at has
    · cases has
      exact ⟨fn,(Scoping.divides_ofProgram divided).mem_literals isLiteral,‹_›,summarizes⟩
    · exact held id summary has

end Flow

/-- Each function is summarized with all that its comment declares; one that is declared completely
has its declared type as a value and in calls, whether or not it was summarized before. -/
theorem summary_keeps_declared {prog : Program} {externs : Option Program} {options : Options}
    {declared : Declarations} {flow : FlowState}
    (collected : Declarations.collect prog externs options.legacyCompatibility = some declared)
    (distinct : (prog.literals.map (·.id)).Nodup)
    (followed : analyze declared.registry options prog = some flow)
    (fn : FunctionLiteral) (written : fn ∈ prog.literals) :
    ∃ decl summary, declared.registry.function? fn.id = some decl ∧
      flow.summaries.get? fn.id = some summary ∧ decl.signature.KeptBy summary.function ∧
      ∀ c : WalkContext, c.registry = declared.registry →
        (c.summaries.get? fn.id).elim True (· = summary) → decl.signature.isComplete = true →
        c.functionValue fn.id = .function decl.signature.toFunctionType ∧
        c.target decl.signature.toFunctionType (some fn.id) = .now decl.signature.toFunctionType := by
  obtain ⟨decl,found,lengths,ordered⟩ := Declarations.collect_formals collected distinct written
  obtain ⟨-,-,keys⟩ := analyze_summaries followed
  obtain ⟨summary,has⟩ := Option.isSome_iff_exists.mp
    (Table.isSome_lookup.mpr ((keys fn.id).mpr (mem_map_of_mem written)))
  obtain ⟨other,own,number,summarizes⟩ := analyze_summarized followed _ _ has
  cases inj_on_of_nodup_map distinct own written number
  obtain ⟨inferred,l,returns,live,returned,returning,function⟩ := summarizes
  rw [found,Option.map_some] at returning function
  have kept := function ▸ Signature.keptBy_filled lengths ordered returning
  refine ⟨decl,summary,found,has,kept,fun c registry known complete => ?_⟩
  rw [WalkContext.functionValue,WalkContext.target,registry]
  cases pre : c.summaries.get? fn.id with
  | none => simp [found,complete,Registry.literalType]
  | some earlier =>
    rw [pre,Option.elim_some] at known
    simp [known,kept.complete complete]

/-- A function with formals of several kinds. -/
def mixing : Program :=
  ⟨[.function ⟨"mix",{}⟩ ⟨0,none,[⟨"a",{}⟩,⟨"b",{}⟩,⟨"c",{}⟩,⟨"d",{}⟩],⟨[],{}⟩,some Resolver.mixed,false,{}⟩]⟩

def mixingDeclared : Declarations := (Declarations.collect mixing none false).get (by decide +kernel)
def mixingFlow : FlowState := (analyze mixingDeclared.registry {} mixing).get (by decide +kernel)

theorem summary_keeps_declared_mixed : Declarations.collect mixing none false = some mixingDeclared ∧
    analyze mixingDeclared.registry {} mixing = some mixingFlow ∧
    ∃ decl summary, mixingDeclared.registry.function? 0 = some decl ∧
      mixingFlow.summaries.get? 0 = some summary ∧ decl.signature.KeptBy summary.function := by
  have collected : Declarations.collect mixing none false = some mixingDeclared := (Option.some_get _).symm
  have followed : analyze mixingDeclared.registry {} mixing = some mixingFlow := (Option.some_get _).symm
  obtain ⟨decl,summary,found,has,kept,-⟩ := @summary_keeps_declared mixing none {} mixingDeclared
    mixingFlow collected (by decide) followed _ mem_cons_self
  exact ⟨collected,followed,decl,summary,found,has,kept⟩

end GradualJs
