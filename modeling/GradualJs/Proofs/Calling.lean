import GradualJs.Proofs.Call
import GradualJs.Proofs.Lattice.Normal

/-! A call is checked as a function is compared with the function of its arguments: their number and
each argument in its place. -/
namespace GradualJs

open Reporting

variable {r : Registry} {l : Lattice} {site : CallSite} {f : FunctionType} {args : List Ty}

namespace Registry

/-- The rules where nothing is compared by structure under a name. A join that does not come to an
end may be anything. -/
def nameless (r : Registry) : Premises where
  lax := false
  joins a b t := ∀ joined, r.Joins a b joined → t = joined
  fits a b := r.Fits false a b ∨ r.Tame a ∧ r.Wider false a b
  resembles _ _ := False

namespace Recordless

variable (recordless : r.Recordless)
include recordless

lemma nameless_fits (held : r.nameless.fits a b) : r.nameless.TypeFits r a b := by
  rcases held with fits | ⟨tame,wider⟩
  · have implies : Premises.Implies r (r.unfolded false (r.Fits false)) r.nameless :=
      ⟨id,fun _ _ _ joined _ => joined.unique,fun _ _ => .inl,fun _ tgt structural _ =>
        recordless tgt.id structural.record⟩
    exact implies.typeFits (fits_iff.mp fits)
  · refine tame.typeFits (fun t tame => .inr ⟨tame,.refl t⟩) (fun t tame unchanged => ?_) (fun _ _ => .inl) wider
    by_cases ends : ∃ joined, r.Joins t .undefined joined
    · obtain ⟨joined,joins⟩ := ends
      have backed : r.Backed := fun _ _ _ _ => recordless.fits
      exact ⟨joined,fun _ => joins.unique,.inr ⟨tame,unchanged.wider_joined backed false joins⟩⟩
    · exact ⟨t,fun joined joins => absurd ⟨joined,joins⟩ ends,.inr ⟨tame,.refl t⟩⟩

/-- Whatever the depth, a question that the rules allow is answered with yes. -/
lemma isSubtype_of_nameless (held : r.nameless.TypeFits r a b)
    (returned : Lattice.isSubtype ⟨r,false,depth⟩ a b = some ans) : ans = true := by
  obtain ⟨table,ends⟩ := answers_iff.mp ⟨depth,returned⟩
  have covers : r.Covers r.nameless :=
    ⟨fun _ _ t _ ended joined => joined t ended,fun _ tgt record => absurd record (recordless tgt.id)⟩
  exact covers.never_refused (fun _ _ => recordless.nameless_fits) ends held

end Recordless

end Registry

namespace Reporting

variable {α β : Type}

/-- A run that ends adds reports. It adds none only if the first holds, and none if the second
holds. -/
def Speaks (x : Reporting α) (sure possible : Prop) : Prop :=
  ∀ s a s', x.run s = some (a,s') → ∃ added, s' = s ++ added ∧ (added = [] → sure) ∧ (possible → added = [])

lemma Speaks.pure (a : α) : Speaks (Pure.pure a) True True := by
  intro s _ _ ran
  cases ran
  exact ⟨[],by simp⟩

lemma Speaks.bind {f : α → Reporting β} (first : Speaks x sure possible)
    (next : ∀ a, Speaks (f a) sure' possible') : Speaks (x >>= f) (sure ∧ sure') (possible ∧ possible') := by
  intro s b s' ran
  obtain ⟨a,mid,pre,after⟩ := run_bind_iff.mp ran
  obtain ⟨added,rfl,only,none⟩ := first _ _ _ pre
  obtain ⟨more,rfl,only',none'⟩ := next a _ _ _ after
  refine ⟨added ++ more,List.append_assoc _ _ _,fun silent => ?_,fun held => ?_⟩
  · obtain ⟨rfl,rfl⟩ := List.append_eq_nil_iff.mp silent
    exact ⟨only rfl,only' rfl⟩
  · simp [none held.1,none' held.2]

lemma Speaks.forM {f : α → Reporting PUnit} {sure possible : α → Prop}
    (each : ∀ a, Speaks (f a) (sure a) (possible a)) (list : List α) :
    Speaks (list.forM f) (∀ a ∈ list, sure a) (∀ a ∈ list, possible a) := by
  induction list with
  | nil => simpa using Speaks.pure PUnit.unit
  | cons a rest ih => simpa using (each a).bind fun _ => ih

end Reporting

namespace CallSite

lemma speaks_checkArity (strict : site.legacyMinArity = none) (count : Nat) :
    Speaks (site.checkArity f count) (accepts (f.minArity,f.maxArity) count)
      (accepts (f.minArity,f.maxArity) count) := by
  intro s a s' ran
  have eq : site.arity f = (f.minArity,f.maxArity) := by simp [arity,strict]
  simp only [checkArity,eq] at ran
  split at ran
  · rename_i accepted
    cases ran
    exact ⟨[],by simp [accepted]⟩
  · rename_i refused
    cases ran
    exact ⟨_,rfl,by simp,fun accepted => absurd accepted refused⟩

lemma speaks_checkArgument (index : Nat) (arg param : Ty) :
    Speaks (site.checkArgument l index arg param) (l.isSubtype arg param = some true)
      (l.isSubtype arg param ≠ some false) := by
  intro s a s' ran
  obtain ⟨fits,mid,asked,ran⟩ := run_bind_iff.mp ran
  obtain ⟨ans,returned,eq⟩ := Option.bind_eq_some_iff.mp asked
  cases eq
  cases fits with
  | true =>
    cases ran
    exact ⟨[],by simp [returned]⟩
  | false =>
    obtain ⟨message,_,explained,ran⟩ := run_bind_iff.mp ran
    obtain ⟨_,_,eq⟩ := Option.bind_eq_some_iff.mp explained
    cases eq
    cases ran
    exact ⟨_,rfl,by simp,fun notFalse => absurd returned notFalse⟩

end CallSite

namespace FunctionType

/-- The function that takes just the arguments. -/
def taking (args : List Ty) (returnType : Ty) : FunctionType where
  required := args
  returnType := returnType

lemma param_taking (args : List Ty) (returnType : Ty) (index : Nat) :
    (taking args returnType).param index = args[index]? := by
  simp only [param,taking,positional,List.append_nil]
  cases args[index]? <;> rfl

lemma mem_pairings : (index,arg,type) ∈ f.pairings args ↔ args[index]? = some arg ∧ f.param index = some type := by
  simp [pairings,List.mem_zipIdx_iff_getElem?]

lemma arityFits_taking {returnType : Ty} : Relations.arityFits f (taking args returnType) =
      CallSite.accepts (f.minArity,f.maxArity) args.length := by
  have bounds : (taking args returnType).maxArity = some args.length := rfl
  rw [Relations.arityFits,CallSite.accepts,bounds]
  cases f.maxArity <;> rfl

/-- A function fits the function of its arguments if their number is accepted and each fits its
formal. -/
lemma fits_taking {p : Premises} (monotone : p.lax = false) (plain : f.receiver = none)
    (called : f.constructs = none) {returnType : Ty} : p.PlainFunctionFits f (taking args returnType) ↔
      CallSite.accepts (f.minArity,f.maxArity) args.length = true ∧
        (∀ pairing ∈ f.pairings args, p.fits pairing.2.1 pairing.2.2) ∧
        p.fits f.returnType returnType := by
  constructor
  · intro held
    refine ⟨arityFits_taking ▸ held.arity,?_,held.returnType⟩
    rintro ⟨index,arg,type⟩ mem
    obtain ⟨given,formal⟩ := mem_pairings.mp mem
    have bound : index < args.length := (List.getElem?_eq_some_iff.mp given).1
    have fits := held.params index (Nat.lt_of_lt_of_le bound (Nat.le_max_right _ _))
    rw [param_taking,given,formal] at fits
    exact fits.resolve_right (by simp [monotone])
  · rintro ⟨arity,params,returned⟩
    refine ⟨?_,arityFits_taking.trans arity,fun index _ => ?_,?_,?_,returned⟩
    · rw [called]
      trivial
    · rw [param_taking]
      cases formal : f.param index with
      | none => trivial
      | some type =>
        cases given : args[index]? with
        | none => trivial
        | some arg => exact .inl (params _ (mem_pairings.mpr ⟨given,formal⟩))
    · cases f.rest <;> trivial
    · rw [plain]
      trivial

end FunctionType

namespace CallSite

lemma speaks_check (strict : f.loose = false) (closed : f.typeParams = [])
    (plain : f.receiver = none) (exact : site.legacyMinArity = none) :
    Speaks (site.check l f args recv) (accepts (f.minArity,f.maxArity) args.length = true ∧
        ∀ pairing ∈ f.pairings args, l.isSubtype pairing.2.1 pairing.2.2 = some true)
      (accepts (f.minArity,f.maxArity) args.length = true ∧
        ∀ pairing ∈ f.pairings args, l.isSubtype pairing.2.1 pairing.2.2 ≠ some false) := by
  have pairings := Speaks.forM (fun pairing : Nat × Ty × Ty =>
    @speaks_checkArgument l site pairing.1 pairing.2.1 pairing.2.2) (f.pairings args)
  have unchecked : site.checkReceiver l f recv = Pure.pure () := by
    simp [checkReceiver,plain]
  have steps : site.check l f args recv = site.checkArity f args.length >>= fun _ =>
      (f.pairings args).forM (fun pairing =>
        site.checkArgument l pairing.1 pairing.2.1 pairing.2.2) >>= fun _ =>
      Pure.pure (if site.isNew then f.constructs.getD .unknown else f.returnType) := by
    simp [check,strict,FunctionType.isGeneric,closed,unchecked]
  rw [steps]
  refine (speaks_checkArity exact _).bind fun _ => ?_
  simpa only [and_true] using pairings.bind fun _ => .pure _

/-- A call is silent exactly if the callee fits where the function of its arguments is expected. -/
theorem check_silent_iff (recordless : r.Recordless) (strict : f.loose = false)
    (closed : f.typeParams = []) (plain : f.receiver = none) (called : f.constructs = none)
    (normal : r.Normal f.returnType) (exact : site.legacyMinArity = none) {depth level : Nat}
    {pre after : List Diagnostic} {ans : Bool}
    (ran : (site.check ⟨r,false,depth⟩ f args recv).run pre = some (t,after))
    (asked : Lattice.isSubtype ⟨r,false,level⟩ (.function f)
      (.function (.taking args f.returnType)) = some ans) : after = pre ↔ ans = true := by
  have erased : f.eraseTypeParams = f := by simp [FunctionType.eraseTypeParams,closed]
  obtain ⟨added,rfl,only,none⟩ := speaks_check strict closed plain exact _ _ _ ran
  rw [List.append_right_eq_self]
  constructor
  · intro silent
    obtain ⟨accepted,granted⟩ := only silent
    have fits : r.nameless.PlainFunctionFits f (.taking args f.returnType) := by
      refine (FunctionType.fits_taking rfl plain called).mpr ⟨accepted,fun pairing mem => ?_,?_⟩
      · obtain ⟨table,ends⟩ := Registry.answers_iff.mp ⟨depth,granted pairing mem⟩
        exact .inl (recordless.fits ends)
      · exact .inr ⟨normal.tame,.refl _⟩
    have held : r.nameless.ObjectFits r (.function f) (.function (.taking args f.returnType)) :=
      .inr (erased.symm ▸ fits)
    exact recordless.isSubtype_of_nameless (Premises.typeFits_object.mpr held) asked
  · rintro rfl
    obtain ⟨table,ends⟩ := Registry.answers_iff.mp ⟨level,asked⟩
    have fits := (Registry.fits_object.mp (recordless.fits ends)).resolve_left (by simp [strict,FunctionType.taking])
    rw [erased] at fits
    obtain ⟨accepted,params,-⟩ := (FunctionType.fits_taking rfl plain called).mp fits
    refine none ⟨accepted,fun pairing mem refused => ?_⟩
    cases (params pairing mem).isSubtype refused

def tally : FunctionType where
  required := [.number]
  rest := some .string
  returnType := .number

/-- The last argument of the call is no string. -/
theorem check_silent_tally : ∃ after ans,
    (check ⟨{}, "tally",[],false,none⟩ ⟨.initial,false,3⟩ tally [.number,.string,.number]
      none).run [] = some (.number,after) ∧ Lattice.isSubtype ⟨.initial,false,3⟩ (.function tally)
      (.function (.taking [.number,.string,.number] tally.returnType)) = some ans ∧
    (after = [] ↔ ans = true) := by
  have recordless : Registry.initial.Recordless := by
    intro id
    by_cases declared : id ∈ Registry.initial.nominalIds
    · revert id
      decide
    · simp [Registry.nominal_of_notMem declared]
  have normal : Registry.initial.Normal (.primitive .numberOnly) := Registry.normal_primitive (by decide)
  obtain ⟨after,ran⟩ : ∃ after, (check ⟨{}, "tally",[],false,none⟩ ⟨.initial,false,3⟩ tally
      [.number,.string,.number] none).run [] = some (.number,after) := ⟨_,rfl⟩
  obtain ⟨ans,asked⟩ : ∃ ans, Lattice.isSubtype ⟨.initial,false,3⟩ (.function tally)
      (.function (.taking [.number,.string,.number] tally.returnType)) = some ans := ⟨_,rfl⟩
  exact ⟨after,ans,ran,asked,check_silent_iff recordless rfl rfl rfl rfl normal rfl ran asked⟩

end CallSite
end GradualJs
