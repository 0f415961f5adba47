import GradualJs.Proofs.Flow.Tracking

/-! What is known behind an expression describes what some path through it has stored, and every
call of the variable that is met on the way reads what is known there. -/
namespace GradualJs

open Walk Paths CallPoint

variable {name : String} {type : Ty} {span : Span} {id : Identifier} {env : Env}

namespace Binding

variable {c : WalkContext} (b : Binding c)

/-- A call of the variable reads what is known before it. At the call in question that is what
is left of the literal. -/
def Expects (m : MetCall) : Prop :=
  m.name = some b.name → m.callee = ⟨b.read m.env,none,b.decl.function⟩ ∧
    (m.span = b.span → m.isNew = false → m.env.live = true → m.env.HoldsOnly b.name b.type)

/-- Nothing is sent elsewhere, and the calls that are met are as expected. -/
structure Calm (s s' : WalkState) : Prop where
  jumps : s'.jumps = s.jumps
  tryFrames : s'.tryFrames = s.tryFrames
  tried : s'.tried = s.tried
  calls : ∃ met, s'.calls = s.calls ++ met ∧ ∀ m ∈ met, b.Expects m

variable {b}

lemma Calm.of_same {s s' : WalkState} (jumps : s'.jumps = s.jumps)
    (tryFrames : s'.tryFrames = s.tryFrames) (tried : s'.tried = s.tried) (calls : s'.calls = s.calls) :
    b.Calm s s' :=
  ⟨jumps,tryFrames,tried,[],by simpa using calls,nofun⟩

instance : Frame b.Calm where
  refl _ := .of_same rfl rfl rfl rfl
  trans first second := by
    obtain ⟨met,calls,wanted⟩ := first.calls
    obtain ⟨met',calls',wanted'⟩ := second.calls
    refine ⟨second.jumps.trans first.jumps,second.tryFrames.trans first.tryFrames,
      second.tried.trans first.tried,met ++ met',by rw [calls',calls,List.append_assoc],?_⟩
    exact List.forall_mem_append.mpr ⟨wanted,wanted'⟩
  reported _ _ _ := .of_same rfl rfl rfl rfl
  muted moved := ⟨moved.jumps,moved.tryFrames,moved.tried,moved.calls⟩

instance : Deferring c b.Calm where
  resolved _ _ _ := .of_same rfl rfl rfl rfl
  deferred _ _ _ _ := .of_same rfl rfl rfl rfl

section Actions

variable {α : Type} {env : Env}

lemma yields_visiting (walks : Yields b.Calm (walk env) post) : Yields b.Calm (visiting left walk env) post := by
  have noted (f : List Env → List Env) :
      Yields b.Calm (modify fun s => {s with visited := f s.visited}) fun _ => True := by
    have := Moves.of_modify (R := b.Calm) (f := fun s => {s with visited := f s.visited})
      fun s => .of_same rfl rfl rfl rfl
    exact .of_moves _
  exact (noted (env :: ·)).bind fun _ _ => walks.bind fun a held =>
    (noted (left a ++ ·)).bind fun _ _ => .pure held

lemma yields_meet (wanted : b.Expects m) : Yields b.Calm (meet m) fun _ => True := by
  intro s _ _ ran
  cases ran
  exact ⟨⟨rfl,rfl,rfl,[m],rfl,by simpa using wanted⟩,trivial⟩

lemma yields_join (left : b.Tracks values env) (right : b.Tracks values other) :
    Yields b.Calm (join c env other) (b.Tracks values) :=
  (Yields.ask _).mono fun _ ended => left.join right ended

lemma yields_writeLocal : Yields b.Calm (writeLocal c env name t) fun left => left = env.set name t :=
  .writeLocal fun _ _ => .of_same rfl rfl rfl rfl

lemma yields_checkStored : Yields b.Calm (checkStored c what value wanted span) fun fits =>
      c.lattice.isSubtype value wanted = some fits := by
  refine (Yields.ask _).bind fun fits ans => ?_
  cases fits with
  | true => exact .pure ans
  | false => exact .moves_then fun _ => .pure ans

/-- The variable gets a value. The type of the literal fits, so it is kept. -/
lemma yields_assignLocal (tracks : b.Tracks (fun _ => values v) env) (typed : v = .literal b.literal → value = b.type) :
    Yields b.Calm (assignLocal c env b.name b.decl value span declaring) (b.Tracks values) := by
  have stores {t : Ty} (typed : v = .literal b.literal → t = b.type) :
      Yields b.Calm (writeLocal c env b.name t) (b.Tracks values) :=
    yields_writeLocal.mono fun _ eq => eq ▸ tracks.store typed
  unfold assignLocal
  dsimp only
  refine .guarded ?_
  split
  · rename_i declared isDeclared
    refine yields_checkStored.bind fun fits ans => ?_
    refine stores fun isLiteral => ?_
    obtain ⟨f,isFunction,-⟩ := b.exists_type_eq
    have fitting : fits = true := by
      have := b.fits declared isDeclared
      rw [typed isLiteral] at ans
      exact Option.some.inj (ans.symm.trans this)
    rw [typed isLiteral,isFunction,fitting]
    rfl
  · exact stores typed

lemma yields_assignLocal_other (other : name ≠ b.name) (tracks : b.Tracks values env) :
    Yields b.Calm (assignLocal c env name l value span declaring) (b.Tracks values) := by
  have stores (t : Ty) : Yields b.Calm (writeLocal c env name t) (b.Tracks values) :=
    yields_writeLocal.mono fun _ eq => eq ▸ tracks.set other
  unfold assignLocal
  dsimp only
  refine .guarded ?_
  split
  · exact .moves_then fun _ => .moves_then fun _ => stores _
  · exact .moves_then fun _ => stores _

lemma yields_assignName (tracks : b.Tracks ((b.storing id.name v).Sure b.literal fun _ => values) env)
    (typed : v = .literal b.literal → value = b.type) :
    Yields b.Calm (assignName c id value span env) (b.Tracks values) := by
  by_cases eq : id.name = b.name
  · rw [storing,if_pos eq,sure_store] at tracks
    have own := b.own
    rw [← eq] at own
    rw [assignName,own]
    simp only [WalkContext.isOwn,decide_true,if_true]
    rw [eq]
    exact yields_assignLocal tracks typed
  · rw [storing,if_neg eq,sure_pure] at tracks
    obtain ⟨_,_,-,-,is⟩ | ⟨check,moves,is⟩ := Moves.assignName_cases c id value span env
    · exact is ▸ yields_assignLocal_other eq tracks
    · have := moves b.Calm
      exact is ▸ .moves_then fun _ => .pure tracks

end Actions

section Properties

variable {env : Env}

lemma tracks_extendRecord (tracks : b.Tracks values env) (known : path = b.name → object = b.read env) :
    b.Tracks values (extendRecord object path prop stored env) := by
  unfold extendRecord
  split
  · exact tracks
  · split
    · rename_i r only
      split
      · refine tracks.refine fun eq held => ?_
        obtain ⟨f,isFunction,-⟩ := b.exists_type_eq
        have left := leftOf_read held
        rw [← known eq,isFunction] at left
        rcases left with rfl | rfl
        · cases only
        · cases only
      · exact tracks
    · exact tracks

lemma yields_writeProperty (tracks : b.Tracks values env) (known : path = some b.name → object = b.read env) :
    Yields b.Calm (writeProperty c object path prop value span env) (b.Tracks values) := by
  refine Yields.writeProperty.mono ?_
  rintro _ ⟨stored,rfl⟩
  cases path with
  | none => exact tracks
  | some path =>
    exact (tracks_extendRecord tracks fun eq => known (eq ▸ rfl)).set (Name.property_ne b.undotted path prop)

end Properties

lemma leftOf_of_narrows (of : b.type.LeftOf t) (narrows : Narrows c t left) : b.type.LeftOf left := by
  obtain ⟨f,isFunction,-⟩ := b.exists_type_eq
  rw [isFunction] at of ⊢
  cases narrows with
  | keep => exact of
  | truthy => exact of.truthy
  | falsy => exact of.falsy
  | typeof ended => exact of.narrowTypeof ended
  | specialize ended => exact of.specialize ended
  | exclude ended => exact of.exclude ended

lemma yields_readName : Yields b.Calm (readName c id env) fun t => id.name = b.name → t = b.read env := by
  by_cases eq : id.name = b.name
  · unfold readName
    rw [eq,b.own]
    exact .pure fun _ => by simp [WalkContext.isOwn,read]
  · exact (Yields.of_moves _).mono fun _ _ is => absurd is eq

lemma exists_tested {values : Stored → Prop} (tracks : b.Tracks values env) (reads : type = b.read env) :
    ∃ tested, b.Tracks (fun v => v = tested ∧ values v) env ∧ (tested = .literal b.literal → b.type.LeftOf type) := by
  by_cases live : env.live = true
  · obtain ⟨tested,stored,described⟩ := tracks live
    refine ⟨tested,fun _ => ⟨tested,⟨rfl,stored⟩,described⟩,fun isLiteral => ?_⟩
    exact reads ▸ leftOf_read (described isLiteral)
  · exact ⟨.other,.of_dead (Bool.eq_false_iff.mpr live),by simp⟩

lemma tracks_passed {values : Stored → Prop} (tracks : b.Tracks (fun _ => values .other) env)
    {left : Env} (eq : left.live = env.live) : b.Tracks values left := fun live => by
  obtain ⟨_,held,-⟩ := tracks (eq ▸ live)
  exact ⟨.other,held,by simp⟩

lemma tracks_tested {values : Stored → Prop}
    (tracks : b.Tracks (fun v => values tested ∧ values v) env)
    (kept : tested = .literal b.literal → b.type.LeftOf ifFalse) :
    b.Tracks values (env.refine b.name ifFalse) := fun live => by
  obtain ⟨_,held,-⟩ := tracks live
  exact ⟨tested,held.1,fun isLiteral => ⟨ifFalse,Env.get?_refine_self _ _ _,kept isLiteral⟩⟩

/-- What is known of the literal in every role of an expression. -/
def simulator (b : Binding c) : Simulator c where
  toCallPoint := b.toCallPoint
  toWalking := .between b.Calm
  literal := b.literal
  Tracks := b.Tracks
  Typed v type := v = .literal b.literal → type = b.type
  Knows path type env := path = b.name → type = b.read env
  Calls label callee env := label = some b.name → callee = ⟨b.read env,none,b.decl.function⟩
  Leaves tested type := tested = .literal b.literal → b.type.LeftOf type
  harmless _ := True
  undotted := b.undotted
  notThis := b.notThis
  walks_meet called held := yields_meet fun named => ⟨called named,fun placed plain live => by
    obtain ⟨_,stored,described⟩ := held named placed plain live
    exact described stored⟩
  visiting _ walks _ := yields_visiting walks
  mono implies tracks := tracks.mono implies
  typed_other _ := by simp
  typed_function id isLiteral := by rw [Binding.type,← Stored.literal.inj isLiteral]
  this _ _ eq := absurd eq.symm b.notThis
  dotted path prop := ⟨trivial,fun _ _ eq => absurd eq (Name.property_ne b.undotted path prop)⟩
  calls_other other eq := absurd eq other
  calls_name {id type env} known named := by
    obtain rfl : id = b.name := Option.some.inj named
    rw [known rfl,WalkContext.functionNamed,b.own]
  join := yields_join
  readName _ := yields_readName
  assignName := yields_assignName
  writeProperty tracks known := yields_writeProperty tracks fun isPath => known b.name isPath rfl
  narrow _ known narrows tracks := tracks.refine fun eq held =>
    leftOf_of_narrows (known eq ▸ leftOf_read held) narrows
  elsewhere other _ tracks := tracks.refine fun eq => absurd eq other
  passed tracks := tracks_passed tracks rfl
  pinned tracks known := exists_tested tracks (known rfl)
  tested _ tracks leaves excluded :=
    ⟨tracks_passed (tracks.mono fun _ => And.left) rfl,tracks_tested (tracks.mono fun _ => And.right)
      fun isLiteral => leftOf_of_narrows (leaves isLiteral) (.exclude excluded)⟩

end Binding
end GradualJs
