import GradualJs.Declarations
import GradualJs.Proofs.Suppression.Syntax

/-! Collecting the declarations of a program without suppressions gives what collecting those of
the program gives, without suppressions. -/
namespace GradualJs

open JsDoc

def NominalSource.loud : NominalSource → NominalSource
  | .function fn => .function fn.loud
  | .classDecl declaration => .classDecl declaration.loud

def NominalSite.loud (site : NominalSite) : NominalSite :=
  {site with jsdoc := site.jsdoc.map JsDoc.loud, source := site.source.loud}

def EnumSite.loud (site : EnumSite) : EnumSite :=
  {site with
    jsdoc := site.jsdoc.loud
    initializer := site.initializer.map Expression.loud}

def MemberValue.loud : MemberValue → MemberValue
  | .stub => .stub
  | .expression value => .expression value.loud
  | .function fn => .function fn.loud

def MemberSite.loud (site : MemberSite) : MemberSite :=
  {site with jsdoc := site.jsdoc.map JsDoc.loud, value := site.value.loud}

def GlobalValue.loud : GlobalValue → GlobalValue
  | .function fn => .function fn.loud
  | .binding kind initializer => .binding kind (initializer.map Expression.loud)

def GlobalSite.loud (site : GlobalSite) : GlobalSite :=
  {site with jsdoc := site.jsdoc.map JsDoc.loud, value := site.value.loud}

def Collection.loud (c : Collection) : Collection :=
  {c with
    nominals := c.nominals.map NominalSite.loud
    enums := c.enums.map EnumSite.loud
    members := c.members.map MemberSite.loud
    globals := c.globals.map GlobalSite.loud}

@[simp] lemma Collection.registry_loud (c : Collection) : c.loud.registry = c.registry := rfl

@[simp] lemma Collection.constructors_loud (c : Collection) : c.loud.constructors = c.constructors := rfl

@[simp] lemma Collection.methodOwners_loud (c : Collection) : c.loud.methodOwners = c.methodOwners := rfl

section Mirrors

variable {m : Type → Type} [Monad m] {α β : Type}

/-- The second computation does without suppressions what the first one does. -/
def Mirrors (x y : StateT Collection m α) : Prop := ∀ c, y.run c.loud = (fun res => (res.1,res.2.loud)) <$> x.run c

abbrev Blind (x : StateT Collection m α) : Prop := Mirrors x x

lemma Mirrors.ite {_ : Decidable p} {_ : Decidable q}
    {x y x' y' : StateT Collection m α} (eq : p ↔ q) (holds : Mirrors x y) (fails : Mirrors x' y') :
    Mirrors (if p then x else x') (if q then y else y') := by
  by_cases holding : p
  · rwa [if_pos holding,if_pos (eq.mp holding)]
  · rwa [if_neg holding,if_neg (mt eq.mpr holding)]

variable [LawfulMonad m]

lemma Mirrors.pure (a : α) : Mirrors (m := m) (Pure.pure a) (Pure.pure a) := by
  intro c
  simp

lemma Mirrors.bind {f g : α → StateT Collection m β}
    (first : Mirrors x y) (next : ∀ a, Mirrors (f a) (g a)) : Mirrors (x >>= f) (y >>= g) := by
  intro c
  simp only [StateT.run_bind,first c,bind_map_left,map_bind]
  exact bind_congr fun res => next res.1 res.2

lemma Mirrors.get_bind {f g : Collection → StateT Collection m α}
    (next : ∀ c, Mirrors (f c) (g c.loud)) : Mirrors (get >>= f) (get >>= g) := by
  intro c
  simpa only [StateT.run_bind,StateT.run_get,pure_bind] using next c c

lemma mirrors_modify (mirrors : ∀ c, g c.loud = (f c).loud) : Mirrors (m := m) (modify f) (modify g) := by
  intro c
  simp only [StateT.run_modify,mirrors c,map_pure]

lemma Mirrors.forM {g : β → StateT Collection m PUnit} {list : List α} (each : ∀ a, Mirrors (f a) (g (mirrored a))) :
    Mirrors (list.forM f) ((list.map mirrored).forM g) := by
  induction list with
  | nil => exact .pure _
  | cons a rest ih => exact (each a).bind fun _ => ih

lemma Mirrors.map {x y : StateT Collection m α} (mirrors : Mirrors x y) (f : α → β) : Mirrors (f <$> x) (f <$> y) := by
  simp only [← bind_pure_comp]
  exact mirrors.bind fun a => .pure _

end Mirrors

namespace Registering

variable {α : Type}

lemma blind_add (addition : Registry → α × Registry) : Blind (add addition) := fun _ => rfl
lemma blind_change (f : Registry → Registry) : Blind (change f) := mirrors_modify fun _ => rfl

lemma blind_report (kind : DiagnosticKind) (message : String) (span : Span) : Blind (report kind message span) :=
  mirrors_modify fun _ => rfl

lemma mirrors_addMember (site : MemberSite) :
    Mirrors (modify (·.addMember site) : Registering Unit) (modify (·.addMember site.loud)) :=
  mirrors_modify fun c => by simp [Collection.addMember,Collection.loud]

lemma blind_ensureNamespace (span : Span) (segments : List String) : Blind (ensureNamespace span segments) := by
  induction segments with
  | nil => exact .pure _
  | cons last parents ih =>
    refine .get_bind fun c => ?_
    dsimp only [Collection.registry_loud]
    split
    · exact .pure _
    · exact .pure _
    · exact .pure _
    · refine ih.bind fun parent => (blind_add _).bind fun id => ?_
      exact (blind_change _).bind fun _ => .pure _

variable (name : String)

lemma blind_attach (member : Member) (span : Span) : Blind (attach name member span) := by
  unfold attach
  split
  · exact .pure _
  · exact (blind_ensureNamespace span _).bind fun _ => blind_change _

lemma mirrors_unlessTaken (span : Span) (mirrors : Mirrors register registered) :
    Mirrors (unlessTaken name span register) (unlessTaken name span registered) := by
  have asked : Blind (isTypeName name) := .get_bind fun _ => .pure _
  refine asked.bind fun taken => ?_
  split
  · exact (blind_report _ _ _).bind fun _ => .pure _
  · exact mirrors.map _

/-- Whether a property of `this` is meant is seen from the target alone. -/
lemma thisWrite?_loud (node : Node) : thisWrite? node.loud = (thisWrite? node).map fun (name,value,jsdoc,span) =>
      (name,value.map Expression.loud,jsdoc.map loud,span) := by
  rcases node with s | e | ⟨fn,inner⟩
  · cases s with
    | expression e jsdoc =>
      obtain ⟨span,kind⟩ := e
      cases kind with
      | member object property propertySpan =>
        obtain ⟨_,object⟩ := object
        cases object <;> rfl
      | assignment op tgt value =>
        obtain ⟨_,tgt⟩ := tgt
        cases op with
        | some _ => rfl
        | none =>
          cases tgt with
          | member object property propertySpan =>
            obtain ⟨_,object⟩ := object
            cases object <;> rfl
          | _ => rfl
      | _ => rfl
    | _ => rfl
  · rfl
  · rfl

lemma mirrors_constructorBody (owner : String) (fn : FunctionLiteral) (externs : Bool) :
    Mirrors (constructorBody owner fn externs) (constructorBody owner fn.loud externs) := by
  unfold constructorBody
  have writes : fn.loud.body.nodes.filterMap thisWrite? =
      (fn.body.nodes.filterMap thisWrite?).map fun (name,value,jsdoc,span) =>
        (name,value.map Expression.loud,jsdoc.map JsDoc.loud,span) := by
    rw [fn.body_loud,Block.nodes_loud,List.filterMap_map,List.map_filterMap]
    exact congrArg (List.filterMap · fn.body.nodes) (funext thisWrite?_loud)
  rw [writes,fn.id_loud]
  refine .forM fun (name,value,jsdoc,span) => ?_
  cases value with
  | none | some e => exact mirrors_addMember _

lemma defaultAccess_loud (source : NominalSource) (kind : NominalKind) :
    defaultAccess source.loud kind = defaultAccess source kind := by
  rcases source with _ | ⟨name,superclass,members,jsdoc,span⟩
  · cases kind <;> rfl
  · cases superclass <;> cases kind <;> rfl

lemma mirrors_nominal (kind : DeclarationKind) (jsdoc : Option JsDoc)
    (source : NominalSource) (span : Span) (externs : Bool) :
    Mirrors (nominal name kind jsdoc source span externs)
      (nominal name kind (jsdoc.map JsDoc.loud) source.loud span externs) := by
  refine mirrors_unlessTaken name span ?_
  have access : (jsdoc.map JsDoc.loud).bind (·.access) = jsdoc.bind (·.access) := by
    cases jsdoc <;> rfl
  have isAbstract : (jsdoc.map JsDoc.loud).map (·.isAbstract) = jsdoc.map (·.isAbstract) := by
    cases jsdoc <;> rfl
  have templates : (jsdoc.map JsDoc.loud).map (·.templates) = jsdoc.map (·.templates) := by
    cases jsdoc <;> rfl
  dsimp only
  rw [access,isAbstract,templates,defaultAccess_loud]
  refine (blind_add _).bind fun id => (blind_change _).bind fun _ => ?_
  refine .get_bind fun c => (blind_attach _ _ _).bind fun _ => ?_
  have filed (site : NominalSite) :
      Mirrors (modify fun c => {c with nominals := c.nominals ++ [site]} : Registering Unit)
        (modify fun c => {c with nominals := c.nominals ++ [site.loud]}) :=
    mirrors_modify fun c => by simp [Collection.loud]
  cases source with
  | function fn =>
    dsimp only [NominalSource.loud]
    rw [fn.id_loud]
    refine Mirrors.bind (mirrors_modify fun _ => rfl) fun _ => (mirrors_constructorBody _ _ _).bind fun _ => ?_
    exact (filed _).bind fun _ => .pure _
  | classDecl declaration =>
    exact (filed _).bind fun _ => .pure _

lemma mirrors_enumType (jsdoc : JsDoc) (initializer : Option Expression) (externs : Bool) (span : Span) :
    Mirrors (enumType name jsdoc initializer externs span)
      (enumType name jsdoc.loud (initializer.map Expression.loud) externs span) := by
  refine (mirrors_unlessTaken name span ?_).bind fun _ => .pure _
  refine (blind_add _).bind fun id => .get_bind fun c => (blind_attach _ _ _).bind fun _ => ?_
  exact mirrors_modify fun c => by simp [Collection.loud,EnumSite.loud]

lemma mirrors_typedef (jsdoc : JsDoc) (span : Span) :
    Mirrors (typedef name jsdoc span) (typedef name jsdoc.loud span) := by
  refine (mirrors_unlessTaken name span ?_).bind fun _ => .pure _
  exact (blind_add _).bind fun id => (blind_attach _ _ _).bind fun _ => mirrors_modify fun _ => rfl

lemma namespaceLiteral?_loud (jsdoc : Option JsDoc) (value : Expression) :
    namespaceLiteral? (jsdoc.map loud) value.loud = namespaceLiteral? jsdoc value := by
  obtain ⟨_,kind⟩ := value
  cases kind with
  | object properties => cases jsdoc <;> cases properties <;> rfl
  | _ => rfl

lemma blind_ensureLiteral (real : Bool) (span : Span) : Blind (ensureLiteral name real span) := by
  refine .get_bind fun c => ?_
  dsimp only [Collection.registry_loud]
  split
  · exact .pure _
  · exact (blind_add _).bind fun id => blind_attach _ _ _

lemma memberValue_loud (value : Expression) : memberValue value.loud = (memberValue value).loud := by
  obtain ⟨_,kind⟩ := value
  cases kind <;> rfl

lemma governingDoc_loud (declarators : List Declarator) (whole : Option JsDoc) : (d : Declarator) →
      d.loud.governingDoc (declarators.map Declarator.loud)
        (whole.map loud) = (d.governingDoc declarators whole).map loud
  | ⟨name,jsdoc,initializer⟩ => by
    cases jsdoc with
    | some doc => rfl
    | none =>
      simp only [Declarator.loud,Declarator.governingDoc,Option.map_none,List.length_map]
      split <;> rfl

end Registering
end GradualJs
