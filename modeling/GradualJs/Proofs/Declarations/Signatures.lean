import GradualJs.Proofs.Declarations.Members
import GradualJs.Proofs.Nodes
import GradualJs.Proofs.Registry.Bare

/-! Which signatures are stored. Each is resolved over the registry as it is when its function
literal is read: all types have their headings, and nothing has been written to a property. The last
literal with a number counts. -/
namespace GradualJs

open Collecting Registry

variable {α : Type} {externs : Bool} {fn : FunctionLiteral}

mutual
/-- The function literals in the nodes in the order in which they are read, each with the
template variables in scope inside it. -/
def literals (scope : List String → FunctionLiteral → List String) (around : List String) :
    List Node → List (FunctionLiteral × List String)
  | [] => []
  | node :: rest => literalsIn scope around node ++ literals scope around rest

def literalsIn (scope : List String → FunctionLiteral → List String) (around : List String) :
    Node → List (FunctionLiteral × List String)
  | .function fn inner =>
    (fn,scope around fn) :: literals scope (scope around fn) inner
  | .statement _ | .expression _ => []
end

mutual
lemma literals_fst (scope : List String → FunctionLiteral → List String) : (nodes : List Node) →
    (literals scope around nodes).map Prod.fst = Node.childFunctions (Node.deepList nodes)
  | [] => rfl
  | node :: rest => by
    rw [literals,List.map_append,literalsIn_fst scope node,literals_fst scope rest,Node.deepList, childFunctions_append]

lemma literalsIn_fst (scope : List String → FunctionLiteral → List String) :
    (node : Node) → (literalsIn scope around node).map Prod.fst = Node.childFunctions node.deep
  | .function fn inner => congrArg (fn :: ·) (literals_fst scope inner)
  | .statement _ | .expression _ => rfl
end

lemma Program.literals_eq (p : Program) (scope : List String → FunctionLiteral → List String) :
    p.literals = (GradualJs.literals scope [] (statementNodes p.statements)).map Prod.fst := by
  rw [literals_fst,Program.literals,statementLiterals_eq]

def literalsOf (scope : List String → FunctionLiteral → List String) (prog : Program)
    (externs : Option Program) : List (FunctionLiteral × List String) :=
  (externs.elim [] fun e => literals scope [] (statementNodes e.statements)) ++
    literals scope [] (statementNodes prog.statements)

/-- The functions that are not from the externs have such numbers. -/
def Registry.Own (own : Nat → Prop) (r : Registry) : Prop :=
  ∀ id decl, r.function? id = some decl → decl.fromExterns = false → own id

/-- The other registry has the same headings, and only the builtin properties. -/
structure Registry.Unfilled (r early : Registry) : Prop where
  bare : early.bare = r.bare
  unwritten : early.Unwritten

namespace Collection

def owner? (c : Collection) (id : Nat) : Option NominalId := (c.constructors.get? id).or (c.methodOwners.get? id)

/-- Template variables that a literal binds itself; a constructor has those of its type. -/
def ownTemplates (c : Collection) (fn : FunctionLiteral) : List String :=
  if (c.constructors.get? fn.id).isSome then []
  else Collecting.ownTemplates (Collecting.functionName c.registry fn (c.owner? fn.id)) fn

def scope (c : Collection) (around : List String) (fn : FunctionLiteral) : List String :=
  around ++ ((c.owner? fn.id).map fun o => (c.registry.nominal o).typeParams).getD [] ++ c.ownTemplates fn

/-- Apart from functions and constructors nothing has changed since the start, and nothing had
been written to a property. -/
structure Signing (start c : Collection) : Prop where
  constructors : c.constructors = start.constructors
  methodOwners : c.methodOwners = start.methodOwners
  unfilled : start.registry.Unfilled c.registry

/-- The declaration has the signature that the literal has over some registry of that time. -/
def SignedBy (start : Collection) (fn : FunctionLiteral) (scope : List String) (decl : FunctionDecl) : Prop :=
  ∃ early declared errors, start.registry.Unfilled early ∧
    ((early.resolver scope).signature fn.jsdoc fn.parameters).run [] = some (declared,errors) ∧
    decl.owner = start.owner? fn.id ∧
    decl.signature = ownedSignature early (start.owner? fn.id)
      (start.constructors.get? fn.id).isSome (start.ownTemplates fn) declared

/-- The literals that have been read are stored under their numbers, the last one with a number
under it. Those of the program have their own numbers. -/
structure Stored (start : Collection) (own : Nat → Prop) (done : List (FunctionLiteral × List String))
    (c : Collection) : Prop where
  signing : start.Signing c
  keys : start.registry.functions.AddsKeys (done.map (·.1.id)) c.registry.functions
  isOwn : c.registry.Own own
  signed : ∀ pre fn scope after, done = pre ++ (fn,scope) :: after → (∀ later ∈ after, later.1.id ≠ fn.id) →
    ∃ decl, c.registry.function? fn.id = some decl ∧ start.SignedBy fn scope decl

variable {start c : Collection}

lemma Signing.owner? (signing : start.Signing c) : c.owner? = start.owner? := by
  funext id
  rw [Collection.owner?,signing.constructors,signing.methodOwners,Collection.owner?]

lemma Signing.ownTemplates (signing : start.Signing c) : c.ownTemplates = start.ownTemplates := by
  funext fn
  have name (owner : Option NominalId) : Collecting.functionName c.registry fn owner =
      Collecting.functionName start.registry fn owner := by
    simp only [Collecting.functionName,name_of_bare signing.unfilled.bare]
  rw [Collection.ownTemplates,signing.constructors,signing.owner?,name,Collection.ownTemplates]

lemma Signing.scope (signing : start.Signing c) : c.scope = start.scope := by
  funext around fn
  simp only [Collection.scope,signing.owner?,signing.ownTemplates,typeParams_of_bare signing.unfilled.bare]

end Collection

namespace Collecting

variable {start c after : Collection}

lemma run_lenient {resolution : Resolver.Lenient α} (ran : (lenient resolution).run c = some (a,after)) :
    ∃ errors, resolution.run [] = some (a,errors) ∧
      after = {c with diagnostics := c.diagnostics ++ errors.map (·.toDiagnostic)} := by
  obtain ⟨⟨a',errors⟩,mid,asked,rest⟩ := run_bind_iff.mp ran
  obtain ⟨res,resolved,eq⟩ := Option.bind_eq_some_iff.mp asked
  cases eq
  cases rest
  exact ⟨errors,resolved,rfl⟩

lemma run_functionLiteral (ran : (functionLiteral around externs fn).run c = some (inside,after)) :
    inside = c.scope around fn ∧ ∃ declared errors decl,
      ((c.registry.resolver inside).signature fn.jsdoc fn.parameters).run [] = some (declared,errors) ∧
      decl.id = fn.id ∧ decl.fromExterns = externs ∧ decl.owner = c.owner? fn.id ∧
      decl.signature = ownedSignature c.registry (c.owner? fn.id)
        (c.constructors.get? fn.id).isSome (c.ownTemplates fn) declared ∧
      after.constructors = c.constructors ∧ after.methodOwners = c.methodOwners ∧
      ∃ signed, after.registry = signed.addFunction decl ∧ (c.constructors.get? fn.id = none ∧ signed = c.registry ∨
          ∃ owner, c.constructors.get? fn.id = some owner ∧ signed = c.registry.modifyNominal owner
              ({· with constructor := some decl.signature.toFunctionType})) := by
  rw [functionLiteral] at ran
  obtain ⟨c',_,read,ran⟩ := run_bind_iff.mp ran
  cases read
  obtain ⟨declared,mid,noted,ran⟩ := run_bind_iff.mp ran
  obtain ⟨errors,resolved,rfl⟩ := run_lenient noted
  clear noted
  simp only [Collection.scope,Collection.ownTemplates,Collection.owner?]
  generalize c.constructors.get? fn.id = constructed at ran resolved ⊢
  cases constructed with
  | some owner =>
    cases ran
    exact ⟨rfl,declared,errors,_,resolved,rfl,rfl,rfl,rfl,rfl,rfl,_,rfl,.inr ⟨owner,rfl,rfl⟩⟩
  | none =>
    cases ran
    exact ⟨rfl,declared,errors,_,resolved,rfl,rfl,rfl,rfl,rfl,rfl,_,rfl,.inl ⟨rfl,rfl⟩⟩

/-- One literal is resolved over the registry as it is and put in its place. -/
lemma stored_functionLiteral (stored : start.Stored own done c) (isOwn : externs = false → own fn.id)
    (ran : (functionLiteral around externs fn).run c = some (inside,after)) :
    inside = start.scope around fn ∧ start.Stored own (done ++ [(fn,inside)]) after := by
  obtain ⟨scope,declared,errors,decl,resolved,id,origin,owner,signature,constructors,
    methodOwners,signed,added,pre⟩ := run_functionLiteral ran
  have signing := stored.signing
  have bare : signed.bare = c.registry.bare := by
    rcases pre with ⟨-,rfl⟩ | ⟨owner,-,rfl⟩
    · rfl
    · exact bare_modifyNominal _ _
  have unwritten : signed.Unwritten := by
    rcases pre with ⟨-,rfl⟩ | ⟨owner,-,rfl⟩
    · exact signing.unfilled.unwritten
    · exact signing.unfilled.unwritten.modifyNominal _
  have functions : after.registry.functions = c.registry.functions.insert fn.id decl := by
    rw [added,addFunction,id]
    rcases pre with ⟨-,rfl⟩ | ⟨owner,-,rfl⟩ <;> rfl
  have found (number : Nat) : after.registry.function? number =
      if fn.id = number then some decl else c.registry.function? number := by
    rw [function?,functions,Table.get?_insert]
    rfl
  refine ⟨by rw [scope,signing.scope],⟨?_,?_,?_,?_⟩,?_,fun number other isFound => ?_,?_⟩
  · rw [constructors,signing.constructors]
  · rw [methodOwners,signing.methodOwners]
  · rw [added,← signing.unfilled.bare,← bare]
    rfl
  · rw [added]
    exact unwritten.of_nominals rfl rfl
  · rw [functions,List.map_append]
    exact stored.keys.trans (.insert _ _ _)
  · rw [found] at isFound
    split at isFound
    · rename_i eq
      cases isFound
      exact fun prog => eq ▸ isOwn (origin.symm.trans prog)
    · exact stored.isOwn number other isFound
  · intro earlier other otherScope later split last
    rw [found]
    rcases List.eq_nil_or_concat later with rfl | ⟨others,newest,rfl⟩
    · obtain ⟨-,eq⟩ := List.append_inj' split rfl
      cases eq
      refine ⟨decl,if_pos rfl,c.registry,declared,errors,signing.unfilled,resolved,?_,?_⟩
      · rw [owner,signing.owner?]
      · rw [signature,signing.owner?,signing.constructors,signing.ownTemplates]
    · rw [List.concat_eq_append] at split last
      rw [← List.cons_append,← List.append_assoc] at split
      obtain ⟨prev,eq⟩ := List.append_inj' split rfl
      cases eq
      have different : fn.id ≠ other.id := last (fn,inside) (by simp)
      rw [if_neg different]
      exact stored.signed earlier other otherScope others prev fun entry mem => last entry (by simp [mem])

mutual
lemma stored_functions : (nodes : List Node) →
    ∀ {c after : Collection} {done : List (FunctionLiteral × List String)}, start.Stored own done c →
    (externs = false → ∀ entry ∈ literals start.scope around nodes, own entry.1.id) →
    (functions around externs nodes).run c = some ((),after) →
    start.Stored own (done ++ literals start.scope around nodes) after
  | [], c, after, done, stored, isOwn, ran => by
    cases ran
    simpa [literals] using stored
  | node :: rest, c, after, done, stored, isOwn, ran => by
    rw [functions] at ran
    obtain ⟨_,mid,first,last⟩ := run_bind_iff.mp ran
    simp only [literals,List.forall_mem_append] at isOwn
    have later := stored_functions rest (stored_function node stored (fun prog => (isOwn prog).1) first)
      (fun prog => (isOwn prog).2) last
    simpa [literals] using later

lemma stored_function : (node : Node) →
    ∀ {c after : Collection} {done : List (FunctionLiteral × List String)}, start.Stored own done c →
    (externs = false → ∀ entry ∈ literalsIn start.scope around node, own entry.1.id) →
    (function around externs node).run c = some ((),after) →
    start.Stored own (done ++ literalsIn start.scope around node) after
  | .function fn inner, c, after, done, stored, isOwn, ran => by
    rw [function] at ran
    obtain ⟨inside,mid,first,last⟩ := run_bind_iff.mp ran
    simp only [literalsIn,List.forall_mem_cons] at isOwn
    obtain ⟨rfl,next⟩ := stored_functionLiteral stored (fun prog => (isOwn prog).1) first
    have later := stored_functions inner next (fun prog => (isOwn prog).2) last
    simpa [literalsIn] using later
  | .statement _, c, after, done, stored, _, ran | .expression _, c, after, done, stored, _, ran => by
    cases ran
    simpa [literalsIn] using stored
end

lemma stored_signatures {prog : Program} {externs : Option Program}
    (unwritten : c.registry.Unwritten) (empty : c.registry.functions = {})
    (ran : (signatures prog externs).run c = some ((),after)) :
    ∃ mid, c.Stored (· ∈ prog.literals.map (·.id)) (literalsOf c.scope prog externs) mid ∧
      inheritConstructors.run mid = some ((),after) := by
  have start : c.Stored (· ∈ prog.literals.map (·.id)) [] c := by
    refine ⟨⟨rfl,rfl,rfl,unwritten⟩,.refl _,fun id decl found => ?_,by simp⟩
    rw [function?,empty] at found
    cases found
  have isOwn (_ : false = false) : ∀ entry ∈ literals c.scope [] (statementNodes prog.statements),
      entry.1.id ∈ prog.literals.map (·.id) := fun entry mem => by
    rw [prog.literals_eq c.scope]
    exact List.mem_map_of_mem (List.mem_map_of_mem mem)
  cases externs with
  | none =>
    obtain ⟨_,mid,first,last⟩ := run_bind_iff.mp ran
    exact ⟨mid,stored_functions _ start isOwn first,last⟩
  | some e =>
    rw [signatures] at ran
    obtain ⟨_,outside,first,ran⟩ := run_bind_iff.mp ran
    obtain ⟨_,mid,second,last⟩ := run_bind_iff.mp ran
    exact ⟨mid,stored_functions _ (stored_functions _ start (by simp) first) isOwn second,last⟩

end Collecting

namespace Registry

/-- The template variables in scope inside a literal: those around it, those of the type that it
constructs or is a method of, and, unless it is a constructor, its own. -/
def scope (r : Registry) (around : List String) (fn : FunctionLiteral) : List String :=
  let owner := (r.function? fn.id).bind (·.owner)
  let constructs := (r.function? fn.id).bind (·.signature.constructs)
  around ++ (owner.map fun o => (r.nominal o).typeParams).getD [] ++
    if constructs.isSome then []
    else ownTemplates (functionName r fn owner) fn

end Registry

lemma Resolver.signature_constructs {r : Resolver} {declared : Signature}
    (ran : (r.signature doc parameters).run errors = some (declared,errors')) :
    declared.constructs = none := by
  rw [signature] at ran
  obtain ⟨params,_,-,ran⟩ := run_bind_iff.mp ran
  obtain ⟨returnType,_,-,ran⟩ := run_bind_iff.mp ran
  obtain ⟨recv,_,-,ran⟩ := run_bind_iff.mp ran
  cases ran
  rfl

namespace Collecting

variable (r : Registry) (owner : Option NominalId) (isConstructor : Bool) (templates : List String) (s : Signature)

lemma params_ownedSignature : (ownedSignature r owner isConstructor templates s).params = s.params := by
  unfold ownedSignature
  cases owner <;> cases isConstructor <;> rfl

lemma returnType_ownedSignature : (ownedSignature r owner isConstructor templates s).returnType = s.returnType := by
  unfold ownedSignature
  cases owner <;> cases isConstructor <;> rfl

end Collecting

namespace Collection

variable {start : Collection}

/-- What is stored tells what is in scope inside any literal with the number. -/
lemma SignedBy.scope {other : FunctionLiteral} {r : Registry} (signed : start.SignedBy fn inside decl)
    (found : r.function? fn.id = some decl) (bare : r.bare = start.registry.bare)
    (eq : fn.id = other.id) (around : List String) :
    start.scope around other = r.scope around other := by
  rw [eq] at found
  obtain ⟨early,declared,errors,-,resolved,owner,signature⟩ := signed
  rw [eq] at owner signature
  have constructs : decl.signature.constructs.isSome = (start.constructors.get? other.id).isSome := by
    have none := Resolver.signature_constructs resolved
    rw [signature]
    unfold Collecting.ownedSignature Collection.owner?
    cases start.constructors.get? other.id with
    | some id => rfl
    | none => cases start.methodOwners.get? other.id <;> simp [none]
  have name (owner : Option NominalId) : Collecting.functionName r other owner =
      Collecting.functionName start.registry other owner := by
    simp only [Collecting.functionName,Registry.name_of_bare bare]
  simp only [Collection.scope,Collection.ownTemplates,Registry.scope,found,Option.bind_some,owner,
    constructs,Registry.typeParams_of_bare bare,name]

end Collection

mutual
lemma literals_congr {scope : List String → FunctionLiteral → List String} : (nodes : List Node) →
    (∀ entry ∈ literals scope around nodes, ∀ around, scope around entry.1 = scope' around entry.1) →
    literals scope' around nodes = literals scope around nodes
  | [], _ => rfl
  | node :: rest, eq => by
    rw [literals,literals,literalsIn_congr node fun entry mem => eq entry (by simp [literals,mem]),
      literals_congr rest fun entry mem => eq entry (by simp [literals,mem])]

lemma literalsIn_congr {scope : List String → FunctionLiteral → List String}
    : (node : Node) → (∀ entry ∈ literalsIn scope around node, ∀ around, scope around entry.1 = scope' around entry.1) →
    literalsIn scope' around node = literalsIn scope around node
  | .function fn inner, eq => by
    have here := eq (fn,scope around fn) (by simp [literalsIn]) around
    rw [literalsIn,literalsIn,← here, literals_congr inner fun entry mem => eq entry (by simp [literalsIn,mem])]
  | .statement _, _ | .expression _, _ => rfl
end

lemma exists_last {p : α → Prop} (mem : a ∈ list)
    (held : p a) : ∃ pre b after, list = pre ++ b :: after ∧ p b ∧ ∀ c ∈ after, ¬p c := by
  induction list generalizing a with
  | nil => cases mem
  | cons first rest ih =>
    by_cases later : ∃ b ∈ rest, p b
    · obtain ⟨b,inRest,held⟩ := later
      obtain ⟨pre,c,after,eq,held,none⟩ := ih inRest held
      exact ⟨first :: pre,c,after,by rw [eq,List.cons_append],held,none⟩
    · have here : a = first := by
        rcases List.mem_cons.mp mem with eq | inRest
        · exact eq
        · exact absurd ⟨a,inRest,held⟩ later
      exact ⟨[],first,rest,rfl,here ▸ held,fun c inRest held => later ⟨c,inRest,held⟩⟩

namespace Declarations

/-- The function literals of externs and program in the order in which they are read, with the
template variables in scope inside each. -/
def literals (prog : Program) (externs : Option Program) (r : Registry) : List (FunctionLiteral × List String) :=
  (externs.elim [] fun e => GradualJs.literals r.scope [] (statementNodes e.statements)) ++
    GradualJs.literals r.scope [] (statementNodes prog.statements)

variable {prog : Program} {externs : Option Program} {decls : Declarations}

lemma collect_stored (collected : collect prog externs legacy = some decls) :
    ∃ headed mid : Collection, headed.registry.functions = {} ∧
      headed.Stored (· ∈ prog.literals.map (·.id)) (literalsOf headed.scope prog externs) mid ∧
      decls.registry.bare = headed.registry.bare ∧
      decls.registry.functions = mid.registry.functions := by
  obtain ⟨headed,signed,filled,final,phases,frozen⟩ := collect_phases collected
  have unwritten := ((keeps_headings Unwritten.headings).run
    (Registering.keeps_registration Unwritten.registering prog externs Unwritten.initial)
    phases.headings).2.2
  let undeclared (r : Registry) : Prop := r.functions = {}
  have registering : Registering.Invariant undeclared :=
    ⟨fun _ _ _ _ held => held,fun _ _ _ _ held => held,fun _ _ _ _ _ held => held,
      fun _ _ _ held => held,fun _ _ _ _ held => held,fun _ _ _ _ held => held⟩
  have headings : Headings undeclared :=
    ⟨fun _ _ _ held => held,fun _ _ _ _ _ held => held,fun _ _ _ _ _ _ held => held,fun _ _ held => held⟩
  have empty : headed.registry.functions = {} := ((keeps_headings headings).run
    (Registering.keeps_registration registering prog externs rfl) phases.headings).2.2
  obtain ⟨mid,stored,inherits⟩ := stored_signatures unwritten empty phases.signatures
  refine ⟨headed,mid,empty,stored,?_⟩
  let holds (r : Registry) : Prop := r.bare = headed.registry.bare ∧ r.functions = mid.registry.functions
  have constructing (r : Registry) (id : NominalId) (constructor : Option FunctionType)
      (held : holds r) : holds (r.modifyNominal id ({· with constructor})) :=
    ⟨(r.bare_modifyNominal id).trans held.1,held.2⟩
  have contents : Contents holds :=
    ⟨fun r id _ _ held => ⟨(r.bare_modifyNominal id).trans held.1,held.2⟩,fun _ _ _ _ held => held⟩
  have inherited := (keeps_inheritConstructors constructing).run ⟨stored.signing.unfilled.bare,rfl⟩ inherits
  have members := (keeps_members contents).run inherited.2.2 phases.members
  have closing := (keeps_closing contents.setMember legacy).run members.2.2 phases.closing
  rw [frozen]
  exact closing.2.2

def allLiterals (prog : Program) (externs : Option Program) : List FunctionLiteral :=
  externs.elim [] Program.literals ++ prog.literals

/-- The functions that are declared are the literals, and those that are not from the externs are
literals of the program. -/
lemma collect_functions (collected : collect prog externs legacy = some decls) : decls.registry.functions.keys.Nodup ∧
    (∀ id, id ∈ decls.registry.functions.keys ↔ id ∈ (allLiterals prog externs).map (·.id)) ∧
    decls.registry.Own fun id => id ∈ prog.literals.map (·.id) := by
  obtain ⟨headed,mid,empty,stored,-,eq⟩ := collect_stored collected
  refine ⟨?_,fun id => ?_,fun id decl found => ?_⟩
  · rw [eq]
    exact stored.keys.distinct (empty ▸ .nil)
  · have read : allLiterals prog externs = (literalsOf headed.scope prog externs).map Prod.fst := by
      cases externs <;> simp [allLiterals,literalsOf,Program.literals_eq _ headed.scope]
    rw [eq,stored.keys.keys,empty,read]
    simp [Table.keys]
  · rw [Registry.function?,eq] at found
    exact stored.isOwn id decl found

/-- The signature that is stored for a literal was resolved over a registry with the same
headings and no properties but the builtin ones. -/
lemma collect_signed (collected : collect prog externs legacy = some decls)
    {pre after : List (FunctionLiteral × List String)} {scope : List String}
    (occurs : literals prog externs decls.registry = pre ++ (fn,scope) :: after)
    (last : ∀ later ∈ after, later.1.id ≠ fn.id) :
    ∃ decl early declared errors, decls.registry.function? fn.id = some decl ∧ decls.registry.Unfilled early ∧
      ((early.resolver scope).signature fn.jsdoc fn.parameters).run [] = some (declared,errors) ∧
      decl.signature.params = declared.params ∧ decl.signature.returnType = declared.returnType := by
  obtain ⟨headed,mid,-,stored,kept⟩ := collect_stored collected
  have found (number : Nat) : decls.registry.function? number = mid.registry.function? number := by
    rw [function?,kept.2,function?]
  have scopes (entry : FunctionLiteral × List String)
      (mem : entry ∈ literalsOf headed.scope prog externs) (around : List String) :
      headed.scope around entry.1 = decls.registry.scope around entry.1 := by
    obtain ⟨pre,⟨newest,inside⟩,after,split,number,others⟩ :=
      exists_last (p := fun other : FunctionLiteral × List String => other.1.id = entry.1.id) mem rfl
    obtain ⟨decl,has,signed⟩ := stored.signed pre newest inside after split
      fun later inAfter => number ▸ others later inAfter
    exact signed.scope ((found _).trans has) kept.1 number around
  have eq : literals prog externs decls.registry = literalsOf headed.scope prog externs := by
    unfold literalsOf at scopes ⊢
    unfold literals
    rw [literals_congr _ fun entry mem => scopes entry (by simp [mem])]
    cases externs with
    | none => rfl
    | some e =>
      simp only [Option.elim_some] at scopes ⊢
      rw [literals_congr _ fun entry mem => scopes entry (by simp [mem])]
  obtain ⟨decl,has,early,declared,errors,unfilled,resolved,-,signature⟩ :=
    stored.signed pre fn scope after (eq.symm.trans occurs) last
  refine ⟨decl,early,declared,errors,(found _).trans has,?_,resolved,?_,?_⟩
  · exact ⟨unfilled.bare.trans kept.1.symm,unfilled.unwritten⟩
  · rw [signature,params_ownedSignature]
  · rw [signature,returnType_ownedSignature]

end Declarations
end GradualJs
