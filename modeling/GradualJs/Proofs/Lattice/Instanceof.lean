import GradualJs.Flow.Operand
import GradualJs.Proofs.Declarations.Kinds
import GradualJs.Proofs.Lattice.Bounds
import GradualJs.Proofs.Lattice.Specialize

/-! What `instanceof` leaves of a union. Where the test fails, the objects that fit the tested
type are taken out; where it succeeds, each object is narrowed by rules of its own. An object
that is taken out here and not kept there is lost to both branches. -/
namespace GradualJs

open List Relations
open Option (bind_eq_some_iff map_eq_some_iff)

variable {x : Obj} {found : Option Obj} {objects : List Obj} {narrowed : Ty} {w : Union}

section Lists

variable {α : Type}

/-- Each element of a list is kept, left out, or replaced by one that may stand anywhere. -/
lemma pairwise_flatten_rows {list : List α} {rows : List (List α)}
    (related : Forall₂ (fun a row => row = [] ∨ row = [a] ∨ row = [c]) list rows)
    (pairwise : list.Pairwise R) (near : ∀ a ∈ list, R a c ∧ R c a) (self : R c c) :
    rows.flatten.Pairwise R ∧ ∀ a ∈ rows.flatten, a ∈ list ∨ a = c := by
  induction related with
  | nil => simp
  | @cons a row list rows first _ ih =>
    obtain ⟨next,others⟩ := pairwise_cons.mp pairwise
    obtain ⟨nearA,nearRest⟩ := forall_mem_cons.mp near
    obtain ⟨ordered,origin⟩ := ih others nearRest
    rcases first with rfl | rfl | rfl
    · exact ⟨ordered,fun b mem => (origin b mem).imp_left (mem_cons_of_mem _)⟩
    · refine ⟨pairwise_cons.mpr ⟨fun b mem => ?_,ordered⟩,fun b mem => ?_⟩
      · rcases origin b mem with inList | rfl
        · exact next b inList
        · exact nearA.1
      · rcases mem_cons.mp mem with rfl | inRows
        · exact .inl mem_cons_self
        · exact (origin b inRows).imp_left (mem_cons_of_mem _)
    · refine ⟨pairwise_cons.mpr ⟨fun b mem => ?_,ordered⟩,fun b mem => ?_⟩
      · rcases origin b mem with inList | rfl
        · exact (nearRest b inList).2
        · exact self
      · rcases mem_cons.mp mem with rfl | inRows
        · exact .inr rfl
        · exact (origin b inRows).imp_left (mem_cons_of_mem _)

lemma padArgs_replicate (count : Nat) (a b : Ty) :
    padArgs (replicate count a) (replicate count b) = replicate count (a,b) := by
  induction count with
  | zero => rfl
  | succ count ih => simp [replicate_succ,padArgs,ih]

end Lists

namespace Registry

section Definitions

variable (r : Registry) (lax : Bool)

/-- Nothing but one object comes of combining two. -/
def Yields (c x y : Obj) : Prop := ∀ z, r.Combines x y z → z = c

/-- The tested type is combined with an object of the union, and something else comes of it. -/
def Disturbed (u : Union) (c : Instance) : Prop :=
  ∃ o ∈ u.objects, ¬(r.Yields (.nominal c) o (.nominal c) ∧ r.Yields (.nominal c) (.nominal c) o)

/-- An object of a union that may be lost although it was found to fit the tested type. -/
inductive Doubtful (u : Union) (c : Instance) : Obj → Prop
  /-- A pair that is left in the table was taken for granted. -/
  | stale {o : Obj} {assumed table : Assumptions} : r.Ends lax (.object o) (.object (.nominal c)) assumed (true,table) →
      ¬r.FitsObject lax o (.nominal c) → Doubtful u c o
  /-- A record has more than the tested type asks for. -/
  | richer {x : Record} : c.id ≠ .object → x.loose = false → r.FitsObject lax (.record x) (.nominal c) →
      ¬r.FitsObject lax (.nominal c) (.record x) → Doubtful u c (.record x)
  | disturbed {o : Obj} : r.Disturbed u c → Doubtful u c o

end Definitions

variable {r : Registry} {u : Union} {c : Instance}

lemma Combines.of_ended (combines : r.Combines x y z)
    (ended : (mergeRules r (.within r depth)).combine x y = some found) : found = some z := by
  obtain ⟨depth',ended'⟩ := combines
  have first := (within_extends r (Nat.le_max_left depth depth')).combine r ended
  have second := (within_extends r (Nat.le_max_right depth depth')).combine r ended'
  exact Option.some.inj (first.symm.trans second)

lemma yields_of_ended {c : Obj} (depth : Nat) (found : Option Obj)
    (ended : (mergeRules r (.within r depth)).combine x y = some found)
    (only : ∀ z ∈ found, z = c) : r.Yields c x y :=
  fun z combines => only z (combines.of_ended ended)

lemma yields_erased (r : Registry) (id : NominalId) (count : Nat) : r.Yields (.nominal ⟨id,replicate count .unknown⟩)
      (.nominal ⟨id,replicate count .unknown⟩) (.nominal ⟨id,replicate count .unknown⟩) := by
  rintro z ⟨depth,ended⟩
  simp only [MergeRules.combine,if_true,joinInstances,Option.map_eq_map,map_eq_some_iff,
    Option.bind_eq_bind,bind_eq_some_iff,padArgs_replicate] at ended
  obtain ⟨i,⟨args,joined,eq⟩,found⟩ := ended
  cases eq
  cases found
  have places := forall₂_of_mapM joined
  congr 2
  refine eq_replicate_iff.mpr ⟨by simpa using places.length_eq.symm,fun arg mem => ?_⟩
  obtain ⟨pair,inPairs,joins⟩ := forall₂_mem places.flip arg mem
  rw [eq_of_mem_replicate inPairs] at joins
  cases depth with
  | zero => cases joins
  | succ depth => exact (Option.some.inj joins).symm

lemma Unchanged.apart (unchanged : r.Unchanged objects) : objects.Pairwise fun x y => ∀ z, ¬r.Combines x y z := by
  obtain ⟨depth,ended⟩ := unchanged
  refine (pairwise_of_normalized ended).1.imp fun alone z combines => ?_
  cases combines.of_ended alone

lemma Unchanged.yields (unchanged : r.Unchanged objects) (c : Obj) : objects.Pairwise (r.Yields c) :=
  unchanged.apart.imp fun never z combines => absurd combines (never z)

/-- If objects are combined into one object only, normalisation keeps each of them or has that
one in its place. -/
lemma mem_normalized {c : Obj} (self : r.Yields c c c)
    (pairwise : objects.Pairwise fun x y => r.Yields c x y ∧ r.Yields c x c ∧ r.Yields c c y)
    (ended : normalizeObjects (mergeRules r (.within r depth)).combine objects =
      some res) (mem : o ∈ objects) : o ∈ res ∨ c ∈ res := by
  have stepwise : Stepwise (mergeRules r (.within r depth)).combine
      (fun x y => r.Yields c x y ∧ r.Yields c x c ∧ r.Yields c c y) fun _ z => z = c := by
    refine ⟨fun yields combined => ?_,fun yields combined o pre => ?_,fun yields combined o pre => ?_⟩
    · exact ⟨yields.1 _ ⟨depth,combined⟩,yields.1 _ ⟨depth,combined⟩⟩
    · rw [yields.1 _ ⟨depth,combined⟩]
      exact ⟨pre.2.1,pre.2.1,self⟩
    · rw [yields.1 _ ⟨depth,combined⟩]
      exact ⟨pre.2.2,self,pre.2.2⟩
  obtain ⟨z,inResult,reached⟩ := (normalizeObjects_carries stepwise pairwise ended).1 o mem
  rcases reached.cases_tail with rfl | ⟨_,_,rfl⟩
  · exact .inl inResult
  · exact .inr inResult

section Branches

lemma exclude_eq_some
    (ended : Lattice.exclude ⟨r,lax,depth⟩ (.union u) (.object (.nominal c)) = some rest) :
    ∃ objects, rest = .ofUnion {u with objects} ∧ objects ⊆ u.objects ∧ (∀ o ∈ u.objects, o ∉ objects → ∃ assumed table,
        r.Ends lax (.object o) (.object (.nominal c)) assumed (true,table)) ∧
      ∀ o ∈ objects, ∃ assumed table, r.Ends lax (.object o) (.object (.nominal c)) assumed (false,table) := by
  obtain ⟨objects,filtered,eq⟩ := bind_eq_some_iff.mp ended
  have filtering := Lattice.run_filterM (q := fun o kept => ∃ assumed table,
    r.Ends lax (.object o) (.object (.nominal c)) assumed (!kept,table)) (fun o assumed ans asked => by
      simp only [anyM,StateT.run_bind,Option.bind_eq_bind,bind_eq_some_iff] at asked
      obtain ⟨⟨_,mid⟩,⟨⟨found,after⟩,compared,next⟩,eq⟩ := asked
      refine ⟨assumed,after,ends_object depth ?_⟩
      cases found <;> cases next <;> cases eq <;> exact compared) filtered
  obtain ⟨fewer,kept,dropped⟩ := filtering
  refine ⟨objects,?_,fewer.subset,fun o mem gone => (dropped o mem).resolve_left gone,kept⟩
  rw [← Option.some.inj eq]
  simp [PrimitiveSet.without,PrimitiveSet.zipWith]

lemma specializeObject_eq_some (ended : Lattice.specializeObject ⟨r,lax,depth⟩ o (.nominal c) = some found) :
    found = none ∨ found = some o ∨ found = some (.nominal c) := by
  cases found with
  | none => exact .inl rfl
  | some left => exact .inr ((Lattice.specializeObject_eq ended).imp (congrArg some) (congrArg some))

/-- What fits the tested type is kept, unless it is a record that has more. -/
lemma specializeObject_ne_none (fits : r.FitsObject lax o (.nominal c)) (sure : ¬r.Doubtful lax u c o) :
    Lattice.specializeObject ⟨r,lax,depth⟩ o (.nominal c) ≠ some none := by
  intro ended
  have refused {a b : Obj} (fits : r.FitsObject lax a b)
      (asked : (Lattice.objectSubtype ⟨r,lax,depth⟩ a b).run' [] = some false) : False := by
    obtain ⟨⟨_,table⟩,ran,rfl⟩ := map_eq_some_iff.mp asked
    cases (fits_object.mpr fits).granted (ends_object depth ran)
  cases o with
  | nominal src =>
    simp only [Lattice.specializeObject] at ended
    split at ended
    · cases ended
    · rename_i notObject
      split at ended
      · cases ended
      · obtain ⟨⟨granted,assumed⟩,asked,ended⟩ := bind_eq_some_iff.mp ended
        have eq : Lattice.instanceSubtype ⟨r,lax,depth⟩ src c =
            Lattice.objectSubtype ⟨r,lax,depth⟩ (.nominal src) (.nominal c) := by
          simp [Lattice.instanceSubtype,Lattice.objectSubtype,objectSubtype,notObject]
        rw [eq] at asked
        cases (fits_object.mpr fits).granted (ends_object depth asked)
        cases ended
  | record x =>
    simp only [Lattice.specializeObject] at ended
    split at ended
    · cases ended
    · rename_i notObject
      rcases Lattice.keepIfFits_eq_some ended with kept | ⟨-,strict,asked⟩
      · cases kept
      · exact sure (.richer notObject strict fits fun back => refused back asked)
  | function f =>
    have known : c.id = .object ∨ c.id = .function := fits
    simp [Lattice.specializeObject,known] at ended
  | namespaceValue id =>
    rcases Lattice.keepIfFits_eq_some ended with kept | ⟨-,-,asked⟩
    · cases kept
    · exact refused fits asked

/-- Narrowing leaves a union that fits as it is. Any other is narrowed object by object, and the
tested type is added if a variable may stand for it. -/
lemma specialize_eq_some (ended : Lattice.specialize ⟨r,lax,depth⟩ (.union u) (.object (.nominal c)) =
      some narrowed) : narrowed = .union u ∨ ∃ rows more objects, Forall₂ (fun o row => ∃ found,
        Lattice.specializeObject ⟨r,lax,depth⟩ o (.nominal c) = some found ∧
          row = found.toList) u.objects (rows : List (List Obj)) ∧ (more = [] ∨ more = [.nominal c]) ∧
      normalizeObjects (mergeRules r (.within r depth)).combine (rows.flatten ++ more) = some objects ∧
      (objects ≠ [] → narrowed.objects = objects) := by
  simp only [Ty.object,Lattice.specialize,Option.bind_eq_bind,bind_eq_some_iff] at ended
  obtain ⟨whole,-,ended⟩ := ended
  cases whole with
  | true => exact .inl (Option.some.inj ended).symm
  | false =>
    obtain ⟨rows,mapped,ended⟩ := bind_eq_some_iff.mp ended
    obtain ⟨objects,normalized,ended⟩ := bind_eq_some_iff.mp ended
    have narrowedRows : Forall₂ (fun o row => ∃ found,
        Lattice.specializeObject ⟨r,lax,depth⟩ o (.nominal c) = some found ∧ row = found.toList) u.objects rows := by
      refine (forall₂_of_mapM mapped).imp fun o row asked => ?_
      obtain ⟨found,narrows,eq⟩ := bind_eq_some_iff.mp asked
      exact ⟨found,narrows,by simpa using (Option.some.inj eq).symm⟩
    have members (kept : objects ≠ []) : narrowed.objects = objects := by
      have eq := Option.some.inj ended
      rw [← eq,if_neg (by simp [Ty.ofUnion,Union.isEmpty,kept,Ty.isBottom]),objects_ofUnion]
    split at normalized
    · exact .inr ⟨rows,_,objects,narrowedRows,.inr rfl,normalized,members⟩
    · exact .inr ⟨rows,[],objects,narrowedRows,.inl rfl,by simpa using! normalized,members⟩

variable {id : NominalId} {count : Nat}

/-- Objects that fit the tested type are kept where the test succeeds, or the tested type is
there in their place. -/
lemma fits_specialize (kinded : r.Kinded) (normal : r.Normal (.union u))
    (ended : Lattice.specialize ⟨r,lax,depth⟩ (.union u)
      (.nominal id (replicate count .unknown)) = some narrowed) (mem : o ∈ u.objects)
    (fits : r.FitsObject lax o (.nominal ⟨id,replicate count .unknown⟩))
    (sure : ¬r.Doubtful lax u ⟨id,replicate count .unknown⟩ o) :
    r.Fits lax (.object o) narrowed := by
  have self : r.FitsObject lax o o := (normal.objects o mem).fits_self kinded
  rcases specialize_eq_some ended with rfl | ⟨rows,more,objects,narrows,tested,normalized,kept⟩
  · exact fits_of_object mem self
  generalize eq : Obj.nominal ⟨id,replicate count .unknown⟩ = c at *
  have alone : r.Yields c c c := eq ▸ yields_erased r id count
  have near (p : Obj) (inUnion : p ∈ u.objects) : r.Yields c p c ∧ r.Yields c c p := by
    subst eq
    by_contra disturbs
    exact sure (.disturbed ⟨p,inUnion,disturbs⟩)
  have unchanged : u.objects.Pairwise (r.Yields c) := by
    cases normal with
    | union _ unchanged _ => exact unchanged.yields c
  have apart : u.objects.Pairwise fun x y => r.Yields c x y ∧ r.Yields c x c ∧ r.Yields c c y :=
    unchanged.imp_of_mem fun inX inY yields => ⟨yields,(near _ inX).1,(near _ inY).2⟩
  have shapes : Forall₂ (fun o row => row = [] ∨ row = [o] ∨ row = [c]) u.objects rows := by
    refine narrows.imp fun o row ⟨found,asked,shape⟩ => ?_
    subst eq
    rcases specializeObject_eq_some asked with rfl | rfl | rfl <;> simp [shape]
  obtain ⟨ordered,origin⟩ := pairwise_flatten_rows shapes apart
    (fun p inUnion => ⟨⟨(near p inUnion).1,(near p inUnion).1,alone⟩,
      ⟨(near p inUnion).2,alone,(near p inUnion).2⟩⟩) ⟨alone,alone,alone⟩
  have toTested (p : Obj) (inRows : p ∈ rows.flatten) : r.Yields c p c := by
    rcases origin p inRows with inUnion | rfl
    · exact (near p inUnion).1
    · exact alone
  have pairwise : (rows.flatten ++ more).Pairwise fun x y => r.Yields c x y ∧ r.Yields c x c ∧ r.Yields c c y := by
    rcases tested with rfl | rfl
    · simpa using ordered
    · refine pairwise_append.mpr ⟨ordered,pairwise_singleton _ _,fun p inRows q last => ?_⟩
      rw [mem_singleton.mp last]
      exact ⟨toTested p inRows,toTested p inRows,alone⟩
  -- The object's own row holds the object or the tested type.
  obtain ⟨row,inRows,found,asked,shape⟩ := forall₂_mem narrows o mem
  have stands : ∃ w ∈ row, w = o ∨ w = c := by
    subst eq
    rcases specializeObject_eq_some asked with rfl | rfl | rfl
    · exact absurd asked (specializeObject_ne_none fits sure)
    · exact ⟨o,by simp [shape],.inl rfl⟩
    · exact ⟨_,by simp [shape],.inr rfl⟩
  obtain ⟨w,inRow,which⟩ := stands
  have inFlat : w ∈ rows.flatten ++ more := mem_append_left _ (mem_flatten.mpr ⟨row,inRows,inRow⟩)
  have inObjects : o ∈ objects ∨ c ∈ objects := by
    rcases mem_normalized alone pairwise normalized inFlat with stays | replaced
    · rcases which with rfl | rfl
      · exact .inl stays
      · exact .inr stays
    · exact .inr replaced
  rcases inObjects with stays | replaced
  · exact self.fits (by rwa [kept (ne_nil_of_mem stays)])
  · exact fits.fits (by rwa [kept (ne_nil_of_mem replaced)])

lemma fits_of_contained {v : Union} (members : v.isEmpty = false)
    (primitives : w.primitives.contains v.primitives) (enums : v.enums ⊆ w.enums)
    (vars : v.vars ⊆ w.vars) (objects : v.objects = []) : r.Fits lax (.union v) (.ofUnion w) := by
  have whole : w.isEmpty = false := by
    by_contra empty
    rw [isEmpty_of_contained (by simpa using empty) primitives enums vars (by simp [objects])] at members
    cases members
  rw [Ty.ofUnion,whole]
  refine fits_union.mpr ⟨primitives,?_,fun id mem => .inl (by simpa using enums mem),?_⟩
  · exact all_eq_true.mpr fun name mem => by simpa using vars mem
  · simp [objects]

lemma fits_primitive {set : PrimitiveSet} (contained : w.primitives.contains set = true) :
    r.Fits lax (.primitive set) (.ofUnion w) := by
  rw [Ty.primitive,Ty.ofUnion]
  split
  · exact bottom_fits
  · rename_i members
    exact fits_of_contained (by simpa using members) contained (by simp) (by simp) rfl

lemma fits_excluded (objects : List Obj) (mem : m ∈ (Ty.union u).members) :
    r.Fits lax m (.ofUnion {u with objects}) ∨ ∃ o ∈ u.objects, m = .object o := by
  simp only [Ty.members,mem_append,mem_map,mem_filter] at mem
  rcases mem with ((⟨tag,⟨isTag,held⟩,rfl⟩ | ⟨id,held,rfl⟩) | ⟨name,held,rfl⟩) | ⟨o,held,rfl⟩
  · exact .inl (fits_primitive held)
  · exact .inl (fits_of_contained rfl (by simp) (by simpa using held) (by simp) rfl)
  · exact .inl (fits_of_contained rfl (by simp) (by simp) (by simpa using held) rfl)
  · exact .inr ⟨o,held,rfl⟩

end Branches

/-- Each member of a normal union is covered by what `instanceof` leaves of it in one of the two
branches exactly if the objects are that are taken out where the test fails and may be lost.
Then a question whether a member fits is answered with yes for one of the branches. -/
theorem instanceof_covers_iff {prog : Program} {externs : Option Program} {legacy : Bool} {decls : Declarations}
    (collected : Declarations.collect prog externs legacy = some decls)
    {lax : Bool} {depth : Nat} {u : Union} (normal : decls.registry.Normal (.union u))
    {id : NominalId} {args : List Ty} {narrowed rest : Ty}
    (whenTrue : Lattice.specialize ⟨decls.registry,lax,depth⟩ (.union u)
      (Walk.erasedInstance (.nominal id args)) = some narrowed)
    (whenFalse : Lattice.exclude ⟨decls.registry,lax,depth⟩ (.union u)
      (Walk.erasedInstance (.nominal id args)) = some rest) :
    ((∀ m ∈ (Ty.union u).members, decls.registry.Fits lax m narrowed ∨
        decls.registry.Fits lax m rest) ↔ ∀ o ∈ u.objects, o ∉ rest.objects →
        decls.registry.Doubtful lax u ⟨id,List.replicate args.length .unknown⟩ o →
        decls.registry.Fits lax (.object o) narrowed ∨
          decls.registry.Fits lax (.object o) rest) ∧ ((∀ o ∈ u.objects, o ∉ rest.objects →
        decls.registry.Doubtful lax u ⟨id,List.replicate args.length .unknown⟩ o →
        decls.registry.Fits lax (.object o) narrowed ∨ decls.registry.Fits lax (.object o) rest) →
      ∀ m ∈ (Ty.union u).members, ∀ depth inTrue inFalse,
        Lattice.isSubtype ⟨decls.registry,lax,depth⟩ m narrowed = some inTrue →
        Lattice.isSubtype ⟨decls.registry,lax,depth⟩ m rest = some inFalse →
        (inTrue || inFalse) = true) := by
  have kinded := Declarations.collect_kinded collected
  obtain ⟨objects,rfl,-,dropped,-⟩ := exclude_eq_some whenFalse
  simp only [objects_ofUnion]
  have covered (sure : ∀ o ∈ u.objects, o ∉ objects →
      decls.registry.Doubtful lax u ⟨id,List.replicate args.length .unknown⟩ o →
      decls.registry.Fits lax (.object o) narrowed ∨ decls.registry.Fits lax (.object o) (.ofUnion {u with objects})) :
      ∀ m ∈ (Ty.union u).members, decls.registry.Fits lax m narrowed ∨
        decls.registry.Fits lax m (.ofUnion {u with objects}) := by
    intro m mem
    rcases fits_excluded objects mem with alone | ⟨o,inUnion,rfl⟩
    · exact .inr alone
    · by_cases stays : o ∈ objects
      · right
        refine ((normal.objects o inUnion).fits_self kinded).fits ?_
        rwa [objects_ofUnion]
      · by_cases doubtful : decls.registry.Doubtful lax u ⟨id,List.replicate args.length .unknown⟩ o
        · exact sure o inUnion stays doubtful
        · left
          obtain ⟨assumed,table,granted⟩ := dropped o inUnion stays
          have fits : decls.registry.FitsObject lax o (.nominal ⟨id,List.replicate args.length .unknown⟩) := by
            by_contra wrong
            exact doubtful (.stale granted wrong)
          exact fits_specialize kinded normal whenTrue inUnion fits doubtful
  refine ⟨⟨fun all o inUnion _ _ => all _ ?_,covered⟩,?_⟩
  · exact List.mem_append_right _ (List.mem_map_of_mem inUnion)
  · intro sure m mem depth inTrue inFalse first second
    rcases covered sure m mem with fits | fits
    · simp [fits.isSubtype first]
    · simp [fits.isSubtype second]

section Cargo

open Outline in
/-- A container for any contents, a kind of it for numbers, and a class that is unrelated. -/
def containers : List Outline := [
  {name := "Box", doc := {kind := some .constructor, templates := ["T"]}},
  {name := "Crate", doc := {kind := some .constructor, supertypes := [named "Box" [named "number" []]]}},
  {name := "Stone", doc := {kind := some .constructor}}]

def cargo : Union where
  primitives := .numberOnly
  objects := [.nominal ⟨⟨4⟩,[]⟩,.nominal ⟨⟨5⟩,[]⟩]

/-- The container for numbers is a container, and the class that is unrelated stays apart. -/
lemma containers_tested : Outline.Collects containers ∧ (Outline.registry containers).Normal (.union cargo) ∧
    Lattice.specialize ⟨Outline.registry containers,false,9⟩ (.union cargo)
      (Walk.erasedInstance (.nominal ⟨3⟩ [.var "T"])) = some (.nominal ⟨4⟩ []) ∧
    Lattice.exclude ⟨Outline.registry containers,false,9⟩ (.union cargo)
      (Walk.erasedInstance (.nominal ⟨3⟩ [.var "T"])) =
        some (.union {primitives := .numberOnly, objects := [.nominal ⟨⟨5⟩,[]⟩]}) ∧
    ∀ o ∈ cargo.objects, o ≠ .nominal ⟨⟨5⟩,[]⟩ →
      ¬(Outline.registry containers).Doubtful false cargo ⟨⟨3⟩,[.unknown]⟩ o := by
  refine ⟨Outline.collects_of_quiet (by decide +kernel),.union (by decide) ⟨5,by decide +kernel⟩
    (by simpa [cargo] using ⟨.nominal (by simp),.nominal (by simp)⟩),by decide +kernel,
    by decide +kernel,fun o mem taken => ?_⟩
  obtain rfl : o = .nominal ⟨⟨4⟩,[]⟩ := by simpa [cargo,taken] using mem
  intro doubtful
  cases doubtful with
  | stale _ wrong =>
    have plainly : (Outline.registry containers).FitsPlainly false (.nominal ⟨⟨4⟩,[]⟩)
        (.nominal ⟨⟨3⟩,[.unknown]⟩) := ⟨9,by decide +kernel⟩
    exact wrong plainly.fits
  | disturbed disturbed =>
    obtain ⟨p,inCargo,disturbs⟩ := disturbed
    simp only [cargo,mem_cons,not_mem_nil,or_false] at inCargo
    rcases inCargo with rfl | rfl
    · refine disturbs ⟨yields_of_ended 9 (some (.nominal ⟨⟨3⟩,[.unknown]⟩)) (by decide +kernel) (by simp),?_⟩
      exact yields_of_ended 9 (some (.nominal ⟨⟨3⟩,[.unknown]⟩)) (by decide +kernel) (by simp)
    · exact disturbs ⟨yields_of_ended 9 none (by decide +kernel) (by simp),
        yields_of_ended 9 none (by decide +kernel) (by simp)⟩

theorem instanceof_covers_cargo : ∃ decls, Declarations.collect (Outline.program containers) none false = some decls ∧
    decls.registry.Normal (.union cargo) ∧
    Lattice.specialize ⟨decls.registry,false,9⟩ (.union cargo)
      (Walk.erasedInstance (.nominal ⟨3⟩ [.var "T"])) = some (.nominal ⟨4⟩ []) ∧
    Lattice.exclude ⟨decls.registry,false,9⟩ (.union cargo) (Walk.erasedInstance (.nominal ⟨3⟩ [.var "T"])) =
        some (.union {primitives := .numberOnly, objects := [.nominal ⟨⟨5⟩,[]⟩]}) ∧
    ∀ m ∈ (Ty.union cargo).members, ∀ depth inTrue inFalse,
      Lattice.isSubtype ⟨decls.registry,false,depth⟩ m (.nominal ⟨4⟩ []) = some inTrue →
      Lattice.isSubtype ⟨decls.registry,false,depth⟩ m
        (.union {primitives := .numberOnly, objects := [.nominal ⟨⟨5⟩,[]⟩]}) = some inFalse →
      (inTrue || inFalse) = true := by
  obtain ⟨⟨decls,collected,eq,-⟩,normal,whenTrue,whenFalse,sure⟩ := containers_tested
  rw [← eq] at normal whenTrue whenFalse sure
  refine ⟨decls,collected,normal,whenTrue,whenFalse,?_⟩
  refine (instanceof_covers_iff collected normal whenTrue whenFalse).2 fun o mem gone doubtful => ?_
  exact absurd doubtful (sure o mem (by simpa [Ty.objects] using gone))

open Outline in
def measured : List Outline := [
  {name := "R", doc := {kind := some .record}, properties := [("x",named "number" [])]}]

def labelledNumber : Union where
  primitives := .numberOnly
  objects := [.record {fields := [{name := "x", type := .number},{name := "y", type := .string}]}]

/-- The object fits the record type and so is taken out where the test fails; but the record type
does not fit the object, and so nothing is left where the test succeeds. -/
theorem instanceof_loses_record : Outline.Collects measured ∧
    (Outline.registry measured).Normal (.union labelledNumber) ∧
    Lattice.specialize ⟨Outline.registry measured,false,9⟩ (.union labelledNumber)
      (Walk.erasedInstance (.nominal ⟨3⟩ [])) = some .bottom ∧
    Lattice.exclude ⟨Outline.registry measured,false,9⟩ (.union labelledNumber)
      (Walk.erasedInstance (.nominal ⟨3⟩ [])) = some .number ∧ ∃ m ∈ (Ty.union labelledNumber).members,
      Lattice.isSubtype ⟨Outline.registry measured,false,9⟩ m .bottom = some false ∧
      Lattice.isSubtype ⟨Outline.registry measured,false,9⟩ m .number = some false := by
  refine ⟨Outline.collects_of_quiet (by decide +kernel),?_,by decide +kernel,by decide +kernel,?_⟩
  · refine .union (by decide) ⟨5,by decide +kernel⟩ ?_
    simp only [labelledNumber,List.mem_singleton,forall_eq]
    exact .record (by decide) (by simpa using ⟨normal_primitive (by decide),normal_primitive (by decide)⟩)
  · exact ⟨_,List.mem_append_right _ (List.mem_map_of_mem List.mem_cons_self),by decide +kernel, by decide +kernel⟩

end Cargo

end Registry
end GradualJs
