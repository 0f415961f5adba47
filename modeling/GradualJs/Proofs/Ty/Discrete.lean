import GradualJs.Proofs.Ty.Normalize

/-! Objects that only combine with their own kind. Then different things do not meet in a
normalisation, and in two lists that hold each thing once no object is combined twice. -/
namespace GradualJs

open List Obj Option

variable {objects done res : List Obj} {pending : Obj}

section Discrete

def Obj.called? (identity : Identity) (objects : List Obj) : Option Obj := objects.find? (·.identity = identity)

/-- Objects combine exactly if they are the same thing, and what stands for them is that thing. -/
structure Discrete (combine : Obj → Obj → Option (Option Obj)) (good : Obj → Prop) : Prop where
  same {o p : Obj} : o.identity = p.identity → combine o p ≠ some none
  whole {o p z : Obj} : good o → good p → combine o p = some (some z) →
    good z ∧ o.identity = p.identity ∧ z.identity = p.identity

/-- Adds an object to the one that is the same thing, if there is one. -/
def addTo (combine : Obj → Obj → Option (Option Obj)) (present : Option Obj) (o : Obj) : Option (Option Obj) :=
  match present with
  | none => some (some o)
  | some p => combine p o

lemma Obj.called?_eq_none {identity : Identity} :
    called? identity objects = none ↔ ∀ o ∈ objects, o.identity ≠ identity := by
  simp [called?]

lemma Obj.called?_identity {identity : Identity} {o : Obj}
    (called : called? identity objects = some o) : o.identity = identity := by
  simpa using find?_some called

lemma Obj.filter_called (distinct : (objects.map identity).Nodup) (identity : Identity) :
    objects.filter (·.identity = identity) = (called? identity objects).toList := by
  induction objects with
  | nil => rfl
  | cons o rest ih =>
    obtain ⟨fresh,others⟩ := nodup_cons.mp distinct
    by_cases same : o.identity = identity
    · have none : ∀ p ∈ rest, p.identity ≠ identity := by
        intro p mem equal
        exact fresh (mem_map.mpr ⟨p,mem,equal.trans same.symm⟩)
      simpa [called?,same] using none
    · simpa [called?,same] using ih others

namespace Discrete

variable (discrete : Discrete combine good)
include discrete

lemma absorb_fresh (goodDone : ∀ o ∈ done, good o) (goodPending : good pending)
    (fresh : ∀ o ∈ done, o.identity ≠ pending.identity)
    (ended : absorb combine rounds done pending = some res) : res = done ++ [pending] := by
  cases rounds with
  | zero =>
    cases ended
    rfl
  | succ rounds =>
    rcases absorb_succ ended with ⟨rfl,-⟩ | ⟨pre,o,after,_,rfl,combines,-⟩
    · rfl
    · have mem : o ∈ pre ++ o :: after := by simp
      exact absurd (discrete.whole (goodDone o mem) goodPending combines).2.1 (fresh o mem)

lemma absorb_cases (distinct : (done.map identity).Nodup) (goodDone : ∀ o ∈ done, good o)
    (goodPending : good pending) (ended : absorb combine done.length done pending = some res) :
    ∃ pre present after z, done = pre ++ toList present ++ after ∧ (∀ o ∈ pre ++ after, o.identity ≠ pending.identity) ∧
      (∀ o ∈ present, o.identity = pending.identity) ∧
      addTo combine present pending = some (some z) ∧ z.identity = pending.identity ∧ good z ∧
      res = pre ++ after ++ [z] := by
  cases length : done.length with
  | zero =>
    have empty : done = [] := length_eq_zero_iff.mp length
    subst empty
    cases ended
    exact ⟨[],none,[],pending,rfl,by simp,by simp,rfl,rfl,goodPending,rfl⟩
  | succ rounds =>
    rw [length] at ended
    rcases absorb_succ ended with ⟨rfl,none⟩ | ⟨pre,o,after,z,rfl,combines,ended⟩
    · refine ⟨done,.none,[],pending,by simp,fun o mem same => ?_,by simp,rfl,rfl, goodPending,by simp⟩
      exact discrete.same same (none o (by simpa using mem))
    · obtain ⟨goodZ,same,kept⟩ := discrete.whole (goodDone o (by simp)) goodPending combines
      have perm : (pre ++ o :: after).Perm (o :: (pre ++ after)) := perm_middle
      have alone := (nodup_cons.mp ((perm.map identity).nodup_iff.mp distinct)).1
      have absent : ∀ p ∈ pre ++ after, p.identity ≠ pending.identity := fun p mem equal =>
        alone (mem_map.mpr ⟨p,mem,equal.trans same.symm⟩)
      refine ⟨pre,some o,after,z,by simp,absent,by simpa using same,combines,kept,goodZ,?_⟩
      refine discrete.absorb_fresh (fun p mem => ?_) goodZ (kept ▸ absent) ended
      exact goodDone p (perm.mem_iff.mpr (mem_cons_of_mem _ mem))

lemma absorb_called (distinct : (done.map identity).Nodup) (goodDone : ∀ o ∈ done, good o)
    (goodPending : good pending) (ended : absorb combine done.length done pending = some res) :
    (res.map identity).Nodup ∧ (∀ o ∈ res, good o) ∧ (∀ identity, identity ≠ pending.identity →
        called? identity res = called? identity done) ∧
      addTo combine (called? pending.identity done) pending = some (called? pending.identity res) := by
  obtain ⟨pre,present,after,z,rfl,absent,named,added,kept,goodZ,rfl⟩ :=
    discrete.absorb_cases distinct goodDone goodPending ended
  have others : (pre ++ after).Sublist (pre ++ present.toList ++ after) := by simp
  refine ⟨?_,?_,fun identity differ => ?_,?_⟩
  · rw [map_append,nodup_append]
    refine ⟨distinct.sublist (others.map identity),by simp,?_⟩
    intro a inOthers b isWhole equal
    obtain ⟨p,mem,rfl⟩ := mem_map.mp inOthers
    simp only [map_cons,map_nil,mem_singleton] at isWhole
    exact absent p mem (equal.trans (isWhole.trans kept))
  · intro p mem
    rcases mem_append.mp mem with inOthers | isWhole
    · exact goodDone p (others.subset inOthers)
    · exact mem_singleton.mp isWhole ▸ goodZ
  · have skipZ : z.identity ≠ identity := fun equal => differ (equal.symm.trans kept)
    have skip : present.toList.find? (·.identity = identity) = none := by
      simpa using fun o mem equal => differ (equal.symm.trans (named o mem))
    simp [called?,find?_append,skip,skipZ]
  · have missing := called?_eq_none.mpr absent
    unfold called? at missing ⊢
    have only : present.toList.find? (·.identity = pending.identity) = present := by
      cases present with
      | none => rfl
      | some o => simp [named o rfl]
    simp only [find?_append,or_eq_none_iff] at missing
    simp [find?_append,missing,only,kept,added]

lemma foldl_absorb_called (distinct : (done.map identity).Nodup) (goodDone : ∀ o ∈ done, good o)
    (goodObjects : ∀ o ∈ objects, good o)
    (ended : objects.foldlM (fun done o => absorb combine done.length done o) done = some res)
    (identity : Identity) :
    (objects.filter (·.identity = identity)).foldlM (addTo combine) (called? identity done) =
      some (called? identity res) := by
  induction objects generalizing done with
  | nil =>
    cases ended
    rfl
  | cons o rest ih =>
    simp only [foldlM_cons,bind_eq_bind,bind_eq_some_iff] at ended
    obtain ⟨mid,first,ended⟩ := ended
    obtain ⟨goodO,goodRest⟩ := forall_mem_cons.mp goodObjects
    obtain ⟨distinct',goodMiddle,others,own⟩ := discrete.absorb_called distinct goodDone goodO first
    have later := ih distinct' goodMiddle goodRest ended
    by_cases same : o.identity = identity
    · subst same
      simp only [decide_true,filter_cons_of_pos,foldlM_cons,own]
      exact later
    · rw [filter_cons_of_neg (by simpa using same)]
      rwa [others identity (Ne.symm same)] at later

/-- Each object of two normal lists stays as it is, or is combined once, with the object of the
other list that is the same thing. -/
lemma normalizeObjects_once {left right : List Obj}
    (distinctLeft : (left.map identity).Nodup) (distinctRight : (right.map identity).Nodup)
    (goodLeft : ∀ o ∈ left, good o) (goodRight : ∀ o ∈ right, good o)
    (ended : normalizeObjects combine (left ++ right) = some res)
    (mem : x ∈ left ++ right) : ∃ z ∈ res, z = x ∨
      ∃ o ∈ left, ∃ p ∈ right, combine o p = some (some z) ∧ (x = o ∨ x = p) := by
  simp only [normalizeObjects,bind_eq_bind,bind_eq_some_iff] at ended
  obtain ⟨merged,folded,same⟩ := ended
  cases same
  have good (o : Obj) (mem : o ∈ left ++ right) : good o := (mem_append.mp mem).elim (goodLeft o) (goodRight o)
  have run := discrete.foldl_absorb_called (by simp) (by simp) good folded x.identity
  have present : x ∈ (left ++ right).filter (·.identity = x.identity) := by simpa using mem
  rw [filter_append,filter_called distinctLeft,filter_called distinctRight] at run present
  have found {z : Obj} (called : called? x.identity merged = some z) :
      z ∈ stableSort (fun a b => a.identity.notAfter b.identity) merged :=
    mem_stableSort.mpr (mem_of_find?_eq_some called)
  cases inLeft : called? x.identity left with
  | none =>
    cases inRight : called? x.identity right with
    | none => simp [inLeft,inRight] at present
    | some p =>
      simp only [inLeft,inRight,toList,nil_append,mem_singleton] at run present
      subst present
      exact ⟨x,found (some.inj run).symm,.inl rfl⟩
  | some o =>
    cases inRight : called? x.identity right with
    | none =>
      simp only [inLeft,inRight,toList,append_nil,mem_singleton] at run present
      subst present
      exact ⟨x,found (some.inj run).symm,.inl rfl⟩
    | some p =>
      simp only [inLeft,inRight,toList] at run present
      have combined : combine o p = some (called? x.identity merged) := by
        simpa [addTo,called?] using run
      cases called : called? x.identity merged with
      | none =>
        have ids : o.identity = p.identity := (called?_identity inLeft).trans (called?_identity inRight).symm
        exact absurd (called ▸ combined) (discrete.same ids)
      | some z =>
        refine ⟨z,found called,.inr ⟨o,mem_of_find?_eq_some inLeft,p,
          mem_of_find?_eq_some inRight,called ▸ combined,by simpa using present⟩⟩

end Discrete

end Discrete
end GradualJs
