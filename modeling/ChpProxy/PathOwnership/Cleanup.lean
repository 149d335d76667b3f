import ChpProxy.PathOwnership.Stages

/-! Cleanup of an owned entry never destroys a foreign file. -/
namespace ChpProxy

open FileSystem Interaction

namespace OwnedPath

variable {owned : OwnedPath} {w : World FileIdentity} {log : List (Event FileIdentity)}
  {q : UnixQuarantine} {i dir : FileIdentity} {name : String}

/-- The event moves the entry under the public name elsewhere. -/
def takes (owned : OwnedPath) : Event FileIdentity → Bool
  | .moved source name .. => source = owned.directory ∧ name = owned.publicName
  | _ => false

/-- The log of a cleanup that removed nothing but the owned entry and directories of its own, and
replaced nothing. -/
structure Innocent (owned : OwnedPath) (log : List (Event FileIdentity)) : Prop where
  unlinked : ∀ d name i, .unlinked d name i ∈ log → i = owned.identity
  removed : ∀ d name i, .removed d name i ∈ log → .made d name i ∈ log
  moved : ∀ s name d name' i replaced, .moved s name d name' i replaced ∈ log →
    replaced = none ∧ (owned.takes (.moved s name d name' i replaced) = true ∨
      d = owned.directory ∧ name' = owned.publicName)
  once : log.countP owned.takes ≤ 1

theorem Chores.innocent (h : owned.Chores log) : owned.Innocent log where
  unlinked d name i he := by rcases h _ he with ⟨_, _, he⟩ | ⟨_, _, he, _⟩ <;> cases he
  removed d name i he := by
    rcases h _ he with ⟨_, _, he⟩ | ⟨_, _, he, hmade⟩
    · cases he
    · cases he
      exact hmade
  moved s name d name' i replaced he := by
    rcases h _ he with ⟨_, _, he⟩ | ⟨_, _, he, _⟩ <;> cases he
  once := by
    rw [List.countP_eq_zero.mpr]
    · exact Nat.zero_le 1
    · intro e he
      rcases h _ he with ⟨_, _, rfl⟩ | ⟨_, _, rfl, _⟩ <;> simp [takes]

theorem Innocent.concat (h : owned.Innocent log) {e : Event FileIdentity}
    (hunlinked : ∀ d name i, e = .unlinked d name i → i = owned.identity)
    (hremoved : ∀ d name i, e = .removed d name i → .made d name i ∈ log)
    (hmoved : ∀ s name d name' i replaced, e = .moved s name d name' i replaced →
      replaced = none ∧ (owned.takes e = true ∨ d = owned.directory ∧ name' = owned.publicName))
    (honce : log.countP owned.takes + (if owned.takes e then 1 else 0) ≤ 1) :
    owned.Innocent (log ++ [e]) := by
  constructor
  · intro d name i he
    rcases List.mem_append.mp he with he | he
    · exact h.unlinked d name i he
    · exact hunlinked d name i (List.mem_singleton.mp he).symm
  · intro d name i he
    apply List.mem_append_left
    rcases List.mem_append.mp he with he | he
    · exact h.removed d name i he
    · exact hremoved d name i (List.mem_singleton.mp he).symm
  · intro s name d name' i replaced he
    rcases List.mem_append.mp he with he | he
    · exact h.moved s name d name' i replaced he
    · have he := List.mem_singleton.mp he
      rw [he]
      exact hmoved s name d name' i replaced he.symm
  · rw [List.countP_append, List.countP_singleton]
    exact honce

/-- The entry under the public name was taken once, as `i` into `q`. -/
structure Taken (owned : OwnedPath) (q : UnixQuarantine) (i : FileIdentity)
    (log : List (Event FileIdentity)) : Prop where
  innocent : owned.Innocent log
  made : .made owned.directory q.name q.identity ∈ log
  ne : q.identity ≠ owned.directory
  moved : .moved owned.directory owned.publicName q.identity privateCandidateName i none ∈ log
  only : ∀ e ∈ log, owned.takes e = true →
    e = .moved owned.directory owned.publicName q.identity privateCandidateName i none

theorem Chores.takes_eq_false (h : owned.Chores log) {e : Event FileIdentity} (he : e ∈ log) :
    owned.takes e = false := by
  rcases h _ he with ⟨_, _, rfl⟩ | ⟨_, _, rfl, _⟩ <;> rfl

theorem Quarantined.taken (h : owned.Quarantined q i log) : owned.Taken q i log := by
  obtain ⟨before, hchores, hmade, hne, rfl⟩ := h
  have hcount : before.countP owned.takes = 0 := by
    rw [List.countP_eq_zero]
    intro e he
    simp [hchores.takes_eq_false he]
  constructor
  · apply hchores.innocent.concat
    · nofun
    · nofun
    · intro s name d name' i replaced he
      cases he
      exact ⟨rfl, .inl (by simp [takes])⟩
    · rw [hcount]
      split <;> omega
  · exact List.mem_append_left _ hmade
  · exact hne
  · simp
  · intro e he ht
    rcases List.mem_append.mp he with he | he
    · rw [hchores.takes_eq_false he] at ht
      cases ht
    · exact List.mem_singleton.mp he

theorem Taken.concat (h : owned.Taken q i log) {e : Event FileIdentity}
    (ht : owned.takes e = false) (hi : owned.Innocent (log ++ [e])) :
    owned.Taken q i (log ++ [e]) := by
  constructor
  · exact hi
  · exact List.mem_append_left _ h.made
  · exact h.ne
  · exact List.mem_append_left _ h.moved
  · intro e' he' ht'
    rcases List.mem_append.mp he' with he' | he'
    · exact h.only e' he' ht'
    · rw [List.mem_singleton.mp he', ht] at ht'
      cases ht'

theorem Settled.taken (h : owned.Settled q i log) : owned.Taken q i log := by
  obtain ⟨before, hquarantined, h⟩ := h
  have htaken := hquarantined.taken
  have honce := htaken.innocent.once
  rcases h with ⟨hi, rfl⟩ | rfl
  · apply htaken.concat rfl
    apply htaken.innocent.concat
    · intro d name i' he
      cases he
      exact hi
    · nofun
    · nofun
    · simpa [takes] using honce
  · have htakes : owned.takes (.moved q.identity privateCandidateName owned.directory
        owned.publicName i none) = false := by
      simp [takes, htaken.ne]
    apply htaken.concat htakes
    apply htaken.innocent.concat
    · nofun
    · nofun
    · intro s name d name' i' replaced he
      cases he
      exact ⟨rfl, .inr ⟨rfl, rfl⟩⟩
    · simpa [htakes] using honce

theorem Finished.taken (h : owned.Finished q i log) : owned.Taken q i log := by
  obtain ⟨before, hsettled, rfl⟩ := h
  have htaken := hsettled.taken
  apply htaken.concat rfl
  apply htaken.innocent.concat
  · nofun
  · intro d name i' he
    cases he
    exact htaken.made
  · nofun
  · simpa [takes] using htaken.innocent.once

theorem Reached.innocent (h : owned.Reached w) : owned.Innocent w.log := by
  cases h with
  | searching h => exact h.innocent
  | holding q i h => exact h.quarantined.taken.innocent
  | settled q i h => exact h.taken.innocent
  | finished q i h => exact h.taken.innocent

/-- A foreign entry that is settled is back under the public name. -/
theorem Settled.restored (h : owned.Settled q i log) (hi : i ≠ owned.identity) :
    .moved q.identity privateCandidateName owned.directory owned.publicName i none ∈ log := by
  obtain ⟨before, -, ⟨hown, -⟩ | rfl⟩ := h
  · exact absurd hown hi
  · simp

theorem Finished.restored (h : owned.Finished q i log) (hi : i ≠ owned.identity) :
    .moved q.identity privateCandidateName owned.directory owned.publicName i none ∈ log := by
  obtain ⟨before, hsettled, rfl⟩ := h
  exact List.mem_append_left _ (hsettled.restored hi)

theorem takes_moved (owned : OwnedPath) (dir : FileIdentity) (name' : String) (i : FileIdentity)
    (replaced : Option FileIdentity) :
    owned.takes (.moved owned.directory owned.publicName dir name' i replaced) = true := by
  simp [takes]

/-- Where a foreign entry is that was taken: back under the public name, or in a private directory
that still has its entry. -/
theorem Reached.located (h : owned.Reached w) {name' : String} {replaced : Option FileIdentity}
    (hmoved : .moved owned.directory owned.publicName dir name' i replaced ∈ w.log)
    (hi : i ≠ owned.identity) :
    .moved dir name' owned.directory owned.publicName i none ∈ w.log ∨
      ∃ q, owned.Holding q i w ∧ dir = q.identity ∧ name' = privateCandidateName := by
  have htakes := owned.takes_moved dir name' i replaced
  cases h with
  | searching h =>
    rw [h.takes_eq_false hmoved] at htakes
    cases htakes
  | holding q i' h =>
    cases h.quarantined.taken.only _ hmoved htakes
    exact .inr ⟨q, h, rfl, rfl⟩
  | settled q i' h =>
    cases h.taken.only _ hmoved htakes
    exact .inl (h.restored hi)
  | finished q i' h =>
    cases h.taken.only _ hmoved htakes
    exact .inl (h.restored hi)

/-- The same once the cleanup has returned: the path it returns is that of the entry. -/
theorem Returned.located {result : OwnedPath × Option (List String)} (h : owned.Returned result w)
    {name' : String} {replaced : Option FileIdentity}
    (hmoved : .moved owned.directory owned.publicName dir name' i replaced ∈ w.log)
    (hi : i ≠ owned.identity) :
    .moved dir name' owned.directory owned.publicName i none ∈ w.log ∨
      ∃ q, owned.Holding q i w ∧ dir = q.identity ∧ name' = privateCandidateName ∧
        result.2 = some (owned.directoryPath ++ [q.name, privateCandidateName]) := by
  have htakes := owned.takes_moved dir name' i replaced
  obtain ⟨owner, path⟩ := result
  obtain ⟨-, h⟩ := h
  cases path with
  | none =>
    rcases h with h | ⟨q, i', h⟩
    · rw [h.takes_eq_false hmoved] at htakes
      cases htakes
    · cases h.taken.only _ hmoved htakes
      exact .inl (h.restored hi)
  | some path =>
    obtain ⟨q, i', rfl, h | h⟩ := h
    · cases h.quarantined.taken.only _ hmoved htakes
      exact .inr ⟨q, h, rfl, rfl, rfl⟩
    · cases h.taken.only _ hmoved htakes
      exact .inl (h.restored hi)

/-- A cleanup that took an entry and returns no path has removed its private directory. -/
theorem Returned.removed {owned' : OwnedPath} (h : owned.Returned (owned', none) w)
    {name' : String} {replaced : Option FileIdentity}
    (hmoved : .moved owned.directory owned.publicName dir name' i replaced ∈ w.log) :
    ∃ name, .removed owned.directory name dir ∈ w.log := by
  have htakes := owned.takes_moved dir name' i replaced
  rcases h.2 with h | ⟨q, i', h⟩
  · rw [h.takes_eq_false hmoved] at htakes
    cases htakes
  · cases h.taken.only _ hmoved htakes
    obtain ⟨before, -, hlog⟩ := h
    exact ⟨q.name, by simp [hlog]⟩

/-- A second cleanup does nothing. -/
theorem cleanup_of_inactive (h : owned.active = false) (uid : ℕ) :
    owned.cleanup uid = .done (owned, none) := by
  unfold cleanup
  rw [if_pos h]
  rfl

/-- Cleanup never destroys a foreign file. Others may change the entries of the directory between
any two calls, except for the private directory and what it holds, and any call may fail. Whenever
the cleanup has come some way, all that it has unlinked is the owned entry, all that it has removed
are directories that it made, its moves have replaced nothing, and it has taken the entry under the
public name at most once. An entry that was not the owned one is back under the public name, or
lies in the private directory whose path is returned. An owner that has been cleaned up does
nothing more, and when no path is returned for an entry that was taken, its private directory is
gone. -/
theorem cleanup_spares_foreign_files (process : Process FileIdentity) (owned : OwnedPath)
    (v : Volume FileIdentity) (turns : List (Turn (Volume FileIdentity) (Fate FileIdentity)))
    (w : World FileIdentity) (p : Sys (OwnedPath × Option (List String)))
    (h : (kernel process owned.directory false).run
      (⟨v, []⟩, owned.cleanup process.effectiveUid) turns = some (w, p)) :
    (∀ d name i, .unlinked d name i ∈ w.log → i = owned.identity) ∧
    (∀ d name i, .removed d name i ∈ w.log → .made d name i ∈ w.log) ∧
    (∀ s name d name' i replaced, .moved s name d name' i replaced ∈ w.log →
      replaced = none ∧ (s = owned.directory ∧ name = owned.publicName ∨
        d = owned.directory ∧ name' = owned.publicName)) ∧
    w.log.countP owned.takes ≤ 1 ∧
    (∀ dir name' i replaced,
      .moved owned.directory owned.publicName dir name' i replaced ∈ w.log →
      i ≠ owned.identity →
      .moved dir name' owned.directory owned.publicName i none ∈ w.log ∨
        ∃ name, (w.volume.entries owned.directory)[name]? = some dir ∧
          (w.volume.entries dir)[name']? = some i ∧
          ∀ owned' result, p = .done (owned', result) →
            result = some (owned.directoryPath ++ [name, name'])) ∧
    ∀ owned' result, p = .done (owned', result) →
      owned'.cleanup process.effectiveUid = .done (owned', none) ∧
      (result = none → ∀ dir name' i replaced,
        .moved owned.directory owned.publicName dir name' i replaced ∈ w.log →
          ∃ name, .removed owned.directory name dir ∈ w.log) := by
  have hchores : owned.Chores [] := nofun
  obtain ⟨hreached, hwp⟩ := System.wp_run stable_reached (.searching hchores)
    (wp_cleanup hchores) h
  have hinnocent := hreached.innocent
  refine ⟨hinnocent.unlinked, hinnocent.removed, ?_, hinnocent.once, ?_, ?_⟩
  · intro s name d name' i replaced hmoved
    obtain ⟨hnone, hform⟩ := hinnocent.moved s name d name' i replaced hmoved
    exact ⟨hnone, by simpa [takes] using hform⟩
  · intro dir name' i replaced hmoved hi
    cases p with
    | call c next =>
      rcases hreached.located hmoved hi with hback | ⟨q, hq, rfl, rfl⟩
      · exact .inl hback
      · refine .inr ⟨q.name, hq.isPrivate.entry, ?_, nofun⟩
        rw [hq.isPrivate.contents, Std.ExtTreeMap.getElem?_insert_self]
    | done returned =>
      have hreturned := System.post_of_wp_done hwp
      rcases hreturned.located hmoved hi with hback | ⟨q, hq, rfl, rfl, hpath⟩
      · exact .inl hback
      · refine .inr ⟨q.name, hq.isPrivate.entry, ?_, ?_⟩
        · rw [hq.isPrivate.contents, Std.ExtTreeMap.getElem?_insert_self]
        · intro owned' result he
          cases he
          exact hpath
  · intro owned' result hp
    subst hp
    have hreturned := System.post_of_wp_done hwp
    refine ⟨cleanup_of_inactive hreturned.1 _, ?_⟩
    intro hnone dir name' i replaced hmoved
    subst hnone
    exact hreturned.removed hmoved

/-- A directory with a file `pid`, and with a private directory of the process beside it. -/
def pidVolume (pid : FileIdentity) (own : List (String × FileIdentity)) : Volume FileIdentity where
  inodes i :=
    if i = ⟨0, 1⟩ then some ⟨.directory, 0, 0o755, false, false⟩
    else if i = ⟨0, 2⟩ ∨ i = ⟨0, 3⟩ then some ⟨.regular, 0, 0o644, false, false⟩
    else if i = ⟨0, 4⟩ ∧ own ≠ [] then some ⟨.directory, 0, 0o700, false, false⟩
    else none
  entries d := if d = ⟨0, 1⟩ then Std.ExtTreeMap.ofList (("pid", pid) :: own) else ∅

def pidOwner : OwnedPath :=
  ⟨[.normal "pid"], ⟨0, 2⟩, true, ⟨0, 1⟩, ["run"], "pid", ⟨["run"], ⟨⟨0, 1⟩, 0, 0⟩, []⟩⟩

def pidFate : Fate FileIdentity := ⟨none, ⟨0, 4⟩, List.replicate 16 0⟩

set_option maxRecDepth 4000 in
/-- The file is replaced by another one right before it is moved: the other one is moved back. -/
theorem cleanup_spares_replacement :
    ∃ w owned', ((kernel ⟨0, 0, ⟨0, 1⟩, fun _ => none⟩ pidOwner.directory false).run
        (⟨pidVolume ⟨0, 2⟩ [], []⟩, pidOwner.cleanup 0)
        (List.replicate 13 (.own pidFate) ++
          .others (pidVolume ⟨0, 3⟩
            [(".chp-cleanup-00000000000000000000000000000000", ⟨0, 4⟩)]) ::
          List.replicate 5 (.own pidFate)) = some (w, .done (owned', none)) ∧
      .moved ⟨0, 1⟩ "pid" ⟨0, 4⟩ "candidate" ⟨0, 3⟩ none ∈ w.log ∧
      .moved ⟨0, 4⟩ "candidate" ⟨0, 1⟩ "pid" ⟨0, 3⟩ none ∈ w.log) ∧
      ∃ name, .removed ⟨0, 1⟩ name ⟨0, 4⟩ ∈ w.log := by
  refine Exists.imp (fun w => Exists.imp fun owned' h => ⟨h, ?_⟩)
    ⟨_, _, rfl, by decide, by decide⟩
  obtain ⟨hrun, htaken, -⟩ := h
  have hcleanup := cleanup_spares_foreign_files _ pidOwner _ _ w _ hrun
  exact (hcleanup.2.2.2.2.2 owned' none rfl).2 rfl ⟨0, 4⟩ "candidate" ⟨0, 3⟩ none htaken

end OwnedPath

end ChpProxy
