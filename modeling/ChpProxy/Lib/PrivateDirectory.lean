import ChpProxy.Lib.FileSystem
import ChpProxy.Lib.Result

/-! What the updates do, and the directories of a process that others leave alone. -/
namespace FileSystem

variable {ι : Type} [DecidableEq ι] {process : Process ι} {v v' : Volume ι} {fate : Fate ι}
  {events : List (Event ι)} {d d' i x : ι} {name name' candidate : String} {mode : Mode}

namespace Volume

@[simp] theorem entries_link_self : (v.link d name i).entries d = (v.entries d).insert name i :=
  Function.update_self ..

@[simp] theorem entries_unlink_self : (v.unlink d name).entries d = (v.entries d).erase name :=
  Function.update_self ..

theorem entries_link_of_ne (h : x ≠ d) : (v.link d name i).entries x = v.entries x :=
  Function.update_of_ne h ..

theorem entries_unlink_of_ne (h : x ≠ d) : (v.unlink d name).entries x = v.entries x :=
  Function.update_of_ne h ..

@[simp] theorem entries_create_self (inode : Inode) : (v.create i inode).entries i = ∅ :=
  Function.update_self ..

theorem entries_create_of_ne (inode : Inode) (h : x ≠ i) :
    (v.create i inode).entries x = v.entries x :=
  Function.update_of_ne h ..

omit [DecidableEq ι] in
theorem lookup_eq_ok_iff : v.lookup d name = .ok i ↔ (v.entries d)[name]? = some i := by
  unfold lookup
  cases (v.entries d)[name]? <;> simp

omit [DecidableEq ι] in
theorem identity_of_stat {st : Stat ι} (h : v.stat i = .ok st) : st.identity = i := by
  unfold stat at h
  split at h
  · cases h
    rfl
  · cases h

theorem add_eq_ok {taken : Errno} {inode : Inode → Inode} {event : Event ι}
    (h : v.add fate d name taken inode event = some (.ok (v', events))) :
    ∃ parent, v.inodes d = some parent ∧ parent.kind = .directory ∧ (v.entries d)[name]? = none ∧
      v.inodes fate.identity = none ∧
      v' = (v.create fate.identity (inode parent)).link d name fate.identity ∧
      events = [event] := by
  unfold add at h
  split at h
  · cases h
  · next parent hparent =>
    split_ifs at h with hkind hname hfresh
    · cases h
    · cases h
    · cases h
      exact ⟨parent, hparent, by simpa using hkind, by simpa using hname, by simpa using hfresh,
        rfl, rfl⟩

end Volume

theorem chmodat_eq_ok
    (h : (Update.chmodat d name mode).perform process v fate = some (.ok (v', events))) :
    ∃ i inode, (v.entries d)[name]? = some i ∧ v.inodes i = some inode ∧
      v' = v.setInode i (some { inode with mode := mode }) ∧ events = [] := by
  obtain ⟨i, hi, h⟩ := Result.bind_eq_ok (Option.some.inj h)
  split at h
  · cases h
  · next inode hinode =>
    cases h
    exact ⟨i, inode, Volume.lookup_eq_ok_iff.mp hi, hinode, rfl, rfl⟩

theorem renameat_eq_ok
    (h : (Update.renameat d name d' name' true).perform process v fate =
      some (.ok (v', events))) :
    ∃ i, (v.entries d)[name]? = some i ∧ (v.entries d')[name']? = none ∧ i ≠ d' ∧
      v' = (v.unlink d name).link d' name' i ∧ events = [.moved d name d' name' i none] := by
  obtain ⟨i, hi, h⟩ := Result.bind_eq_ok (Option.some.inj h)
  dsimp only at h
  split_ifs at h with htaken hself
  have hfree : (v.entries d')[name']? = none := by simpa using htaken
  cases h
  exact ⟨i, Volume.lookup_eq_ok_iff.mp hi, hfree, hself, rfl, by rw [hfree]⟩

theorem unlinkat_eq_ok
    (h : (Update.unlinkat d name false).perform process v fate = some (.ok (v', events))) :
    ∃ i, (v.entries d)[name]? = some i ∧ v' = v.unlink d name ∧ events = [.unlinked d name i] := by
  obtain ⟨i, hi, h⟩ := Result.bind_eq_ok (Option.some.inj h)
  obtain ⟨st, hst, h⟩ := Result.bind_eq_ok h
  split_ifs at h with hkind
  cases h
  exact ⟨i, Volume.lookup_eq_ok_iff.mp hi, rfl, rfl⟩

theorem rmdirat_eq_ok
    (h : (Update.unlinkat d name true).perform process v fate = some (.ok (v', events))) :
    ∃ i, (v.entries d)[name]? = some i ∧ v.entries i = ∅ ∧
      v' = (v.unlink d name).setInode i none ∧ events = [.removed d name i] := by
  obtain ⟨i, hi, h⟩ := Result.bind_eq_ok (Option.some.inj h)
  obtain ⟨st, hst, h⟩ := Result.bind_eq_ok h
  split_ifs at h with hkind hempty
  cases h
  exact ⟨i, Volume.lookup_eq_ok_iff.mp hi, by simpa using hempty, rfl, rfl⟩

omit [DecidableEq ι] in
theorem statat_eq_ok {st : Stat ι}
    (h : (Query.statat d name).find process v fate = some (.ok st)) :
    (v.entries d)[name]? = some st.identity := by
  obtain ⟨i, hi, h⟩ := Result.bind_eq_ok (Option.some.inj h)
  rw [Volume.identity_of_stat h]
  exact Volume.lookup_eq_ok_iff.mp hi

omit [DecidableEq ι] in
theorem erase_insert {E : Std.ExtTreeMap String ι} (h : E[name]? = none) :
    (E.insert name i).erase name = E := by
  apply Std.ExtTreeMap.ext_getElem?
  intro k
  rw [Std.ExtTreeMap.getElem?_erase, Std.ExtTreeMap.getElem?_insert]
  by_cases hk : name = k
  · subst hk
    simpa using h.symm
  · simp [hk]

/-- A directory that the process made under `d` and has not removed, with what it holds. -/
structure Private (w : World ι) (d : ι) (name : String) (dir : ι)
    (contents : Std.ExtTreeMap String ι) : Prop where
  mine : (d, name, dir) ∈ privates w.log
  entry : (w.volume.entries d)[name]? = some dir
  contents : w.volume.entries dir = contents
  ne : dir ≠ d

variable {w : World ι} {retained dir : ι} {steady : Bool} {contents : Std.ExtTreeMap String ι}

theorem disturb_eq_some {w' : World ι}
    (h : (kernel process retained steady).disturb w v = some w') :
    Spares retained (privates w.log) w.volume v ∧ w' = ⟨v, w.log⟩ := by
  simp only [kernel] at h
  split_ifs at h with hspares
  cases h
  exact ⟨hspares, rfl⟩

theorem stable_log (P : List (Event ι) → Prop) :
    (kernel process retained steady).Stable fun w => P w.log := by
  intro w a w' hp ha
  obtain ⟨-, rfl⟩ := disturb_eq_some ha
  exact hp

theorem stable_private :
    (kernel process retained steady).Stable fun w => Private w d name dir contents := by
  intro w a w' hp ha
  obtain ⟨hspares, rfl⟩ := disturb_eq_some ha
  constructor
  · exact hp.mine
  · exact (hspares.entry _ hp.mine).trans hp.entry
  · exact (hspares.entries _ hp.mine).trans hp.contents
  · exact hp.ne

@[simp] theorem privates_concat (log : List (Event ι)) (e : Event ι) :
    privates (log ++ [e]) = track (privates log) e := by
  simp [privates]

theorem private_made
    (h : (Update.mkdirat d name mode).perform process w.volume fate = some (.ok (v', events))) :
    events = [.made d name fate.identity] ∧
      Private ⟨v', w.log ++ events⟩ d name fate.identity ∅ := by
  obtain ⟨parent, hparent, -, -, hfresh, rfl, rfl⟩ := Volume.add_eq_ok h
  have hne : fate.identity ≠ d := by
    intro he
    rw [he, hparent] at hfresh
    cases hfresh
  refine ⟨rfl, ?_⟩
  constructor
  · simp [track]
  · simp
  · rw [Volume.entries_link_of_ne hne]
    simp
  · exact hne

theorem Private.chmod (hp : Private w d name dir contents)
    (h : (Update.chmodat d' name' mode).perform process w.volume fate = some (.ok (v', events))) :
    events = [] ∧ Private ⟨v', w.log ++ events⟩ d name dir contents := by
  obtain ⟨i, inode, -, -, rfl, rfl⟩ := chmodat_eq_ok h
  refine ⟨rfl, ?_⟩
  rw [List.append_nil]
  exact ⟨hp.mine, hp.entry, hp.contents, hp.ne⟩

theorem Private.moveIn (hp : Private w d name dir contents)
    (h : (Update.renameat d name' dir candidate true).perform process w.volume fate =
      some (.ok (v', events))) :
    ∃ i, events = [.moved d name' dir candidate i none] ∧
      Private ⟨v', w.log ++ events⟩ d name dir (contents.insert candidate i) := by
  obtain ⟨i, hi, -, hself, rfl, rfl⟩ := renameat_eq_ok h
  -- what moves is not the directory itself, so it stands under another name
  have hname : name' ≠ name := by
    intro he
    rw [he, hp.entry] at hi
    exact hself (Option.some.inj hi).symm
  refine ⟨i, rfl, ?_⟩
  constructor
  · simpa [track] using hp.mine
  · show (((w.volume.unlink d name').link dir candidate i).entries d)[name]? = some dir
    rw [Volume.entries_link_of_ne hp.ne.symm, Volume.entries_unlink_self,
      Std.ExtTreeMap.getElem?_erase]
    simpa [hname] using hp.entry
  · show ((w.volume.unlink d name').link dir candidate i).entries dir = _
    rw [Volume.entries_link_self, Volume.entries_unlink_of_ne hp.ne, hp.contents]
  · exact hp.ne

theorem Private.moveOut (hp : Private w d name dir contents)
    (h : (Update.renameat dir candidate d name' true).perform process w.volume fate =
      some (.ok (v', events))) :
    ∃ i, contents[candidate]? = some i ∧ events = [.moved dir candidate d name' i none] ∧
      Private ⟨v', w.log ++ events⟩ d name dir (contents.erase candidate) := by
  obtain ⟨i, hi, hfree, -, rfl, rfl⟩ := renameat_eq_ok h
  rw [hp.contents] at hi
  have hname : name' ≠ name := by
    intro he
    rw [he, hp.entry] at hfree
    cases hfree
  refine ⟨i, hi, rfl, ?_⟩
  constructor
  · simpa [track] using hp.mine
  · show (((w.volume.unlink dir candidate).link d name' i).entries d)[name]? = some dir
    rw [Volume.entries_link_self, Volume.entries_unlink_of_ne hp.ne.symm,
      Std.ExtTreeMap.getElem?_insert]
    simpa [hname] using hp.entry
  · show ((w.volume.unlink dir candidate).link d name' i).entries dir = _
    rw [Volume.entries_link_of_ne hp.ne, Volume.entries_unlink_self, hp.contents]
  · exact hp.ne

theorem Private.unlink (hp : Private w d name dir contents)
    (h : (Update.unlinkat dir candidate false).perform process w.volume fate =
      some (.ok (v', events))) :
    ∃ i, contents[candidate]? = some i ∧ events = [.unlinked dir candidate i] ∧
      Private ⟨v', w.log ++ events⟩ d name dir (contents.erase candidate) := by
  obtain ⟨i, hi, rfl, rfl⟩ := unlinkat_eq_ok h
  rw [hp.contents] at hi
  refine ⟨i, hi, rfl, ?_⟩
  constructor
  · simpa [track] using hp.mine
  · show ((w.volume.unlink dir candidate).entries d)[name]? = some dir
    rw [Volume.entries_unlink_of_ne hp.ne.symm]
    exact hp.entry
  · show (w.volume.unlink dir candidate).entries dir = _
    rw [Volume.entries_unlink_self, hp.contents]
  · exact hp.ne

theorem Private.remove (hp : Private w d name dir contents)
    (h : (Update.unlinkat d name true).perform process w.volume fate = some (.ok (v', events))) :
    events = [.removed d name dir] := by
  obtain ⟨i, hi, -, rfl, rfl⟩ := rmdirat_eq_ok h
  rw [hp.entry] at hi
  cases hi
  rfl

end FileSystem
