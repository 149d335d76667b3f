import ChpProxy.Lib.PrivateDirectory

/-! What a process knows of a volume: a directory that others do not change, and everything that
the process has made. -/
namespace FileSystem

variable {ι : Type} [DecidableEq ι]

/-- What the process has made and not removed. -/
def keep (own : List ι) : Event ι → List ι
  | .made _ _ i | .bound _ _ i => i :: own
  | .unlinked _ _ i | .removed _ _ i => own.filter (· ≠ i)
  | .moved .. => own

def creations (log : List (Event ι)) : List ι := log.foldl keep []

@[simp] theorem creations_concat (log : List (Event ι)) (e : Event ι) :
    creations (log ++ [e]) = keep (creations log) e := by
  simp [creations]

/-- Others may change anything but a directory, the path that leads to it and what the process has
made. -/
structure Leaves (d : ι) (route : List (ι × String × ι)) (own : List ι) (v v' : Volume ι) :
    Prop where
  inodes : ∀ i ∈ d :: own, v'.inodes i = v.inodes i
  entries : ∀ i ∈ d :: own, v'.entries i = v.entries i
  route : ∀ e ∈ route, (v'.entries e.1)[e.2.1]? = (v.entries e.1)[e.2.1]?

instance (d : ι) (route : List (ι × String × ι)) (own : List ι) (v v' : Volume ι) :
    Decidable (Leaves d route own v v') :=
  decidable_of_iff
    ((∀ i ∈ d :: own, v'.inodes i = v.inodes i) ∧ (∀ i ∈ d :: own, v'.entries i = v.entries i) ∧
      ∀ e ∈ route, (v'.entries e.1)[e.2.1]? = (v.entries e.1)[e.2.1]?)
    ⟨fun ⟨hi, he, hr⟩ => ⟨hi, he, hr⟩, fun h => ⟨h.inodes, h.entries, h.route⟩⟩

/-- The calls of a process that works in the directory `d`, which nobody else changes. No call made
while cleaning up fails if the volume allows it. -/
def quiet (process : Process ι) (d : ι) (route : List (ι × String × ι)) :
    Interaction.System (World ι) (Volume ι) (Request ι) Request.Reply (Fate ι) :=
  { kernel process d true with
    disturb := fun w v =>
      if Leaves d route (creations w.log) w.volume v then some ⟨v, w.log⟩ else none }

structure Node (ι : Type) where
  inode : Inode
  entries : Std.ExtTreeMap String ι

abbrev Footprint (ι : Type) := ι → Option (Node ι)

/-- The footprint is `d`, perhaps, and all that the process has made. -/
structure Holds (d : ι) (H : Footprint ι) (w : World ι) : Prop where
  inodes : ∀ i n, H i = some n → w.volume.inodes i = some n.inode
  entries : ∀ i n, H i = some n → w.volume.entries i = n.entries
  mine : ∀ i, i ∈ creations w.log ↔ i ≠ d ∧ (H i).isSome

/-- A new node under a name in `x`. -/
def Footprint.grow (H : Footprint ι) (x : ι) (name : String) (i : ι) (m : Node ι) : Footprint ι :=
  Function.update (Function.update H i (some m)) x
    ((H x).map fun n => ⟨n.inode, n.entries.insert name i⟩)

/-- The node `n` at `x` has no such entry, and `i` is new. -/
structure Room (d : ι) (H : Footprint ι) (x : ι) (name : String) (n : Node ι) (i : ι) : Prop where
  base : (H d).isSome
  parent : H x = some n
  absent : n.entries[name]? = none
  fresh : H i = none

variable {process : Process ι} {route : List (ι × String × ι)} {H : Footprint ι} {w w' : World ι}
  {v v' : Volume ι} {log : List (Event ι)} {d x y i j q : ι} {name name' : String} {n m m' : Node ι}
  {fate : Fate ι} {events : List (Event ι)} {mode : Mode}

theorem quiet_disturb_eq_some (h : (quiet process d route).disturb w v = some w') :
    Leaves d route (creations w.log) w.volume v ∧ w' = ⟨v, w.log⟩ := by
  simp only [quiet] at h
  split_ifs at h with hleaves
  cases h
  exact ⟨hleaves, rfl⟩

theorem stable_holds : (quiet process d route).Stable (Holds d H) := by
  intro w a w' h ha
  obtain ⟨hleaves, rfl⟩ := quiet_disturb_eq_some ha
  have hknown : ∀ i n, H i = some n → i ∈ d :: creations w.log := by
    intro i n hi
    by_cases hd : i = d
    · simp [hd]
    · exact List.mem_cons_of_mem _ ((h.mine i).mpr ⟨hd, by simp [hi]⟩)
  constructor
  · intro i n hi
    exact (hleaves.inodes i (hknown i n hi)).trans (h.inodes i n hi)
  · intro i n hi
    exact (hleaves.entries i (hknown i n hi)).trans (h.entries i n hi)
  · exact h.mine

omit [DecidableEq ι] in
theorem entry_of_mem_route {names : List String} {e : ι × String × ι}
    (h : e ∈ v.route x names) : (v.entries e.1)[e.2.1]? = some e.2.2 := by
  induction names generalizing x with
  | nil => cases h
  | cons name names ih =>
    unfold Volume.route at h
    split at h
    · next i hi =>
      rcases List.mem_cons.mp h with rfl | hmem
      · exact hi
      · exact ih hmem
    · cases h

theorem stable_route :
    (quiet process d route).Stable fun w =>
      ∀ e ∈ route, (w.volume.entries e.1)[e.2.1]? = some e.2.2 := by
  intro w a w' h ha e he
  obtain ⟨hleaves, rfl⟩ := quiet_disturb_eq_some ha
  exact (hleaves.route e he).trans (h e he)

/-! ### Nodes that come and go -/

theorem Footprint.grow_of_ne (hx : j ≠ x) (hi : j ≠ i) : H.grow x name i m j = H j := by
  simp [Footprint.grow, hx, hi]

namespace Room

variable (r : Room d H x name n i)
include r

omit [DecidableEq ι] in
theorem ne : i ≠ x := by
  intro he
  have hfresh := r.fresh
  rw [he, r.parent] at hfresh
  cases hfresh

omit [DecidableEq ι] in
theorem ne_base : i ≠ d := by
  intro he
  have hbase := r.base
  rw [← he, r.fresh] at hbase
  cases hbase

theorem grow_parent : H.grow x name i m x = some ⟨n.inode, n.entries.insert name i⟩ := by
  simp [Footprint.grow, r.parent]

theorem grow_self : H.grow x name i m i = some m := by
  simp [Footprint.grow, r.ne]

theorem isSome_grow (hj : (H j).isSome) : (H.grow x name i m j).isSome := by
  by_cases hx : j = x
  · rw [hx, r.grow_parent]
    rfl
  · by_cases hi : j = i
    · rw [hi, r.grow_self]
      rfl
    · rw [Footprint.grow_of_ne hx hi]
      exact hj

theorem update_grow : Function.update (H.grow x name i m) i (some m') = H.grow x name i m' := by
  unfold Footprint.grow
  rw [Function.update_comm r.ne.symm, Function.update_idem]

end Room

omit [DecidableEq ι] in
theorem insert_comm (E : Std.ExtTreeMap String ι) (h : name ≠ name') :
    (E.insert name i).insert name' j = (E.insert name' j).insert name i := by
  apply Std.ExtTreeMap.ext_getElem?
  intro k
  simp only [Std.ExtTreeMap.getElem?_insert, Std.LawfulEqCmp.compare_eq_iff_eq]
  by_cases hk : name = k
  · subst hk
    simp [h.symm]
  · simp [hk]

theorem Room.shrink (r : Room d H x name n i) :
    Function.update (Function.update (H.grow x name i m) x
      (some ⟨n.inode, (n.entries.insert name i).erase name⟩)) i none = H := by
  rw [erase_insert r.absent]
  funext j
  by_cases hi : j = i
  · subst hi
    rw [Function.update_self, r.fresh]
  · rw [Function.update_of_ne hi]
    by_cases hx : j = x
    · subst hx
      rw [Function.update_self, r.parent]
    · rw [Function.update_of_ne hx, Footprint.grow_of_ne hx hi]

/-! ### What the updates do to a footprint -/

namespace Holds

theorem change (h : Holds d H ⟨v, log⟩) {known : Option (Node ι)} {log' : List (Event ι)}
    (hnode : ∀ k, known = some k → v'.inodes i = some k.inode ∧ v'.entries i = k.entries)
    (hinodes : ∀ j ≠ i, v'.inodes j = v.inodes j) (hentries : ∀ j ≠ i, v'.entries j = v.entries j)
    (hself : i ∈ creations log' ↔ i ≠ d ∧ known.isSome)
    (hothers : ∀ j ≠ i, (j ∈ creations log' ↔ j ∈ creations log)) :
    Holds d (Function.update H i known) ⟨v', log'⟩ := by
  constructor
  · intro j k hj
    by_cases he : j = i
    · subst he
      rw [Function.update_self] at hj
      exact (hnode k hj).1
    · rw [Function.update_of_ne he] at hj
      exact (hinodes j he).trans (h.inodes j k hj)
  · intro j k hj
    by_cases he : j = i
    · subst he
      rw [Function.update_self] at hj
      exact (hnode k hj).2
    · rw [Function.update_of_ne he] at hj
      exact (hentries j he).trans (h.entries j k hj)
  · intro j
    by_cases he : j = i
    · subst he
      rw [Function.update_self]
      exact hself
    · rw [Function.update_of_ne he]
      exact (hothers j he).trans (h.mine j)

theorem update (h : Holds d H ⟨v, log⟩) (hi : H i = some m) (hinode : v'.inodes i = some m'.inode)
    (hentries : v'.entries i = m'.entries) (hinodes : ∀ j ≠ i, v'.inodes j = v.inodes j)
    (hothers : ∀ j ≠ i, v'.entries j = v.entries j) :
    Holds d (Function.update H i (some m')) ⟨v', log⟩ := by
  apply h.change _ hinodes hothers
  · have hmine := h.mine i
    rw [hi] at hmine
    exact hmine
  · intro j _
    exact Iff.rfl
  · intro k hk
    cases hk
    exact ⟨hinode, hentries⟩

theorem link (h : Holds d H ⟨v, log⟩) (hx : H x = some n) (name : String) (i : ι) :
    Holds d (Function.update H x (some ⟨n.inode, n.entries.insert name i⟩))
      ⟨v.link x name i, log⟩ := by
  apply h.update hx
  · exact h.inodes x n hx
  · rw [Volume.entries_link_self, h.entries x n hx]
  · intro j _
    rfl
  · intro j hj
    exact Volume.entries_link_of_ne hj

theorem unlink (h : Holds d H ⟨v, log⟩) (hx : H x = some n) (name : String) :
    Holds d (Function.update H x (some ⟨n.inode, n.entries.erase name⟩))
      ⟨v.unlink x name, log⟩ := by
  apply h.update hx
  · exact h.inodes x n hx
  · rw [Volume.entries_unlink_self, h.entries x n hx]
  · intro j _
    rfl
  · intro j hj
    exact Volume.entries_unlink_of_ne hj

theorem setInode (h : Holds d H ⟨v, log⟩) (hi : H i = some m) (inode : Inode) :
    Holds d (Function.update H i (some ⟨inode, m.entries⟩)) ⟨v.setInode i (some inode), log⟩ := by
  apply h.update hi
  · exact Function.update_self ..
  · exact h.entries i m hi
  · intro j hj
    exact Function.update_of_ne hj ..
  · intro j _
    rfl

theorem create (h : Holds d H ⟨v, log⟩) (hd : i ≠ d) (inode : Inode) {event : Event ι}
    (hevent : ∀ own, keep own event = i :: own) :
    Holds d (Function.update H i (some ⟨inode, ∅⟩)) ⟨v.create i inode, log ++ [event]⟩ := by
  apply h.change
  · intro k hk
    cases hk
    exact ⟨Function.update_self .., Volume.entries_create_self _⟩
  · intro j hj
    exact Function.update_of_ne hj ..
  · intro j hj
    exact Volume.entries_create_of_ne _ hj
  · simp [hevent, hd]
  · intro j hj
    simp [hevent, hj]

theorem forget (h : Holds d H ⟨v, log⟩) (v' : Volume ι) (event : Event ι)
    (hevent : ∀ own, keep own event = own.filter (· ≠ i))
    (hinodes : ∀ j ≠ i, v'.inodes j = v.inodes j) (hentries : v'.entries = v.entries) :
    Holds d (Function.update H i none) ⟨v', log ++ [event]⟩ := by
  apply h.change _ hinodes
  · intro j _
    rw [hentries]
  · simp [hevent]
  · intro j hj
    simp [hevent, hj]
  · intro k hk
    cases hk

theorem moved (h : Holds d H ⟨v, log⟩) (x : ι) (name : String) (y : ι) (name' : String) (i : ι)
    (replaced : Option ι) : Holds d H ⟨v, log ++ [.moved x name y name' i replaced]⟩ := by
  constructor
  · exact h.inodes
  · exact h.entries
  · intro j
    rw [creations_concat]
    exact h.mine j

theorem add (h : Holds d H w) (hd : (H d).isSome) (hx : H x = some n) {taken : Errno}
    {inode : Inode → Inode} {event : Event ι} (hevent : ∀ own, keep own event = fate.identity :: own)
    (hadd : w.volume.add fate x name taken inode event = some (.ok (v', events))) :
    Room d H x name n fate.identity ∧
      Holds d (H.grow x name fate.identity ⟨inode n.inode, ∅⟩) ⟨v', w.log ++ events⟩ := by
  obtain ⟨parent, hparent, -, habsent, hfree, rfl, rfl⟩ := Volume.add_eq_ok hadd
  have hinode : parent = n.inode := by
    rw [h.inodes x n hx] at hparent
    exact (Option.some.inj hparent).symm
  subst hinode
  have hfresh : H fate.identity = none := by
    cases hi : H fate.identity with
    | none => rfl
    | some m =>
      rw [h.inodes _ m hi] at hfree
      cases hfree
  rw [h.entries x n hx] at habsent
  have room : Room d H x name n fate.identity := ⟨hd, hx, habsent, hfresh⟩
  refine ⟨room, ?_⟩
  have hcreated := h.create room.ne_base (inode n.inode) hevent
  have hx' : Function.update H fate.identity (some ⟨inode n.inode, ∅⟩) x = some n := by
    rw [Function.update_of_ne room.ne.symm, hx]
  have hlinked := hcreated.link hx' name fate.identity
  unfold Footprint.grow
  rw [hx]
  exact hlinked

theorem add_ne_error (h : Holds d H w) (hx : H x = some n) (hkind : n.inode.kind = .directory)
    (habsent : n.entries[name]? = none) {taken e : Errno} {inode : Inode → Inode}
    {event : Event ι} : w.volume.add fate x name taken inode event ≠ some (.error e) := by
  intro hadd
  have hname : name ∉ w.volume.entries x := by
    rw [h.entries x n hx]
    simpa using habsent
  unfold Volume.add at hadd
  rw [h.inodes x n hx] at hadd
  dsimp only at hadd
  rw [if_neg (by simp [hkind]), if_neg hname] at hadd
  split_ifs at hadd
  cases hadd

theorem stat (h : Holds d H w) (hi : H i = some m) :
    w.volume.stat i = .ok ⟨i, m.inode.kind, m.inode.owner, m.inode.mode⟩ := by
  unfold Volume.stat
  rw [h.inodes i m hi]

theorem fgetxattr (h : Holds d H w) (hi : H i = some m) (haccess : m.inode.accessAcl = false)
    (hdefault : m.inode.defaultAcl = false) :
    (Query.fgetxattr i name).find process w.volume fate = some (.error .nodata) := by
  simp only [Query.find, h.inodes i m hi, haccess, hdefault]
  simp

end Holds

/-- The update succeeds and makes of one footprint the other. -/
def Allows (process : Process ι) (d : ι) (u : Update ι) (H H' : Footprint ι) : Prop :=
  ∀ w fate, Holds d H w → ∃ v events, u.perform process w.volume fate = some (.ok (v, events)) ∧
    Holds d H' ⟨v, w.log ++ events⟩

section Grown

variable (r : Room d H x name n i)
include r

theorem Room.lookup (h : Holds d (H.grow x name i m) w) : w.volume.lookup x name = .ok i := by
  rw [Volume.lookup_eq_ok_iff, h.entries x _ r.grow_parent]
  simp

theorem Room.statat (h : Holds d (H.grow x name i m) w) :
    (Query.statat x name).find process w.volume fate =
      some (.ok ⟨i, m.inode.kind, m.inode.owner, m.inode.mode⟩) := by
  show some (w.volume.lookup x name >>= w.volume.stat) = _
  rw [r.lookup h]
  exact congrArg some (h.stat r.grow_self)

theorem Room.openat (h : Holds d (H.grow x name i m) w) (hkind : m.inode.kind = .directory) :
    (Query.openat x name).find process w.volume fate = some (.ok i) := by
  show some (w.volume.lookup x name >>= fun i => w.volume.stat i >>= fun st =>
    if st.kind = .directory then .ok i else .error .notdir) = _
  rw [r.lookup h]
  show some (w.volume.stat i >>= _) = _
  rw [h.stat r.grow_self]
  exact congrArg some (if_pos hkind)

theorem Room.chmodat :
    Allows process d (.chmodat x name mode) (H.grow x name i m)
      (H.grow x name i ⟨{ m.inode with mode := mode }, m.entries⟩) := by
  intro w fate h
  have hholds := h.setInode r.grow_self { m.inode with mode := mode }
  rw [r.update_grow] at hholds
  refine ⟨w.volume.setInode i (some { m.inode with mode := mode }), [], ?_, ?_⟩
  · simp only [Update.perform, r.lookup h, bind, Except.bind, h.inodes i m r.grow_self]
  · rw [List.append_nil]
    exact hholds

theorem Room.unlinkat (hkind : m.inode.kind ≠ .directory) :
    Allows process d (.unlinkat x name false) (H.grow x name i m) H := by
  intro w fate h
  refine ⟨w.volume.unlink x name, [.unlinked x name i], ?_, ?_⟩
  · simp only [Update.perform, r.lookup h, h.stat r.grow_self, bind, Except.bind, if_neg hkind]
  · have hholds := (h.unlink r.grow_parent name).forget (w.volume.unlink x name)
      (.unlinked x name i) (fun _ => rfl) (fun _ _ => rfl) rfl
    rw [r.shrink] at hholds
    exact hholds

theorem Room.rmdirat (hkind : m.inode.kind = .directory) (hempty : m.entries = ∅) :
    Allows process d (.unlinkat x name true) (H.grow x name i m) H := by
  intro w fate h
  refine ⟨(w.volume.unlink x name).setInode i none, [.removed x name i], ?_, ?_⟩
  · simp [Update.perform, r.lookup h, h.stat r.grow_self, bind, Except.bind, hkind,
      h.entries i m r.grow_self, hempty]
  · have hholds := (h.unlink r.grow_parent name).forget
      ((w.volume.unlink x name).setInode i none) (.removed x name i) (fun _ => rfl)
      (fun j hj => Function.update_of_ne hj ..) rfl
    rw [r.shrink] at hholds
    exact hholds

end Grown

/-! ### Moving a node between a directory and a directory in it -/

section Moved

variable {E : Std.ExtTreeMap String ι} {candidate : String} {k : Node ι}

theorem Room.beside (r : Room d H x name n i) (r' : Room d (H.grow x name i m) x name' k q) :
    k = ⟨n.inode, n.entries.insert name i⟩ ∧ name' ≠ name ∧ n.entries[name']? = none ∧ q ≠ i ∧
      Room d H x name' n q := by
  have hk : k = ⟨n.inode, n.entries.insert name i⟩ := by
    have hparent := r'.parent
    rw [r.grow_parent] at hparent
    exact (Option.some.inj hparent).symm
  have habsent := r'.absent
  rw [hk, Std.ExtTreeMap.getElem?_insert] at habsent
  have hne : name' ≠ name := by
    intro he
    simp [he] at habsent
  have hnone : n.entries[name']? = none := by simpa [hne.symm] using habsent
  have hqi : q ≠ i := by
    intro he
    have hfresh := r'.fresh
    rw [he, r.grow_self] at hfresh
    cases hfresh
  have hfresh : H q = none := by
    have hfresh := r'.fresh
    rwa [Footprint.grow_of_ne r'.ne hqi] at hfresh
  exact ⟨hk, hne, hnone, hqi, r.base, r.parent, hnone, hfresh⟩

theorem Room.inside (r : Room d H x name n i) (r' : Room d (H.grow x name i m) x name' k q)
    (candidate : String) (habsent : m'.entries[candidate]? = none) :
    Room d (H.grow x name' q m') q candidate m' i := by
  obtain ⟨-, -, -, hqi, room⟩ := r.beside r'
  constructor
  · exact room.isSome_grow r.base
  · exact room.grow_self
  · exact habsent
  · rw [Footprint.grow_of_ne r.ne hqi.symm, r.fresh]

theorem Room.moveIn (r : Room d H x name n i) (r' : Room d (H.grow x name i m) x name' k q)
    (candidate : String) (habsent : m'.entries[candidate]? = none) :
    Allows process d (.renameat x name q candidate true)
      ((H.grow x name i m).grow x name' q m') ((H.grow x name' q m').grow q candidate i m) := by
  obtain ⟨hk, hne, -, hqi, room⟩ := r.beside r'
  have inside := r.inside r' candidate habsent
  intro w fate h
  have hx := h.entries x _ r'.grow_parent
  have hq := h.entries q _ r'.grow_self
  have hlookup : w.volume.lookup x name = .ok i := by
    rw [Volume.lookup_eq_ok_iff, hx, hk]
    show ((n.entries.insert name i).insert name' q)[name]? = some i
    rw [Std.ExtTreeMap.getElem?_insert]
    simp [hne]
  refine ⟨(w.volume.unlink x name).link q candidate i, [.moved x name q candidate i none], ?_, ?_⟩
  · simp [Update.perform, hlookup, bind, Except.bind, hq, habsent, hqi.symm]
  · have hq' : Function.update ((H.grow x name i m).grow x name' q m') x
        (some ⟨k.inode, (k.entries.insert name' q).erase name⟩) q = some m' := by
      rw [Function.update_of_ne r'.ne, r'.grow_self]
    have hholds := ((h.unlink r'.grow_parent name).link hq' candidate i).moved x name q
      candidate i none
    refine Eq.subst (motive := fun G => Holds d G _) ?_ hholds
    -- the parent has lost the first node again, and the second node has it
    have herase : (k.entries.insert name' q).erase name = n.entries.insert name' q := by
      rw [hk]
      show ((n.entries.insert name i).insert name' q).erase name = _
      rw [insert_comm _ hne.symm, erase_insert]
      simpa [Std.ExtTreeMap.getElem?_insert, hne] using r.absent
    rw [herase]
    funext j
    by_cases hjq : j = q
    · subst hjq
      rw [Function.update_self, inside.grow_parent]
    · rw [Function.update_of_ne hjq]
      by_cases hjx : j = x
      · subst hjx
        rw [Function.update_self, Footprint.grow_of_ne r'.ne.symm r.ne.symm, room.grow_parent, hk]
      · rw [Function.update_of_ne hjx, Footprint.grow_of_ne hjx hjq]
        by_cases hji : j = i
        · subst hji
          rw [r.grow_self, inside.grow_self]
        · rw [Footprint.grow_of_ne hjx hji, Footprint.grow_of_ne hjq hji,
            Footprint.grow_of_ne hjx hjq]

theorem Room.moveOut (r : Room d H x name n q)
    (r' : Room d (H.grow x name q m') q candidate m' i)
    (h : Holds d ((H.grow x name q m').grow q candidate i m) w)
    (hperform : (Update.renameat q candidate x name' true).perform process w.volume fate =
      some (.ok (v', events))) :
    Room d H x name' n i ∧
      Room d (H.grow x name' i m) x name ⟨n.inode, n.entries.insert name' i⟩ q ∧
      Holds d ((H.grow x name' i m).grow x name q m') ⟨v', w.log ++ events⟩ := by
  obtain ⟨i', hi', hfree, hix, rfl, rfl⟩ := renameat_eq_ok hperform
  have hi : i' = i := by
    rw [h.entries q _ r'.grow_parent] at hi'
    simpa using hi'.symm
  subst hi
  have hparent : (H.grow x name q m').grow q candidate i' m x =
      some ⟨n.inode, n.entries.insert name q⟩ := by
    rw [Footprint.grow_of_ne r.ne.symm hix.symm, r.grow_parent]
  rw [h.entries x _ hparent, Std.ExtTreeMap.getElem?_insert] at hfree
  have hne : name ≠ name' := by
    intro he
    simp [he] at hfree
  have habsent : n.entries[name']? = none := by simpa [hne] using hfree
  have hfresh : H i' = none := by
    have hfresh := r'.fresh
    rwa [Footprint.grow_of_ne hix r'.ne] at hfresh
  have room : Room d H x name' n i' := ⟨r.base, r.parent, habsent, hfresh⟩
  have beside : Room d (H.grow x name' i' m) x name ⟨n.inode, n.entries.insert name' i'⟩ q := by
    constructor
    · exact room.isSome_grow r.base
    · exact room.grow_parent
    · simpa [Std.ExtTreeMap.getElem?_insert, hne.symm] using r.absent
    · rw [Footprint.grow_of_ne r.ne r'.ne.symm, r.fresh]
  refine ⟨room, beside, ?_⟩
  have hx' : Function.update ((H.grow x name q m').grow q candidate i' m) q
      (some ⟨m'.inode, (m'.entries.insert candidate i').erase candidate⟩) x =
        some ⟨n.inode, n.entries.insert name q⟩ := by
    rw [Function.update_of_ne r.ne.symm, hparent]
  have hholds := ((h.unlink r'.grow_parent candidate).link hx' name' i').moved q candidate x
    name' i' none
  refine Eq.subst (motive := fun G => Holds d G _) ?_ hholds
  rw [erase_insert r'.absent]
  funext j
  by_cases hjx : j = x
  · subst hjx
    rw [Function.update_self, beside.grow_parent, insert_comm _ hne]
  · rw [Function.update_of_ne hjx]
    by_cases hjq : j = q
    · subst hjq
      rw [Function.update_self, beside.grow_self]
    · rw [Function.update_of_ne hjq, Footprint.grow_of_ne hjx hjq]
      by_cases hji : j = i'
      · subst hji
        rw [r'.grow_self, room.grow_self]
      · rw [Footprint.grow_of_ne hjq hji, Footprint.grow_of_ne hjx hjq,
          Footprint.grow_of_ne hjx hji]

end Moved

end FileSystem
