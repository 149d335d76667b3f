import ChpProxy.PathOwnership.Unwinding

/-! What the guards of a private directory and the owner of an entry take back. -/
namespace ChpProxy

open FileSystem Interaction Io Fallible Site

variable {s : Site} {cleaning : Bool} {H : Footprint FileIdentity} {x i : FileIdentity}
  {name : String} {n m : Node FileIdentity}

/-- A directory with a safe owner and mode and no ACL. -/
structure Admissible (uid : ℕ) (inode : Inode) : Prop where
  kind : inode.kind = .directory
  safe : boundaryModeIsSafe inode.mode inode.owner uid = true
  accessAcl : inode.accessAcl = false
  defaultAcl : inode.defaultAcl = false

/-- The directory `x` passes the authentication against the boundary. -/
structure Authentic (uid : ℕ) (boundary : AuthenticatedBoundary) (x : FileIdentity)
    (inode : Inode) : Prop extends Admissible uid inode where
  last : boundary.last = ⟨x, inode.owner, inode.mode &&& (sticky ||| 0o022)⟩

def privateInode (uid : ℕ) (mode : Mode) : Inode := ⟨.directory, uid, mode, false, false⟩

theorem admissible_privateInode (uid : ℕ) : Admissible uid (privateInode uid 0o700) := by
  constructor
  · rfl
  · simp [boundaryModeIsSafe, privateInode]
  · rfl
  · rfl

theorem tries_fstat (hx : H x = some n) :
    s.Tries cleaning (fstat x) (· = H)
      (fun st H' => st = ⟨x, n.inode.kind, n.inode.owner, n.inode.mode⟩ ∧ H' = H) H := by
  apply tries_query (q := .fstat x)
  intro w fate hw
  exact congrArg some (hw.stat hx)

theorem tries_fromFile (hx : H x = some n) :
    s.Tries cleaning (FileIdentity.fromFile x) (· = H) (fun identity H' => identity = x ∧ H' = H)
      H := by
  apply tries_bind (tries_fstat hx)
  intro st H' ⟨hst, hH⟩
  rw [hst, hH]
  exact tries_pure ⟨rfl, rfl⟩

theorem tries_authenticateAclAttribute (hx : H x = some n) (haccess : n.inode.accessAcl = false)
    (hdefault : n.inode.defaultAcl = false) (name : String) :
    s.Tries cleaning (authenticateAclAttribute x name) (· = H) (fun _ H' => H' = H) H := by
  apply ends_ask
  · intro w fate reply hw hfind
    rw [hw.fgetxattr hx haccess hdefault] at hfind
    obtain rfl := Option.some.inj hfind
    exact ends_done rfl
  · intro hc e hdata
    -- every error but the one for a missing attribute is passed on
    cases e with
    | nodata => exact absurd rfl hdata
    | _ => exact ends_done ⟨hc, rfl⟩

theorem tries_authenticateDirectoryAcl (hx : H x = some n) (haccess : n.inode.accessAcl = false)
    (hdefault : n.inode.defaultAcl = false) :
    s.Tries cleaning (authenticateDirectoryAcl x) (· = H) (fun _ H' => H' = H) H := by
  apply tries_bind (tries_authenticateAclAttribute hx haccess hdefault _)
  intro _ H' hH
  rw [hH]
  exact tries_authenticateAclAttribute hx haccess hdefault _

theorem tries_authenticateBoundaryDirectory {uid : ℕ} (hx : H x = some n)
    (admissible : Admissible uid n.inode) :
    s.Tries cleaning (authenticateBoundaryDirectory uid x) (· = H)
      (fun authority H' => authority = ⟨n.inode.owner, n.inode.mode &&& (sticky ||| 0o022)⟩ ∧
        H' = H) H := by
  apply tries_bind (tries_fstat hx)
  intro st H' ⟨hst, hH⟩
  rw [hst, hH]
  apply tries_bind (tries_ensure fun _ => by simp [admissible.kind, admissible.safe])
  intro _ H' ⟨hH, _⟩
  rw [hH]
  apply tries_bind (tries_authenticateDirectoryAcl hx admissible.accessAcl admissible.defaultAcl)
  intro _ H' hH
  exact tries_pure ⟨rfl, hH⟩

theorem tries_authenticateRetained {uid : ℕ} {boundary : AuthenticatedBoundary} (hx : H x = some n)
    (auth : Authentic uid boundary x n.inode) :
    s.Tries cleaning (boundary.authenticateRetained uid x) (· = H) (fun _ H' => H' = H) H := by
  apply tries_bind (tries_authenticateBoundaryDirectory hx auth.toAdmissible)
  intro authority H' ⟨hauthority, hH⟩
  rw [hauthority, hH]
  apply tries_bind (tries_fromFile hx)
  intro identity H' ⟨hidentity, hH⟩
  rw [hidentity, hH]
  apply tries_mono (tries_ensure fun _ => by simp [auth.last]) (fun _ h => h)
  intro _ H' ⟨hH, _⟩
  exact hH

/-! ### A private directory -/

theorem tries_statat (r : Room s.directory H x name n i) :
    s.Tries cleaning (statat x name) (· = H.grow x name i m)
      (fun st H' => st = ⟨i, m.inode.kind, m.inode.owner, m.inode.mode⟩ ∧
        H' = H.grow x name i m) (H.grow x name i m) := by
  apply tries_query (q := .statat x name)
  intro w fate hw
  exact r.statat hw

theorem tries_openDirectoryAt (r : Room s.directory H x name n i)
    (hkind : m.inode.kind = .directory) :
    s.Tries cleaning (openDirectoryAt x name) (· = H.grow x name i m)
      (fun directory H' => directory = i ∧ H' = H.grow x name i m) (H.grow x name i m) := by
  apply tries_query (q := .openat x name)
  intro w fate hw
  exact r.openat hw hkind

/-- A guard takes back an empty directory that passes its check. -/
theorem ends_dropGuard {uid : ℕ} {boundary : AuthenticatedBoundary}
    {check : Stat FileIdentity → Bool} (r : Room s.directory H x name n i)
    (auth : Authentic uid boundary x n.inode) (hkind : m.inode.kind = .directory)
    (hempty : m.entries = ∅)
    (hcheck : check ⟨i, m.inode.kind, m.inode.owner, m.inode.mode⟩ = true) :
    s.Ends false (dropGuard uid boundary x name check) (fun _ H' => H' = H)
      (H.grow x name i m) := by
  apply ends_unwind
  apply ends_run (tries_authenticateRetained r.grow_parent auth)
  intro _ H' hH
  rw [hH]
  apply ends_run (tries_statat r)
  intro st H' ⟨hst, hH⟩
  rw [hst, hH]
  dsimp only
  rw [if_pos hcheck]
  apply ends_run (tries_update (r.rmdirat hkind hempty))
  intro _ H' hH
  exact ends_done hH

theorem tries_mkdirat (hd : (H s.directory).isSome) (hx : H x = some n)
    (hkind : n.inode.kind = .directory) (habsent : cleaning = true → n.entries[name]? = none)
    (mode : Mode) :
    s.Tries cleaning (update (.mkdirat x name mode)) (· = H)
      (fun _ H' => ∃ i, Room s.directory H x name n i ∧
        H' = H.grow x name i ⟨s.process.directoryIn n.inode mode, ∅⟩) H := by
  apply tries_command
  · intro w fate v events hw hperform
    obtain ⟨room, hholds⟩ := hw.add hd hx (fun _ => rfl) hperform
    exact ⟨_, hholds, fate.identity, room, rfl⟩
  · intro hc w fate e hw
    exact hw.add_ne_error hx hkind (habsent hc)

/-- Without the set-group-ID bit and a default ACL to inherit, a new directory is private. -/
theorem directoryIn_eq {uid : ℕ} {boundary : AuthenticatedBoundary} {inode : Inode}
    (auth : Authentic uid boundary x inode) (hgroup : inode.mode &&& setGroupId = 0) (mode : Mode) :
    s.process.directoryIn inode mode =
      privateInode s.process.effectiveUid (mode &&& ~~~s.process.umask) := by
  unfold Process.directoryIn privateInode
  rw [hgroup, auth.defaultAcl]
  simp

theorem tries_provisionalIdentity {uid : ℕ} {mode : Mode} {E : Std.ExtTreeMap String FileIdentity}
    (r : Room s.directory H x name n i) (hmode : mode &&& ~~~0o700 = 0) :
    s.Tries cleaning (provisionalIdentity uid x name)
      (· = H.grow x name i ⟨privateInode uid mode, E⟩)
      (fun identity H' => identity = i ∧ H' = H.grow x name i ⟨privateInode uid mode, E⟩)
      (H.grow x name i ⟨privateInode uid mode, E⟩) := by
  apply tries_bind (tries_statat r)
  intro st H' ⟨hst, hH⟩
  rw [hst, hH]
  have hcheck : ((privateInode uid mode).kind == .directory &&
      (privateInode uid mode).owner == uid &&
      (privateInode uid mode).mode &&& ~~~0o700 == 0) = true := by
    unfold privateInode
    simp only [beq_self_eq_true, Bool.true_and, beq_iff_eq]
    exact hmode
  apply tries_bind (tries_ensure fun _ => hcheck)
  intro _ H' ⟨hH, _⟩
  exact tries_pure ⟨rfl, hH⟩

theorem tries_normalizedDirectory {uid : ℕ} {mode : Mode} {E : Std.ExtTreeMap String FileIdentity}
    (r : Room s.directory H x name n i) :
    s.Tries cleaning (normalizedDirectory uid x name i)
      (fun H' => ∃ mode, H' = H.grow x name i ⟨privateInode uid mode, E⟩)
      (fun p H' => p = (i, i) ∧ H' = H.grow x name i ⟨privateInode uid 0o700, E⟩)
      (H.grow x name i ⟨privateInode uid mode, E⟩) := by
  have hnormal : ∀ H', H' = H.grow x name i ⟨privateInode uid 0o700, E⟩ →
      ∃ mode, H' = H.grow x name i ⟨privateInode uid mode, E⟩ :=
    fun H' hH => ⟨0o700, hH⟩
  apply tries_then (tries_update r.chmodat) (fun H' hH => ⟨mode, hH⟩)
  intro _ H' hH
  rw [hH]
  apply tries_then (tries_statat r) hnormal
  intro st H' ⟨hst, hH⟩
  rw [hst, hH]
  apply tries_then (tries_ensure fun _ => by simp [privateInode]) hnormal
  intro _ H' ⟨hH, _⟩
  rw [hH]
  apply tries_then (tries_openDirectoryAt r rfl) hnormal
  intro directory H' ⟨hdirectory, hH⟩
  rw [hdirectory, hH]
  apply tries_then (tries_fstat r.grow_self) hnormal
  intro st H' ⟨hst, hH⟩
  rw [hst, hH]
  apply tries_then (tries_ensure fun _ => by simp [privateInode]) hnormal
  intro _ H' ⟨hH, _⟩
  rw [hH]
  apply tries_then (tries_authenticateDirectoryAcl r.grow_self rfl rfl) hnormal
  intro _ H' hH
  exact tries_pure ⟨rfl, hH⟩

/-- The provisional guard takes the directory back, whatever the mask has left of its mode. -/
theorem tries_provisional {uid : ℕ} {boundary : AuthenticatedBoundary} {mode : Mode}
    (r : Room s.directory H x name n i) (auth : Authentic uid boundary x n.inode)
    (hmode : mode &&& ~~~0o700 = 0) :
    s.Tries cleaning ((provisionalIdentity uid x name).onError
        (ProvisionalPrivateDirectoryGuard.drop uid boundary x name)) (· = H)
      (fun identity H' => identity = i ∧ H' = H.grow x name i ⟨privateInode uid mode, ∅⟩)
      (H.grow x name i ⟨privateInode uid mode, ∅⟩) := by
  have hcheck : (mode &&& ~~~0o700 == 0) = true := beq_iff_eq.mpr hmode
  apply tries_onError _ (tries_provisionalIdentity r hmode)
  intro _ H' hH
  rw [hH]
  exact ends_dropGuard r auth rfl rfl (by simpa [privateInode] using hcheck)

/-- The guard that knows the identity takes the directory back. -/
theorem tries_normalized {uid : ℕ} {boundary : AuthenticatedBoundary} {mode : Mode}
    (r : Room s.directory H x name n i) (auth : Authentic uid boundary x n.inode) :
    s.Tries cleaning ((normalizedDirectory uid x name i).onError
        (PrivateNamespaceGuard.drop uid boundary x name i)) (· = H)
      (fun p H' => p = (i, i) ∧ H' = H.grow x name i ⟨privateInode uid 0o700, ∅⟩)
      (H.grow x name i ⟨privateInode uid mode, ∅⟩) := by
  apply tries_onError _ (tries_normalizedDirectory r)
  intro _ H' ⟨mode, hH⟩
  rw [hH]
  exact ends_dropGuard r auth rfl rfl (by simp)

/-- A private directory is created, or everything is as before. -/
theorem tries_createAuthenticatedPrivateDirectory {boundary : AuthenticatedBoundary}
    (hd : (H s.directory).isSome) (hx : H x = some n)
    (auth : Authentic s.process.effectiveUid boundary x n.inode)
    (hgroup : n.inode.mode &&& setGroupId = 0)
    (habsent : cleaning = true → n.entries[name]? = none) :
    s.Tries cleaning
      (createAuthenticatedPrivateDirectory s.process.effectiveUid x boundary name) (· = H)
      (fun p H' => ∃ i, p = (i, i) ∧ Room s.directory H x name n i ∧
        H' = H.grow x name i ⟨privateInode s.process.effectiveUid 0o700, ∅⟩) H := by
  have hmode : 0o700 &&& ~~~s.process.umask &&& ~~~0o700 = (0 : Mode) := by
    rw [BitVec.and_comm, ← BitVec.and_assoc]
    simp
  apply tries_bind (tries_mkdirat hd hx auth.kind habsent _)
  intro _ H' ⟨i, room, hH⟩
  rw [hH, directoryIn_eq auth hgroup]
  apply tries_bind (tries_provisional room auth hmode)
  intro identity H' ⟨hidentity, hH⟩
  rw [hidentity, hH]
  apply tries_mono (tries_normalized room auth) (fun _ h => h)
  intro p H' ⟨hp, hH⟩
  exact ⟨i, hp, room, hH⟩

theorem tries_randomName (stem : String) (count : ℕ) (message : String) :
    s.Tries cleaning (randomName stem count message) (· = H)
      (fun name H' => (∃ bytes, name = stem ++ hexSuffix bytes) ∧ H' = H) H := by
  apply ends_ask
  · intro w fate reply hw hfind
    simp only [Query.find] at hfind
    split_ifs at hfind
    obtain rfl := Option.some.inj hfind
    exact ends_done ⟨⟨_, rfl⟩, rfl⟩
  · intro hc e _
    exact ends_done ⟨hc, rfl⟩

/-! ### The cleanup of an owner -/

namespace OwnedPath

variable {owned : OwnedPath}

/-- The entry is in the quarantine. The first name that is tried is free. -/
theorem tries_quarantineEntry
    (r : Room s.directory H owned.directory owned.publicName n i)
    (auth : Authentic s.process.effectiveUid owned.boundary owned.directory n.inode)
    (hgroup : n.inode.mode &&& setGroupId = 0)
    (hfree : ∀ bytes, (n.entries.insert owned.publicName i)[".chp-cleanup-" ++
      hexSuffix bytes]? = none) :
    s.Tries true (owned.quarantineEntry s.process.effectiveUid) (fun _ => True)
      (fun quarantine H' => ∃ name q k, quarantine = some ⟨name, q, q⟩ ∧
        Room s.directory (H.grow owned.directory owned.publicName i m) owned.directory name k q ∧
        H' = (H.grow owned.directory name q ⟨privateInode s.process.effectiveUid 0o700, ∅⟩).grow q
          privateCandidateName i m)
      (H.grow owned.directory owned.publicName i m) := by
  apply tries_then (tries_authenticateRetained r.grow_parent auth) (fun _ _ => trivial)
  intro _ H' hH
  rw [hH]
  unfold quarantineAttempts quarantineEntryLoop randomPrivateName
  apply tries_then (tries_randomName _ _ _) (fun _ _ => trivial)
  intro name H' ⟨⟨bytes, hname⟩, hH⟩
  rw [hname, hH]
  apply tries_result (tries_createAuthenticatedPrivateDirectory (r.isSome_grow r.base)
    r.grow_parent auth hgroup fun _ => hfree bytes) (fun hc => by cases hc)
  intro p H' ⟨q, hp, room, hH⟩
  rw [hp, hH]
  apply tries_result (tries_update (r.moveIn room privateCandidateName rfl))
    (fun hc => by cases hc)
  intro _ H' hH
  exact tries_pure ⟨_, q, _, rfl, room, hH⟩

theorem ends_quarantineMatches {quarantine : UnixQuarantine}
    (r : Room s.directory H quarantine.directory privateCandidateName n owned.identity) :
    s.Ends true (owned.quarantineMatches quarantine)
      (fun matched H' => matched = true ∧
        H' = H.grow quarantine.directory privateCandidateName owned.identity m)
      (H.grow quarantine.directory privateCandidateName owned.identity m) := by
  apply ends_run (tries_statat r)
  intro st H' ⟨hst, hH⟩
  rw [hst, hH]
  exact ends_done ⟨by simp, rfl⟩

theorem tries_removeQuarantine {quarantine : UnixQuarantine} {uid : ℕ}
    (r : Room s.directory H owned.directory quarantine.name n quarantine.identity)
    (r' : Room s.directory
      (H.grow owned.directory quarantine.name quarantine.identity ⟨privateInode uid 0o700, ∅⟩)
      quarantine.directory privateCandidateName ⟨privateInode uid 0o700, ∅⟩ i)
    (hkind : m.inode.kind ≠ .directory) :
    s.Tries true (owned.removeQuarantine quarantine) (fun _ => True) (fun _ H' => H' = H)
      ((H.grow owned.directory quarantine.name quarantine.identity
        ⟨privateInode uid 0o700, ∅⟩).grow quarantine.directory privateCandidateName i m) := by
  apply tries_then (tries_update (r'.unlinkat hkind)) (fun _ _ => trivial)
  intro _ H' hH
  rw [hH]
  apply tries_then (tries_statat r) (fun _ _ => trivial)
  intro st H' ⟨hst, hH⟩
  rw [hst, hH]
  apply tries_then (tries_ensure fun _ => by simp) (fun _ _ => trivial)
  intro _ H' ⟨hH, _⟩
  rw [hH]
  exact tries_mono (tries_update (r.rmdirat rfl rfl)) (fun _ _ => trivial) fun _ _ h => h

/-- An owner takes its entry back. -/
theorem ends_cleanup (hactive : owned.active = true)
    (r : Room s.directory H owned.directory owned.publicName n owned.identity)
    (auth : Authentic s.process.effectiveUid owned.boundary owned.directory n.inode)
    (hgroup : n.inode.mode &&& setGroupId = 0)
    (hfree : ∀ bytes, (n.entries.insert owned.publicName owned.identity)[".chp-cleanup-" ++
      hexSuffix bytes]? = none) (hkind : m.inode.kind ≠ .directory) :
    s.Ends true (owned.cleanup s.process.effectiveUid) (fun _ H' => H' = H)
      (H.grow owned.directory owned.publicName owned.identity m) := by
  unfold cleanup
  rw [if_neg (by simp [hactive])]
  apply ends_run (tries_quarantineEntry r auth hgroup hfree)
  intro quarantine H' ⟨name, q, k, hquarantine, room, hH⟩
  rw [hquarantine, hH]
  have inside : Room s.directory
      (H.grow owned.directory name q ⟨privateInode s.process.effectiveUid 0o700, ∅⟩) q
      privateCandidateName ⟨privateInode s.process.effectiveUid 0o700, ∅⟩ owned.identity :=
    r.inside room privateCandidateName rfl
  obtain ⟨-, -, -, -, beside⟩ := r.beside room
  apply ends_bind (ends_quarantineMatches inside)
  intro matched H' ⟨hmatched, hH⟩
  rw [hmatched, hH]
  apply ends_run (tries_removeQuarantine beside inside hkind)
  intro _ H' hH
  exact ends_done hH

end OwnedPath

end ChpProxy
