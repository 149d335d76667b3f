import ChpProxy.Api.UnixSocket
import ChpProxy.PathOwnership.Capture

/-! Publication of a Unix socket is all or nothing: whatever fails, the guards take everything
back. -/
namespace ChpProxy

open FileSystem Interaction Io Fallible Site

variable {s : Site} {H : Footprint FileIdentity} {x dir sock : FileIdentity}
  {name publicName : String} {n m : Node FileIdentity} {anchor : AnchoredDirectory}

/-! ### The stage directory -/

theorem tries_tryClone (x : FileIdentity) :
    s.Tries false (tryClone x) (· = H) (fun y H' => y = x ∧ H' = H) H := by
  apply tries_query (q := .duplicate x)
  intro w fate hw
  rfl

/-- The anchor with the new private directory in it. -/
def AnchoredDirectory.staging (anchor : AnchoredDirectory) (name : String) (dir : FileIdentity) :
    PrivateDirectory :=
  ⟨anchor.directory, anchor.directoryPath, anchor.boundary, name, dir, dir⟩

def stageNode (uid : ℕ) : Node FileIdentity := ⟨privateInode uid 0o700, ∅⟩

theorem tries_createPrivateDirectoryLoop (hd : (H s.directory).isSome)
    (hx : H anchor.directory = some n)
    (auth : Authentic s.process.effectiveUid anchor.boundary anchor.directory n.inode)
    (hgroup : n.inode.mode &&& setGroupId = 0) (attempts : ℕ) :
    s.Tries false (anchor.createPrivateDirectoryLoop s.process.effectiveUid attempts) (· = H)
      (fun staging H' => ∃ name dir, staging = anchor.staging name dir ∧
        Room s.directory H anchor.directory name n dir ∧
        H' = H.grow anchor.directory name dir (stageNode s.process.effectiveUid)) H := by
  induction attempts with
  | zero => exact tries_throw rfl
  | succ attempts ih =>
    unfold AnchoredDirectory.createPrivateDirectoryLoop
    apply tries_bind (tries_randomName _ _ _)
    intro name H' ⟨_, hH⟩
    rw [hH]
    apply tries_result (tries_createAuthenticatedPrivateDirectory hd hx auth hgroup (by simp))
    · intro _ e H' hH
      rw [hH]
      dsimp only
      split_ifs
      · exact ih
      · exact tries_throw rfl
    · intro p H' ⟨dir, hp, room, hH⟩
      rw [hp, hH]
      have hclone : s.Tries false ((tryClone anchor.directory).onError (PrivateNamespaceGuard.drop
          s.process.effectiveUid anchor.boundary anchor.directory name dir)) (· = H)
          (fun y H' => y = anchor.directory ∧
            H' = H.grow anchor.directory name dir (stageNode s.process.effectiveUid))
          (H.grow anchor.directory name dir (stageNode s.process.effectiveUid)) := by
        apply tries_onError _ (tries_tryClone anchor.directory)
        intro _ H' hH
        rw [hH]
        exact ends_dropGuard room auth rfl rfl (by simp)
      apply tries_bind hclone
      intro parent H' ⟨hparent, hH⟩
      rw [hparent]
      exact tries_pure ⟨name, dir, rfl, room, hH⟩

theorem tries_createPrivateDirectory (hd : (H s.directory).isSome)
    (hx : H anchor.directory = some n)
    (auth : Authentic s.process.effectiveUid anchor.boundary anchor.directory n.inode)
    (hgroup : n.inode.mode &&& setGroupId = 0) :
    s.Tries false (anchor.createPrivateDirectory s.process.effectiveUid) (· = H)
      (fun staging H' => ∃ name dir, staging = anchor.staging name dir ∧
        Room s.directory H anchor.directory name n dir ∧
        H' = H.grow anchor.directory name dir (stageNode s.process.effectiveUid)) H := by
  apply tries_bind (tries_queries
    (anchor.boundary.calls_authenticateRetainedWithAncestors _ anchor.directory))
  intro _ H' hH
  rw [hH]
  exact tries_createPrivateDirectoryLoop hd hx auth hgroup _

theorem tries_stablePath (staging : PrivateDirectory) (uid : ℕ) :
    s.Tries false (staging.stablePath uid) (· = H)
      (fun directory H' => directory = staging.directory ∧ H' = H) H := by
  have hparent := staging.parentBoundary.calls_authenticateRetainedWithAncestors uid staging.parent
  apply tries_bind (tries_queries hparent)
  intro _ H' hH
  rw [hH]
  apply tries_bind (tries_queries hparent)
  intro _ H' hH
  exact tries_pure ⟨rfl, hH⟩

/-! ### The socket in the stage directory -/

/-- The owner of the socket in the stage directory. -/
structure Staged (uid : ℕ) (dir sock : FileIdentity) (owner : OwnedPath) : Prop where
  active : owner.active = true
  identity : owner.identity = sock
  directory : owner.directory = dir
  publicName : owner.publicName = "s"
  auth : Authentic uid owner.boundary dir (privateInode uid 0o700)

theorem tries_bindSocket (hd : (H s.directory).isSome) (hx : H x = some n) (name : String) :
    s.Tries false (update (.bind x name)) (· = H)
      (fun _ H' => ∃ sock, Room s.directory H x name n sock ∧
        H' = H.grow x name sock ⟨s.process.socketIn n.inode, ∅⟩) H := by
  apply tries_command
  · intro w fate v events hw hperform
    obtain ⟨room, hholds⟩ := hw.add hd hx (fun _ => rfl) hperform
    exact ⟨_, hholds, fate.identity, room, rfl⟩
  · intro hc
    cases hc

theorem tries_ownEntry {uid : ℕ} {staging : PrivateDirectory}
    (r : Room s.directory H staging.directory "s" (stageNode uid) sock)
    (hidentity : staging.identity = staging.directory) :
    s.Tries false (staging.ownEntry uid "s") (· = H.grow staging.directory "s" sock m)
      (fun owner H' => Staged uid staging.directory sock owner ∧
        H' = H.grow staging.directory "s" sock m) (H.grow staging.directory "s" sock m) := by
  apply tries_bind (tries_statat r)
  intro st H' ⟨hst, hH⟩
  rw [hst, hH]
  apply tries_bind (tries_tryClone _)
  intro directory H' ⟨hdirectory, hH⟩
  rw [hdirectory, hH]
  have hchild : s.Tries false (staging.parentBoundary.withChild uid staging.name
      staging.directory staging.identity) (· = H.grow staging.directory "s" sock m)
      (fun boundary H' => Authentic uid boundary staging.directory (privateInode uid 0o700) ∧
        H' = H.grow staging.directory "s" sock m) (H.grow staging.directory "s" sock m) := by
    apply tries_bind (tries_authenticateBoundaryDirectory r.grow_parent
      (admissible_privateInode uid))
    intro authority H' ⟨hauthority, hH⟩
    rw [hauthority, hH]
    apply tries_bind (tries_fromFile r.grow_parent)
    intro opened H' ⟨_, hH⟩
    rw [hH]
    apply tries_bind (tries_ensure (by simp))
    intro _ H' ⟨hH, _⟩
    refine tries_pure ⟨⟨admissible_privateInode uid, ?_⟩, hH⟩
    simp [AuthenticatedBoundary.last, hidentity, stageNode]
  apply tries_bind hchild
  intro boundary H' ⟨hauth, hH⟩
  exact tries_pure ⟨⟨rfl, rfl, rfl, rfl, hauth⟩, hH⟩

theorem calls_verifyOwnedSocket (owner : OwnedPath) (mode : Option Mode) :
    (owner.verifyOwnedSocket mode).run.Calls Request.isQuery :=
  Fallible.calls_bind (Io.calls_query _) fun _ => Fallible.calls_ensure _ _

def withMode (m : Node FileIdentity) (mode : Mode) : Node FileIdentity :=
  ⟨{ m.inode with mode := mode }, m.entries⟩

theorem tries_prepareSocket {uid : ℕ} {staging : PrivateDirectory} {owner : OwnedPath}
    (r : Room s.directory H dir "s" n sock) (staged : Staged uid dir sock owner) (mode : Mode)
    (afterVerify : Except IoError Unit) :
    s.Tries false (staging.prepareSocket owner mode afterVerify)
      (fun H' => ∃ mode, H' = H.grow dir "s" sock (withMode m mode))
      (fun _ H' => H' = H.grow dir "s" sock (withMode m mode)) (H.grow dir "s" sock m) := by
  have hbefore : ∀ H', H' = H.grow dir "s" sock m →
      ∃ mode, H' = H.grow dir "s" sock (withMode m mode) :=
    fun H' hH => ⟨m.inode.mode, hH⟩
  have hafter : ∀ H', H' = H.grow dir "s" sock (withMode m mode) →
      ∃ mode, H' = H.grow dir "s" sock (withMode m mode) :=
    fun H' hH => ⟨mode, hH⟩
  apply tries_then (tries_queries (calls_fromFile _)) hbefore
  intro identity H' hH
  rw [hH]
  apply tries_then (tries_ensure (by simp)) hbefore
  intro _ H' ⟨hH, _⟩
  rw [hH]
  apply tries_then (tries_queries (calls_verifyOwnedSocket _ _)) hbefore
  intro _ H' hH
  rw [hH]
  have hhook : (ExceptT.mk (pure afterVerify) : Io Unit).run.Calls Request.isQuery := trivial
  apply tries_then (tries_queries hhook) hbefore
  intro _ H' hH
  rw [hH]
  have hchmod : s.Tries false (chmodatPortable owner.directory owner.publicName mode)
      (· = H.grow dir "s" sock m) (fun _ H' => H' = H.grow dir "s" sock (withMode m mode))
      (H.grow dir "s" sock m) := by
    rw [staged.directory, staged.publicName]
    exact tries_update r.chmodat
  apply tries_then hchmod hbefore
  intro _ H' hH
  rw [hH]
  exact tries_mono (tries_queries (calls_verifyOwnedSocket _ _)) hafter fun _ _ h => h

theorem tries_publishInto {uid : ℕ} {owner : OwnedPath} {k : Node FileIdentity}
    (r : Room s.directory H anchor.directory name n dir)
    (r' : Room s.directory (H.grow anchor.directory name dir k) dir "s" k sock)
    (staged : Staged uid dir sock owner) (path : List Component) (publicName : String) :
    s.Tries false (owner.publishInto uid anchor path publicName)
      (· = (H.grow anchor.directory name dir k).grow dir "s" sock m)
      (fun published H' => published.identity = sock ∧
        Room s.directory H anchor.directory publicName n sock ∧
        Room s.directory (H.grow anchor.directory publicName sock m) anchor.directory name
          ⟨n.inode, n.entries.insert publicName sock⟩ dir ∧
        H' = (H.grow anchor.directory publicName sock m).grow anchor.directory name dir k)
      ((H.grow anchor.directory name dir k).grow dir "s" sock m) := by
  apply tries_bind (tries_queries
    (anchor.boundary.calls_authenticateRetainedWithAncestors uid anchor.directory))
  intro _ H' hH
  rw [hH]
  apply tries_bind (tries_tryClone _)
  intro directory H' ⟨_, hH⟩
  rw [hH]
  have hrename : s.Tries false (renameRelativeNoreplace owner.directory owner.publicName
        anchor.directory publicName)
      (· = (H.grow anchor.directory name dir k).grow dir "s" sock m)
      (fun _ H' => Room s.directory H anchor.directory publicName n sock ∧
        Room s.directory (H.grow anchor.directory publicName sock m) anchor.directory name
          ⟨n.inode, n.entries.insert publicName sock⟩ dir ∧
        H' = (H.grow anchor.directory publicName sock m).grow anchor.directory name dir k)
      ((H.grow anchor.directory name dir k).grow dir "s" sock m) := by
    rw [staged.directory, staged.publicName]
    apply tries_command
    · intro w fate v events hw hperform
      obtain ⟨room, beside, hholds⟩ := r.moveOut r' hw hperform
      exact ⟨_, hholds, room, beside, rfl⟩
    · intro hc
      cases hc
  apply tries_bind hrename
  intro _ H' ⟨room, beside, hH⟩
  exact tries_pure ⟨staged.identity, room, beside, hH⟩

/-! ### All or nothing -/

/-- The names of cleanup directories begin with a dot. -/
theorem stage_has_room (sock : FileIdentity) (bytes : List UInt8) :
    (Std.ExtTreeMap.insert (∅ : Std.ExtTreeMap String FileIdentity) "s" sock)[".chp-cleanup-" ++
      hexSuffix bytes]? = none := by
  have hne : "s" ≠ ".chp-cleanup-" ++ hexSuffix bytes := by
    intro he
    have hlist := congrArg String.toList he
    simp at hlist
  rw [Std.ExtTreeMap.getElem?_insert]
  simp [hne]

theorem tries_publishStaged {owner : OwnedPath}
    (r : Room s.directory H anchor.directory name n dir)
    (r' : Room s.directory
      (H.grow anchor.directory name dir (stageNode s.process.effectiveUid)) dir "s"
      (stageNode s.process.effectiveUid) sock)
    (staged : Staged s.process.effectiveUid dir sock owner) (hkind : m.inode.kind ≠ .directory)
    (staging : PrivateDirectory) (path : List Component) (publicName : String)
    (beforeChmod : Except IoError Unit) :
    s.Tries false (publishStaged s.process.effectiveUid anchor staging owner path publicName
        beforeChmod)
      (· = H.grow anchor.directory name dir (stageNode s.process.effectiveUid))
      (fun published H' => published.identity = sock ∧
        Room s.directory H anchor.directory publicName n sock ∧
        Room s.directory (H.grow anchor.directory publicName sock (withMode m 0o660))
          anchor.directory name ⟨n.inode, n.entries.insert publicName sock⟩ dir ∧
        H' = (H.grow anchor.directory publicName sock (withMode m 0o660)).grow anchor.directory
          name dir (stageNode s.process.effectiveUid))
      ((H.grow anchor.directory name dir (stageNode s.process.effectiveUid)).grow dir "s" sock
        m) := by
  -- whatever fails, the socket is still in the stage directory, with some mode
  apply tries_onError (fun H' => ∃ mode, H' =
    (H.grow anchor.directory name dir (stageNode s.process.effectiveUid)).grow dir "s" sock
      (withMode m mode))
  · apply tries_then (tries_queries (Io.calls_query _)) (fun H' hH => ⟨m.inode.mode, hH⟩)
    intro _ H' hH
    rw [hH]
    apply tries_then (tries_queries (Io.calls_query _)) (fun H' hH => ⟨m.inode.mode, hH⟩)
    intro _ H' hH
    rw [hH]
    apply tries_bind (tries_prepareSocket r' staged _ _)
    intro _ H' hH
    rw [hH]
    exact tries_mono (tries_publishInto r r' staged path publicName) (fun H' hH => ⟨_, hH⟩)
      fun _ _ h => h
  · intro _ H' ⟨mode, hH⟩
    rw [hH]
    obtain ⟨hactive, rfl, rfl, hname, auth⟩ := staged
    rw [← hname] at r' ⊢
    have hgroup : (privateInode s.process.effectiveUid 0o700).mode &&& setGroupId = 0 := by
      show (0o700 : Mode) &&& setGroupId = 0
      decide
    have hfree : ∀ bytes, (Std.ExtTreeMap.insert (∅ : Std.ExtTreeMap String FileIdentity)
        owner.publicName owner.identity)[".chp-cleanup-" ++ hexSuffix bytes]? = none := by
      rw [hname]
      exact stage_has_room _
    have hsocket : (withMode m mode).inode.kind ≠ .directory := hkind
    apply ends_unwind
    apply ends_bind (OwnedPath.ends_cleanup hactive r' auth hgroup hfree hsocket)
    intro _ H' hH
    exact ends_done hH

theorem tries_bindStaged (hd : (H s.directory).isSome)
    (auth : Authentic s.process.effectiveUid anchor.boundary anchor.directory n.inode)
    (r : Room s.directory H anchor.directory name n dir) (path : List Component)
    (publicName : String) (beforeChmod : Except IoError Unit) :
    s.Tries false (bindStaged s.process.effectiveUid anchor (anchor.staging name dir) path
        publicName beforeChmod) (· = H)
      (fun published H' => ∃ m, m.inode.kind = .socket ∧
        Room s.directory H anchor.directory publicName n published.identity ∧
        H' = H.grow anchor.directory publicName published.identity (withMode m 0o660))
      (H.grow anchor.directory name dir (stageNode s.process.effectiveUid)) := by
  have hstage := r.isSome_grow (m := stageNode s.process.effectiveUid) hd
  have hsocket : (s.process.socketIn (stageNode s.process.effectiveUid).inode).kind ≠
      .directory := by
    simp [Process.socketIn]
  -- before the guard of the stage directory is dropped
  apply tries_thenDrop
    (· = H.grow anchor.directory name dir (stageNode s.process.effectiveUid))
    (fun published H' => ∃ m, m.inode.kind = .socket ∧
      Room s.directory H anchor.directory publicName n published.identity ∧
      Room s.directory (H.grow anchor.directory publicName published.identity (withMode m 0o660))
        anchor.directory name ⟨n.inode, n.entries.insert publicName published.identity⟩ dir ∧
      H' = (H.grow anchor.directory publicName published.identity
        (withMode m 0o660)).grow anchor.directory name dir (stageNode s.process.effectiveUid))
  · apply tries_bind (tries_stablePath _ _)
    intro directory H' hpost
    obtain ⟨hdirectory, hH⟩ := hpost
    rw [hdirectory, hH]
    apply tries_bind (tries_queries (Io.calls_query _))
    intro _ H' hH
    rw [hH]
    apply tries_bind (tries_bindSocket hstage r.grow_self "s")
    intro _ H' hpost
    obtain ⟨sock, r', hH⟩ := hpost
    rw [hH]
    apply tries_result (tries_ownEntry r' rfl)
    · intro _ e H' hH
      rw [hH]
      have hremove : s.Ends false ((anchor.staging name dir).removeEntry "s")
          (fun _ H' => H' = H.grow anchor.directory name dir (stageNode s.process.effectiveUid))
          ((H.grow anchor.directory name dir (stageNode s.process.effectiveUid)).grow dir "s" sock
            ⟨s.process.socketIn (stageNode s.process.effectiveUid).inode, ∅⟩) := by
        apply ends_unwind
        apply ends_run (tries_update (r'.unlinkat hsocket))
        intro _ H' hH
        exact ends_done hH
      apply tries_lift hremove
      intro _ H' hH
      exact tries_throw hH
    · intro owner H' hpost
      obtain ⟨staged, hH⟩ := hpost
      rw [hH]
      apply tries_mono (tries_publishStaged r r' staged hsocket _ _ _ _) (fun _ h => h)
      intro published H' hpost
      obtain ⟨hidentity, room, beside, hH⟩ := hpost
      subst hidentity
      exact ⟨_, rfl, room, beside, hH⟩
  · intro H' hH
    rw [hH]
    exact ends_dropGuard r auth rfl rfl
      (by simp [stageNode, privateInode, AnchoredDirectory.staging])
  · intro published H' hpost
    obtain ⟨m, hkind, room, beside, hH⟩ := hpost
    rw [hH]
    apply ends_mono (ends_dropGuard beside auth rfl rfl
      (by simp [stageNode, privateInode, AnchoredDirectory.staging]))
    intro _ H' hH
    exact ⟨m, hkind, room, hH⟩

theorem finds_anchor {uid : ℕ} {v : Volume FileIdentity} {path : List Component}
    {names : List String} (hd : H s.directory = some n)
    (hnames : s.process.realpath path = some names)
    (hwalk : v.walk s.process.root names = some s.directory)
    (hroute : s.route = v.route s.process.root names) :
    s.Finds H (AnchoredDirectory.capture uid path) fun anchor =>
      anchor.directory = s.directory ∧ Authentic uid anchor.boundary anchor.directory n.inode := by
  apply finds_bind (AuthenticatedBoundary.finds_capture hd hnames hwalk hroute)
  intro p ⟨hdirectory, auth⟩
  refine finds_ok ⟨hdirectory, ?_⟩
  show Authentic uid p.1 p.2 n.inode
  rw [hdirectory]
  exact auth

/-- After a failure the footprint is as before; after a success the socket has been added. -/
def BindOutcome (s : Site) (H : Footprint FileIdentity) (n : Node FileIdentity)
    (path : List Component) (H' : Footprint FileIdentity) : Except IoError OwnedPath → Prop
  | .error _ => H' = H
  | .ok owner => ∃ name m, fileName path = some name ∧ m.inode.kind = .socket ∧
      Room s.directory H s.directory name n owner.identity ∧
      H' = H.grow s.directory name owner.identity (withMode m 0o660)

theorem wp_bindUnixSocket {v : Volume FileIdentity} {path : List Component} {names : List String}
    {w : World FileIdentity} (hd : H s.directory = some n)
    (hnames : s.process.realpath (parentPath path) = some names)
    (hwalk : v.walk s.process.root names = some s.directory)
    (hroute : s.route = v.route s.process.root names)
    (hgroup : n.inode.mode &&& setGroupId = 0) (beforeChmod : Except IoError Unit)
    (hw : s.Known H w) :
    s.system.wp (fun _ => True) (bindUnixSocket s.process.effectiveUid path beforeChmod).run
      (fun r w => ∃ H', Holds s.directory H' w ∧ BindOutcome s H n path H' r) w := by
  unfold bindUnixSocket
  cases hname : fileName path with
  | none =>
    have hthrow : s.Ends false (.done (.error (.new .invalidInput
        "Unix socket path has no file name"))) (fun r H' => BindOutcome s H n path H' r) H :=
      ends_done rfl
    exact hthrow w hw.1
  | some name =>
    apply System.wp_try (finds_anchor hd hnames hwalk hroute w hw)
    · intro e w ⟨hw, _⟩
      exact ⟨H, hw.1, rfl⟩
    intro anchor w ⟨hw, hanchor⟩
    obtain ⟨hdirectory, auth⟩ := hanchor anchor rfl
    have hbase : (H s.directory).isSome := by simp [hd]
    have hx : H anchor.directory = some n := by rw [hdirectory, hd]
    have hbind : s.Tries false (anchor.createPrivateDirectory s.process.effectiveUid >>=
        fun staging => bindStaged s.process.effectiveUid anchor staging path name beforeChmod)
        (· = H) (fun owner H' => ∃ m, m.inode.kind = .socket ∧
          Room s.directory H anchor.directory name n owner.identity ∧
          H' = H.grow anchor.directory name owner.identity (withMode m 0o660)) H := by
      apply tries_bind (tries_createPrivateDirectory hbase hx auth hgroup)
      intro staging H' ⟨stage, dir, hstaging, room, hH⟩
      rw [hstaging, hH]
      exact tries_bindStaged hbase auth room path name beforeChmod
    apply System.wp_mono (hbind w hw.1)
    intro r w ⟨H', hw, hr⟩
    refine ⟨H', hw, ?_⟩
    cases r with
    | error e => exact hr.2
    | ok owner =>
      obtain ⟨m, hkind, room, hH⟩ := hr
      rw [hdirectory] at room hH
      exact ⟨name, m, hname, hkind, room, hH⟩

/-- A failure leaves the directory with the entries it had, and nothing of what was made. A success
adds one entry: the public name, which was free, for the socket that was made. -/
def AllOrNothing (path : List Component) (parent : FileIdentity) (v : Volume FileIdentity)
    (w : World FileIdentity) : Except IoError OwnedPath → Prop
  | .error _ => w.volume.entries parent = v.entries parent ∧ creations w.log = []
  | .ok owner => ∃ name socket, fileName path = some name ∧ (v.entries parent)[name]? = none ∧
      w.volume.entries parent = (v.entries parent).insert name owner.identity ∧
      (∀ i, i ∈ creations w.log ↔ i = owner.identity) ∧
      w.volume.inodes owner.identity = some socket ∧ socket.kind = .socket ∧ socket.mode = 0o660

def initialFootprint (parent : FileIdentity) (inode : Inode)
    (E : Std.ExtTreeMap String FileIdentity) : Footprint FileIdentity :=
  fun i => if i = parent then some ⟨inode, E⟩ else none

theorem holds_initialFootprint {parent : FileIdentity} {inode : Inode} {v : Volume FileIdentity}
    (h : v.inodes parent = some inode) :
    Holds parent (initialFootprint parent inode (v.entries parent)) ⟨v, []⟩ := by
  unfold initialFootprint
  constructor
  · intro i n hi
    split_ifs at hi with he
    cases hi
    rw [he]
    exact h
  · intro i n hi
    split_ifs at hi with he
    cases hi
    rw [he]
  · intro i
    by_cases he : i = parent <;> simp [creations, he]

/-- In a directory without the set-group-ID bit, a publication is all or nothing: whichever call
fails, at whatever point, and whatever others do elsewhere meanwhile. -/
theorem bindUnixSocket_all_or_nothing (process : Process FileIdentity) (path : List Component)
    (beforeChmod : Except IoError Unit) (names : List String) (parent : FileIdentity)
    (inode : Inode) (v : Volume FileIdentity)
    (turns : List (Turn (Volume FileIdentity) (Fate FileIdentity))) (w : World FileIdentity)
    (outcome : Except IoError OwnedPath)
    (hnames : process.realpath (parentPath path) = some names)
    (hwalk : v.walk process.root names = some parent) (hinode : v.inodes parent = some inode)
    (hgroup : inode.mode &&& setGroupId = 0)
    (hrun : (quiet process parent (v.route process.root names)).run
      (⟨v, []⟩, (bindUnixSocket process.effectiveUid path beforeChmod).run) turns =
        some (w, .done outcome)) :
    AllOrNothing path parent v w outcome := by
  let s : Site := ⟨process, parent, v.route process.root names⟩
  have hd : initialFootprint parent inode (v.entries parent) s.directory =
      some ⟨inode, v.entries parent⟩ := by
    simp [initialFootprint, s]
  have hknown : s.Known (initialFootprint parent inode (v.entries parent)) ⟨v, []⟩ :=
    ⟨holds_initialFootprint hinode, fun e he => entry_of_mem_route he⟩
  have hwp := wp_bindUnixSocket hd hnames hwalk rfl hgroup beforeChmod hknown
  have hrest := (System.wp_run (fun _ _ _ _ _ => trivial) trivial hwp hrun).2
  obtain ⟨H', hholds, hpublished⟩ := System.post_of_wp_done hrest
  cases outcome with
  | error e =>
    subst hpublished
    refine ⟨hholds.entries parent _ hd, ?_⟩
    rw [List.eq_nil_iff_forall_not_mem]
    intro i hi
    obtain ⟨hne, hsome⟩ := (hholds.mine i).mp hi
    have hother : i ≠ parent := hne
    simp [initialFootprint, hother] at hsome
  | ok owner =>
    obtain ⟨name, m, hname, hkind, room, rfl⟩ := hpublished
    have hparent := room.parent
    rw [hd] at hparent
    cases hparent
    refine ⟨name, _, hname, room.absent, hholds.entries _ _ room.grow_parent, ?_,
      hholds.inodes _ _ room.grow_self, hkind, rfl⟩
    intro i
    rw [hholds.mine i]
    by_cases hi : i = owner.identity
    · rw [hi, room.grow_self]
      simp [room.ne_base]
    · by_cases hx : i = parent
      · constructor
        · intro h
          exact absurd hx h.1
        · intro h
          exact absurd h hi
      · rw [Footprint.grow_of_ne hx hi]
        simp [initialFootprint, hx, hi]

/-- A root directory and an empty directory `run` in it. -/
def runVolume (mode : Mode) : Volume FileIdentity where
  inodes i :=
    if i = ⟨0, 0⟩ then some ⟨.directory, 0, 0o755, false, false⟩
    else if i = ⟨0, 1⟩ then some ⟨.directory, 0, mode, false, false⟩
    else none
  entries d := if d = ⟨0, 0⟩ then Std.ExtTreeMap.ofList [("run", (⟨0, 1⟩ : FileIdentity))] else ∅

def runProcess : Process FileIdentity := ⟨0, 0, ⟨0, 0⟩, fun _ => some ["run"]⟩

def runPath : List Component := [.rootDir, .normal "run", .normal "sock"]

def runFate (inode : UInt64) : Fate FileIdentity := ⟨none, ⟨0, inode⟩, List.replicate 10 0⟩

set_option maxRecDepth 8000 in
/-- A socket is published in a directory without the bit. -/
theorem bindUnixSocket_publishes :
    ∃ w owner, (quiet runProcess ⟨0, 1⟩ ((runVolume 0o755).route ⟨0, 0⟩ ["run"])).run
        (⟨runVolume 0o755, []⟩, (bindUnixSocket 0 runPath (.ok ())).run)
        (List.replicate 40 (.own (runFate 4)) ++ List.replicate 40 (.own (runFate 5))) =
          some (w, .done (.ok owner)) ∧
      AllOrNothing runPath ⟨0, 1⟩ (runVolume 0o755) w (.ok owner) := by
  refine Exists.imp (fun w => Exists.imp fun owner hrun => ⟨hrun, ?_⟩) ⟨_, _, rfl⟩
  exact bindUnixSocket_all_or_nothing runProcess runPath (.ok ()) ["run"] ⟨0, 1⟩
    ⟨.directory, 0, 0o755, false, false⟩ (runVolume 0o755) _ w (.ok owner) rfl (by decide) rfl
    (by decide) hrun

set_option maxRecDepth 8000 in
/-- In a directory with the bit, which passes the authentication, the new stage directory inherits
it, is refused for its mode, and is left behind because the guard refuses it too. -/
theorem setGroupId_leaves_stage :
    boundaryModeIsSafe 0o2755 0 0 = true ∧
    ∃ w, (quiet runProcess ⟨0, 1⟩ ((runVolume 0o2755).route ⟨0, 0⟩ ["run"])).run
        (⟨runVolume 0o2755, []⟩, (bindUnixSocket 0 runPath (.ok ())).run)
        (List.replicate 29 (.own (runFate 4))) = some (w, .done (.error (.other
          "private directory failed provisional type, owner, or mode authentication"))) ∧
      (w.volume.entries ⟨0, 1⟩).toList = [(".chp-stage-00000000000000000000", ⟨0, 4⟩)] ∧
      ¬AllOrNothing runPath ⟨0, 1⟩ (runVolume 0o2755) w (.error (.other
        "private directory failed provisional type, owner, or mode authentication")) := by
  refine ⟨by decide, _, rfl, by decide, ?_⟩
  intro h
  exact absurd h.2 (by decide)

end ChpProxy
