import ChpProxy.Lib.FileSystem

/-! Authenticated directories: the owner and rename authority of every component of a path. -/
namespace ChpProxy

open FileSystem Interaction

structure FileIdentity where
  device : UInt64
  inode : UInt64
  deriving DecidableEq

inductive IoErrorKind where
  | alreadyExists
  | notFound
  | invalidInput
  | other
  deriving DecidableEq

inductive IoError where
  | os (errno : Errno)
  | new (kind : IoErrorKind) (message : String)
  deriving DecidableEq

def IoError.other (message : String) : IoError := .new .other message

def IoError.kind : IoError → IoErrorKind
  | .os .exist => .alreadyExists
  | .os .noent => .notFound
  | .os .inval => .invalidInput
  | .os _ => .other
  | .new kind _ => kind

abbrev Sys := Program (Request FileIdentity) Request.Reply

abbrev Io := Fallible (Request FileIdentity) Request.Reply IoError

namespace Io

/-- A call whose error code becomes an `io::Error`. -/
def invoke (c : Call FileIdentity) : Io c.Value :=
  ExceptT.mk (.call ⟨c, false⟩ fun
    | .ok value => .done (.ok value)
    | .error e => .done (.error (.os e)))

def query (q : Query FileIdentity) : Io q.Value := invoke (.query q)

def update (u : Update FileIdentity) : Io Unit := invoke (.update u)

def result {α : Type} (p : Io α) : Io (Except IoError α) := ExceptT.lift p.run

end Io

open Io Fallible

def fstat (file : FileIdentity) : Io (Stat FileIdentity) := query (.fstat file)

def statat (directory : FileIdentity) (name : String) : Io (Stat FileIdentity) :=
  query (.statat directory name)

def openDirectoryAt (parent : FileIdentity) (name : String) : Io FileIdentity :=
  query (.openat parent name)

def FileIdentity.fromFile (file : FileIdentity) : Io FileIdentity := do
  let metadata ← fstat file
  return metadata.identity

/-- An ACL that is present, or too large for the buffer, is refused; only its definite absence is
accepted. -/
def authenticateAclAttribute (directory : FileIdentity) (name : String) : Io Unit :=
  ExceptT.mk (.call ⟨.query (.fgetxattr directory name), false⟩ fun
    | .ok _ | .error .range => .done (.error (.other "boundary directory has a POSIX ACL"))
    | .error .nodata => .done (.ok ())
    | .error e => .done (.error (.os e)))

def authenticateDirectoryAcl (directory : FileIdentity) : Io Unit := do
  authenticateAclAttribute directory "system.posix_acl_access"
  authenticateAclAttribute directory "system.posix_acl_default"

def boundaryModeIsSafe (mode : Mode) (owner effectiveUid : ℕ) : Bool :=
  (owner == effectiveUid || owner == 0) && (mode &&& 0o022 == 0 || mode &&& sticky != 0)

structure BoundaryAuthority where
  owner : ℕ
  renameAuthority : Mode
  deriving DecidableEq

def authenticateBoundaryDirectory (effectiveUid : ℕ) (directory : FileIdentity) :
    Io BoundaryAuthority := do
  let metadata ← fstat directory
  ensure (metadata.kind == .directory &&
      boundaryModeIsSafe metadata.mode metadata.owner effectiveUid)
    (.other "boundary directory owner or rename authority is unsafe")
  authenticateDirectoryAcl directory
  return ⟨metadata.owner, metadata.mode &&& (sticky ||| 0o022)⟩

def authenticateChildIdentity (parent : FileIdentity) (name : String) (identity : FileIdentity) :
    Io Unit := do
  let stat ← statat parent name
  ensure (stat.kind == .directory && stat.identity == identity)
    (.other "boundary path component identity changed")

structure BoundaryComponent where
  identity : FileIdentity
  owner : ℕ
  renameAuthority : Mode
  deriving DecidableEq

/-- The root has no name and every other component has one. -/
structure AuthenticatedBoundary where
  canonicalPath : List String
  root : BoundaryComponent
  below : List (String × BoundaryComponent)
  deriving DecidableEq

namespace AuthenticatedBoundary

variable (effectiveUid : ℕ)

def captureBelow : FileIdentity → List String →
    Io (List (String × BoundaryComponent) × FileIdentity)
  | directory, [] => pure ([], directory)
  | directory, name :: names => do
    let child ← openDirectoryAt directory name
    let authority ← authenticateBoundaryDirectory effectiveUid child
    let identity ← FileIdentity.fromFile child
    authenticateChildIdentity directory name identity
    let (below, last) ← captureBelow child names
    return ((name, ⟨identity, authority.owner, authority.renameAuthority⟩) :: below, last)

def capture (path : List Component) : Io (AuthenticatedBoundary × FileIdentity) := do
  let canonicalPath ← query (.canonicalize path)
  let directory ← query .openRoot
  let authority ← authenticateBoundaryDirectory effectiveUid directory
  let identity ← FileIdentity.fromFile directory
  let (below, last) ← captureBelow effectiveUid directory canonicalPath
  return (⟨canonicalPath, ⟨identity, authority.owner, authority.renameAuthority⟩, below⟩, last)

/-- The directory is still the one that was captured, with the same authority. -/
def BoundaryComponent.authenticate (expected : BoundaryComponent) (directory : FileIdentity)
    (message : String) : Io Unit := do
  let authority ← authenticateBoundaryDirectory effectiveUid directory
  let identity ← FileIdentity.fromFile directory
  ensure (identity == expected.identity && authority.owner == expected.owner &&
    authority.renameAuthority == expected.renameAuthority) (.other message)

def authenticateBelow : FileIdentity → List (String × BoundaryComponent) → Io FileIdentity
  | directory, [] => pure directory
  | directory, (name, component) :: below => do
    let child ← openDirectoryAt directory name
    authenticateChildIdentity directory name component.identity
    BoundaryComponent.authenticate effectiveUid component child
      "boundary component identity or authority changed"
    authenticateBelow child below

/-- Every pathname ancestor; the final directory is the retained descriptor's concern. -/
def authenticateAncestors (b : AuthenticatedBoundary) : Io Unit := do
  let directory ← query .openRoot
  match b.below with
  | [] => pure ()
  | below => do
    BoundaryComponent.authenticate effectiveUid b.root directory
      "boundary component identity or authority changed"
    let _ ← authenticateBelow effectiveUid directory below.dropLast

def last (b : AuthenticatedBoundary) : BoundaryComponent :=
  (b.below.getLast?).elim b.root (·.2)

def authenticateRetained (b : AuthenticatedBoundary) (directory : FileIdentity) : Io Unit :=
  BoundaryComponent.authenticate effectiveUid b.last directory
    "retained boundary descriptor identity or authority changed"

def authenticateRetainedWithAncestors (b : AuthenticatedBoundary) (directory : FileIdentity) :
    Io Unit := do
  b.authenticateAncestors effectiveUid
  b.authenticateRetained effectiveUid directory

def withChild (b : AuthenticatedBoundary) (name : String) (directory identity : FileIdentity) :
    Io AuthenticatedBoundary := do
  let authority ← authenticateBoundaryDirectory effectiveUid directory
  let opened ← FileIdentity.fromFile directory
  ensure (opened == identity) (.other "boundary child descriptor identity changed")
  return { b with
    canonicalPath := b.canonicalPath ++ [name]
    below := b.below ++ [(name, ⟨identity, authority.owner, authority.renameAuthority⟩)] }

end AuthenticatedBoundary

/-! ### Rules -/

namespace Io

variable {process : Process FileIdentity} {retained : FileIdentity} {steady : Bool}
  {I P : World FileIdentity → Prop} {w : World FileIdentity}

theorem wp_query {q : Query FileIdentity} (hst : (kernel process retained steady).Stable P)
    (hi : ∀ w, P w → I w) (Found : q.Value → Prop)
    (hfound : ∀ w fate value, P w → q.find process w.volume fate = some (.ok value) → Found value)
    (hp : P w) :
    (kernel process retained steady).wp I (query q).run
      (fun r w => P w ∧ ∀ value, r = .ok value → Found value) w := by
  apply System.wp_call hst hp
  intro w fate w' reply hw ha
  obtain ⟨rfl, hreply⟩ := answer_query ha
  refine ⟨hi _ hw, ?_⟩
  cases reply with
  | error e =>
    exact System.wp_done (hst.and_const _) ⟨hw, nofun⟩
  | ok value =>
    have hvalue : Found value := by
      rcases hreply with ⟨e, he, -⟩ | hfind
      · cases he
      · exact hfound _ fate value hw hfind
    have hall : ∀ value', (Except.ok value : Except IoError q.Value) = .ok value' →
        Found value' := by
      intro value' he
      cases he
      exact hvalue
    exact System.wp_done (hst.and_const _) ⟨hw, hall⟩

theorem wp_update {u : Update FileIdentity} {R : Except IoError Unit → World FileIdentity → Prop}
    (hst : (kernel process retained steady).Stable P)
    (hst' : ∀ r, (kernel process retained steady).Stable (R r)) (hp : P w)
    (hfail : ∀ e w, P w → I w ∧ R (.error e) w)
    (hdone : ∀ w fate v events, P w → u.perform process w.volume fate = some (.ok (v, events)) →
      I ⟨v, w.log ++ events⟩ ∧ R (.ok ()) ⟨v, w.log ++ events⟩) :
    (kernel process retained steady).wp I (update u).run R w := by
  apply System.wp_call hst hp
  intro w fate w' reply hw ha
  rcases answer_update ha with ⟨e, rfl, rfl, -⟩ | ⟨v, events, hperform, rfl, rfl⟩
  · obtain ⟨hi, hr⟩ := hfail (.os e) _ hw
    exact ⟨hi, System.wp_done (hst' _) hr⟩
  · obtain ⟨hi, hr⟩ := hdone w fate v events hw hperform
    exact ⟨hi, System.wp_done (hst' _) hr⟩

theorem wp_queries {α : Type} {p : Sys α} (hc : p.Calls Request.isQuery)
    (hst : (kernel process retained steady).Stable P) (hi : ∀ w, P w → I w) (hp : P w) :
    (kernel process retained steady).wp I p (fun _ => P) w :=
  System.wp_calls hc (fun _ _ _ _ _ h ha => answer_isQuery h ha) hst hi hp

theorem calls_query (q : Query FileIdentity) : (query q).run.Calls Request.isQuery := by
  refine ⟨trivial, ?_⟩
  intro reply
  cases reply <;> trivial

end Io

theorem calls_authenticateAclAttribute (directory : FileIdentity) (name : String) :
    (authenticateAclAttribute directory name).run.Calls Request.isQuery := by
  refine ⟨trivial, ?_⟩
  intro reply
  dsimp only
  split <;> trivial

theorem calls_authenticateDirectoryAcl (directory : FileIdentity) :
    (authenticateDirectoryAcl directory).run.Calls Request.isQuery :=
  Fallible.calls_bind (calls_authenticateAclAttribute _ _) fun _ =>
    calls_authenticateAclAttribute _ _

theorem calls_authenticateBoundaryDirectory (effectiveUid : ℕ) (directory : FileIdentity) :
    (authenticateBoundaryDirectory effectiveUid directory).run.Calls Request.isQuery := by
  apply Fallible.calls_bind (Io.calls_query _)
  intro metadata
  apply Fallible.calls_bind (Fallible.calls_ensure _ _)
  intro _
  apply Fallible.calls_bind (calls_authenticateDirectoryAcl _)
  intro _
  trivial

theorem calls_fromFile (file : FileIdentity) :
    (FileIdentity.fromFile file).run.Calls Request.isQuery :=
  Fallible.calls_bind (Io.calls_query _) fun _ => trivial

namespace AuthenticatedBoundary

variable (effectiveUid : ℕ)

theorem BoundaryComponent.calls_authenticate (expected : BoundaryComponent)
    (directory : FileIdentity) (message : String) :
    (BoundaryComponent.authenticate effectiveUid expected directory message).run.Calls
      Request.isQuery := by
  apply Fallible.calls_bind (calls_authenticateBoundaryDirectory _ _)
  intro authority
  apply Fallible.calls_bind (calls_fromFile _)
  intro identity
  exact Fallible.calls_ensure _ _

theorem calls_authenticateBelow (directory : FileIdentity)
    (below : List (String × BoundaryComponent)) :
    (authenticateBelow effectiveUid directory below).run.Calls Request.isQuery := by
  induction below generalizing directory with
  | nil => trivial
  | cons entry below ih =>
    apply Fallible.calls_bind (Io.calls_query _)
    intro child
    have hchild : (authenticateChildIdentity directory entry.1 entry.2.identity).run.Calls
        Request.isQuery :=
      Fallible.calls_bind (Io.calls_query _) fun _ => Fallible.calls_ensure _ _
    apply Fallible.calls_bind hchild
    intro _
    apply Fallible.calls_bind (BoundaryComponent.calls_authenticate _ _ _ _)
    intro _
    exact ih child

theorem calls_authenticateRetained (b : AuthenticatedBoundary) (directory : FileIdentity) :
    (b.authenticateRetained effectiveUid directory).run.Calls Request.isQuery :=
  BoundaryComponent.calls_authenticate effectiveUid _ _ _

theorem calls_authenticateRetainedWithAncestors (b : AuthenticatedBoundary)
    (directory : FileIdentity) :
    (b.authenticateRetainedWithAncestors effectiveUid directory).run.Calls Request.isQuery := by
  have hancestors : (b.authenticateAncestors effectiveUid).run.Calls Request.isQuery := by
    unfold authenticateAncestors
    apply Fallible.calls_bind (Io.calls_query _)
    intro root
    split
    · trivial
    · apply Fallible.calls_bind (BoundaryComponent.calls_authenticate _ _ _ _)
      intro _
      exact Fallible.calls_bind (calls_authenticateBelow _ _ _) fun _ => trivial
  apply Fallible.calls_bind hancestors
  intro _
  exact calls_authenticateRetained effectiveUid b directory

end AuthenticatedBoundary

end ChpProxy
