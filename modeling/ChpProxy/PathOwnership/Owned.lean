import ChpProxy.PathOwnership.Boundary

/-! Owned filesystem entries: private directories, their guards, and cleanup through a quarantine
(`path_ownership.rs`). Faults that only tests inject and hooks that only tests pass are not part of
the programs: any call may fail, and others may act between any two calls. -/
namespace ChpProxy

open FileSystem Interaction Io Fallible

def quarantineAttempts : ℕ := 8

def privateCandidateName : String := "candidate"

def hexDigit (n : ℕ) : Char := "0123456789abcdef".toList.getD n '0'

def hexSuffix (bytes : List UInt8) : String :=
  String.ofList (bytes.flatMap fun b => [hexDigit (b.toNat / 16), hexDigit (b.toNat % 16)])

example : hexSuffix [0, 10, 255] = "000aff" := by decide

/-- `count` random bytes in a name; a failure of the generator is reported as `message`. -/
def randomName (stem : String) (count : ℕ) (message : String) : Io String :=
  ExceptT.mk (.call ⟨.query (.randomBytes count), false⟩ fun
    | .ok bytes => .done (.ok (stem ++ hexSuffix bytes))
    | .error _ => .done (.error (.other message)))

def randomPrivateName : Io String :=
  randomName ".chp-cleanup-" 16 "could not generate a private cleanup name"

def randomStageName : Io String :=
  randomName ".chp-stage-" 10 "could not generate a private publication name"

def renameRelativeNoreplace (sourceDirectory : FileIdentity) (source : String)
    (destinationDirectory : FileIdentity) (destination : String) : Io Unit :=
  update (.renameat sourceDirectory source destinationDirectory destination true)

def chmodatPortable (directory : FileIdentity) (name : String) (mode : Mode) : Io Unit :=
  update (.chmodat directory name mode)

def unlinkat (directory : FileIdentity) (name : String) : Io Unit :=
  update (.unlinkat directory name false)

def rmdirat (directory : FileIdentity) (name : String) : Io Unit :=
  update (.unlinkat directory name true)

variable (effectiveUid : ℕ)

/-- The drop of a guard: when the retained parent is still authentic and the entry passes the
check, the directory is removed, and every error is ignored. -/
def dropGuard (boundary : AuthenticatedBoundary) (parent : FileIdentity) (name : String)
    (check : Stat FileIdentity → Bool) : Sys Unit := unwind do
  match ← (boundary.authenticateRetained effectiveUid parent).run with
  | .error _ => pure ()
  | .ok () => match ← (statat parent name).run with
    | .error _ => pure ()
    | .ok stat =>
      if check stat then do
        let _ ← (rmdirat parent name).run
      else pure ()

/-- `ProvisionalPrivateDirectoryGuard::drop` for an armed guard. -/
def ProvisionalPrivateDirectoryGuard.drop (boundary : AuthenticatedBoundary)
    (parent : FileIdentity) (name : String) : Sys Unit :=
  dropGuard effectiveUid boundary parent name fun stat =>
    stat.kind == .directory && stat.owner == effectiveUid && stat.mode &&& ~~~0o700 == 0

/-- `PrivateNamespaceGuard::drop` for an armed guard. -/
def PrivateNamespaceGuard.drop (boundary : AuthenticatedBoundary) (parent : FileIdentity)
    (name : String) (identity : FileIdentity) : Sys Unit :=
  dropGuard effectiveUid boundary parent name fun stat => stat.identity == identity

/-- The first part of `create_authenticated_private_directory` after `mkdirat`, under the
provisional guard. -/
def provisionalIdentity (parent : FileIdentity) (name : String) : Io FileIdentity := do
  let initial ← statat parent name
  ensure (initial.kind == .directory && initial.owner == effectiveUid &&
      initial.mode &&& ~~~0o700 == 0)
    (.other "private directory failed provisional type, owner, or mode authentication")
  return initial.identity

/-- The second part, under the guard that knows the identity. -/
def normalizedDirectory (parent : FileIdentity) (name : String) (identity : FileIdentity) :
    Io (FileIdentity × FileIdentity) := do
  chmodatPortable parent name 0o700
  let normalized ← statat parent name
  ensure (normalized.identity == identity && normalized.kind == .directory &&
      normalized.owner == effectiveUid && normalized.mode == 0o700)
    (.other "private directory failed normalized identity authentication")
  let directory ← openDirectoryAt parent name
  let opened ← fstat directory
  ensure (opened.identity == identity && opened.kind == .directory &&
      opened.owner == effectiveUid && opened.mode == 0o700)
    (.other "opened private directory failed identity authentication")
  authenticateDirectoryAcl directory
  return (directory, identity)

def createAuthenticatedPrivateDirectory (parent : FileIdentity) (boundary : AuthenticatedBoundary)
    (name : String) : Io (FileIdentity × FileIdentity) := do
  update (.mkdirat parent name 0o700)
  let identity ← (provisionalIdentity effectiveUid parent name).onError
    (ProvisionalPrivateDirectoryGuard.drop effectiveUid boundary parent name)
  (normalizedDirectory effectiveUid parent name identity).onError
    (PrivateNamespaceGuard.drop effectiveUid boundary parent name identity)

structure UnixQuarantine where
  name : String
  directory : FileIdentity
  identity : FileIdentity
  deriving DecidableEq

structure OwnedPath where
  publicPath : List Component
  identity : FileIdentity
  active : Bool
  directory : FileIdentity
  directoryPath : List String
  publicName : String
  boundary : AuthenticatedBoundary
  deriving DecidableEq

namespace OwnedPath

/-- The loop of `quarantine_entry`. The namespace guard is disarmed only by a rename that
succeeds. -/
def quarantineEntryLoop (owned : OwnedPath) : ℕ → Io (Option UnixQuarantine)
  | 0 => throw (.new .alreadyExists "could not reserve a private cleanup quarantine")
  | attempts + 1 => do
    let privateName ← randomPrivateName
    match ← (createAuthenticatedPrivateDirectory effectiveUid owned.directory owned.boundary
        privateName).result with
    | .error e =>
      if e.kind = .alreadyExists then owned.quarantineEntryLoop attempts else throw e
    | .ok (directory, identity) =>
      match ← (renameRelativeNoreplace owned.directory owned.publicName directory
          privateCandidateName).result with
      | .ok () => return some ⟨privateName, directory, identity⟩
      | .error e =>
        ExceptT.lift (PrivateNamespaceGuard.drop effectiveUid owned.boundary owned.directory
          privateName identity)
        if e.kind = .notFound then return none else throw e

def quarantineEntry (owned : OwnedPath) : Io (Option UnixQuarantine) := do
  owned.boundary.authenticateRetained effectiveUid owned.directory
  owned.quarantineEntryLoop effectiveUid quarantineAttempts

def quarantineMatches (owned : OwnedPath) (quarantine : UnixQuarantine) : Sys Bool := do
  match ← (statat quarantine.directory privateCandidateName).run with
  | .ok stat => return stat.identity == owned.identity
  | .error _ => return false

def removePrivateDirectory (owned : OwnedPath) (quarantine : UnixQuarantine) : Io Unit := do
  let stat ← statat owned.directory quarantine.name
  ensure (stat.identity == quarantine.identity)
    (.other "private cleanup namespace was replaced; preserving replacement")
  rmdirat owned.directory quarantine.name

def removeQuarantine (owned : OwnedPath) (quarantine : UnixQuarantine) : Io Unit := do
  unlinkat quarantine.directory privateCandidateName
  owned.removePrivateDirectory quarantine

def restoreQuarantine (owned : OwnedPath) (quarantine : UnixQuarantine) : Io Unit := do
  renameRelativeNoreplace quarantine.directory privateCandidateName owned.directory
    owned.publicName
  owned.removePrivateDirectory quarantine

/-- `OwnedPath::cleanup_with_hooks`: the path it returns, and the owner it leaves. -/
def cleanup (owned : OwnedPath) : Sys (OwnedPath × Option (List String)) := do
  if owned.active = false then return (owned, none)
  let owned := { owned with active := false }
  match ← (owned.quarantineEntry effectiveUid).run with
  | .error _ | .ok none => return (owned, none)
  | .ok (some quarantine) =>
    let quarantinePath := owned.directoryPath ++ [quarantine.name, privateCandidateName]
    if ← owned.quarantineMatches quarantine then
      match ← (owned.removeQuarantine quarantine).run with
      | .error _ => return (owned, some quarantinePath)
      | .ok () => return (owned, none)
    else
      match ← (owned.restoreQuarantine quarantine).run with
      | .ok () => return (owned, none)
      | .error _ => return (owned, some quarantinePath)

end OwnedPath

theorem calls_randomName (stem : String) (count : ℕ) (message : String) :
    (randomName stem count message).run.Calls Request.isQuery := by
  refine ⟨trivial, ?_⟩
  intro reply
  cases reply <;> trivial

end ChpProxy
