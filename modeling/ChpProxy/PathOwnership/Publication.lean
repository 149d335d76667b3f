import ChpProxy.PathOwnership.Owned

/-! Publication of an entry through a private stage directory (`path_ownership.rs`). -/
namespace ChpProxy

open FileSystem Interaction Io Fallible

variable (effectiveUid : ℕ)

def tryClone (file : FileIdentity) : Io FileIdentity := query (.duplicate file)

structure AnchoredDirectory where
  directory : FileIdentity
  directoryPath : List String
  boundary : AuthenticatedBoundary
  deriving DecidableEq

structure PrivateDirectory where
  parent : FileIdentity
  parentPath : List String
  parentBoundary : AuthenticatedBoundary
  name : String
  directory : FileIdentity
  identity : FileIdentity
  deriving DecidableEq

namespace AnchoredDirectory

def capture (parent : List Component) : Io AnchoredDirectory := do
  let (boundary, directory) ← AuthenticatedBoundary.capture effectiveUid parent
  return ⟨directory, boundary.canonicalPath, boundary⟩

def createPrivateDirectoryLoop (anchor : AnchoredDirectory) : ℕ → Io PrivateDirectory
  | 0 => throw (.new .alreadyExists "could not reserve a private publication directory")
  | attempts + 1 => do
    let name ← randomStageName
    match ← (createAuthenticatedPrivateDirectory effectiveUid anchor.directory anchor.boundary
        name).result with
    | .error e =>
      if e.kind = .alreadyExists then anchor.createPrivateDirectoryLoop attempts else throw e
    | .ok (directory, identity) =>
      let parent ← (tryClone anchor.directory).onError
        (PrivateNamespaceGuard.drop effectiveUid anchor.boundary anchor.directory name identity)
      return ⟨parent, anchor.directoryPath, anchor.boundary, name, directory, identity⟩

def createPrivateDirectory (anchor : AnchoredDirectory) : Io PrivateDirectory := do
  anchor.boundary.authenticateRetainedWithAncestors effectiveUid anchor.directory
  anchor.createPrivateDirectoryLoop effectiveUid quarantineAttempts

end AnchoredDirectory

namespace OwnedPath

def verifyOwnedSocket (owned : OwnedPath) (mode : Option Mode) : Io Unit := do
  let stat ← statat owned.directory owned.publicName
  ensure (stat.identity == owned.identity && stat.kind == .socket &&
      mode.all fun mode => stat.mode &&& 0o777 == mode)
    (.other "owned Unix socket identity changed")

def publishInto (owned : OwnedPath) (destination : AnchoredDirectory) (path : List Component)
    (destinationName : String) : Io OwnedPath := do
  destination.boundary.authenticateRetainedWithAncestors effectiveUid destination.directory
  let destinationDirectory ← tryClone destination.directory
  renameRelativeNoreplace owned.directory owned.publicName destination.directory destinationName
  return { owned with
    directory := destinationDirectory
    boundary := destination.boundary
    directoryPath := destination.directoryPath
    publicName := destinationName
    publicPath := path }

end OwnedPath

namespace PrivateDirectory

/-- The path through the descriptor, which names the directory itself. -/
def stablePath (d : PrivateDirectory) : Io FileIdentity := do
  d.parentBoundary.authenticateRetainedWithAncestors effectiveUid d.parent
  d.parentBoundary.authenticateRetainedWithAncestors effectiveUid d.parent
  return d.directory

def ownEntry (d : PrivateDirectory) (name : String) : Io OwnedPath := do
  let stat ← statat d.directory name
  let directory ← tryClone d.directory
  let boundary ← d.parentBoundary.withChild effectiveUid d.name d.directory d.identity
  return {
    publicPath := .rootDir :: (d.parentPath ++ [d.name, name]).map .normal
    identity := stat.identity
    active := true
    directory := directory
    directoryPath := d.parentPath ++ [d.name]
    publicName := name
    boundary := boundary }

def removeEntry (d : PrivateDirectory) (name : String) : Sys Unit := unwind do
  let _ ← (unlinkat d.directory name).run

/-- The hook runs between the verification and the change of the mode. -/
def prepareSocket (d : PrivateDirectory) (owned : OwnedPath) (mode : Mode)
    (afterVerify : Except IoError Unit) : Io Unit := do
  let identity ← FileIdentity.fromFile owned.directory
  ensure (identity == d.identity) (.other "socket is not owned by the private publication directory")
  owned.verifyOwnedSocket none
  ExceptT.mk (pure afterVerify)
  chmodatPortable owned.directory owned.publicName mode
  owned.verifyOwnedSocket (some mode)

def drop (d : PrivateDirectory) : Sys Unit :=
  dropGuard effectiveUid d.parentBoundary d.parent d.name fun stat =>
    stat.identity == d.identity && stat.kind == .directory

end PrivateDirectory

end ChpProxy
