import ChpProxy.PathOwnership.Publication

/-! `bind_unix_socket_with_stage_hook`: a socket is bound in a private stage directory and moved to
its public name. -/
namespace ChpProxy

open FileSystem Interaction Io Fallible

def fileName (path : List Component) : Option String :=
  match path.getLast? with
  | some (.normal name) => some name
  | _ => none

/-- `Path::parent`, or the current directory. -/
def parentPath (path : List Component) : List Component :=
  match path.getLast? with
  | none | some .rootDir => [.curDir]
  | some _ => path.dropLast

variable (effectiveUid : ℕ)

/-- From `own_entry` on the owner cleans up after every failure; when it has published the entry it
is returned. -/
def publishStaged (anchor : AnchoredDirectory) (staging : PrivateDirectory) (owner : OwnedPath)
    (path : List Component) (publicName : String) (beforeChmod : Except IoError Unit) :
    Io OwnedPath :=
  (do
    query (.listen 1024)
    query .setNonblocking
    staging.prepareSocket owner 0o660 beforeChmod
    owner.publishInto effectiveUid anchor path publicName : Io OwnedPath).onError
    (unwind do let _ ← owner.cleanup effectiveUid)

/-- From the creation of the stage directory on it is dropped at the end, in success and
failure. -/
def bindStaged (anchor : AnchoredDirectory) (staging : PrivateDirectory) (path : List Component)
    (publicName : String) (beforeChmod : Except IoError Unit) : Io OwnedPath :=
  (do
    let directory ← staging.stablePath effectiveUid
    query .socket
    update (.bind directory "s")
    match ← (staging.ownEntry effectiveUid "s").result with
    | .error e =>
      ExceptT.lift (staging.removeEntry "s")
      throw e
    | .ok owner =>
      publishStaged effectiveUid anchor staging owner path publicName beforeChmod :
        Io OwnedPath).thenDrop (staging.drop effectiveUid)

/-- Every error is reported as `ListenerError::UnixBind`. -/
def bindUnixSocket (path : List Component) (beforeChmod : Except IoError Unit) : Io OwnedPath := do
  let publicName ← match fileName path with
    | some name => pure name
    | none => throw (.new .invalidInput "Unix socket path has no file name")
  let anchor ← AnchoredDirectory.capture effectiveUid (parentPath path)
  let staging ← anchor.createPrivateDirectory effectiveUid
  bindStaged effectiveUid anchor staging path publicName beforeChmod

end ChpProxy
