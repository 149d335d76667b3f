import Mathlib.Tactic.Linarith
import Mathlib.Logic.Function.Basic
import ChpProxy.Lib.Interference

/-! A file system of directories with owners and modes, the calls of a process on it, and what
others may change while the process works in directories of its own. -/
namespace FileSystem

abbrev Mode := BitVec 12

def setGroupId : Mode := 0o2000
def sticky : Mode := 0o1000

inductive Kind where
  | regular
  | directory
  | symlink
  | socket
  | other
  deriving DecidableEq

structure Inode where
  kind : Kind
  owner : ℕ
  mode : Mode
  accessAcl : Bool
  defaultAcl : Bool
  deriving DecidableEq

structure Stat (ι : Type) where
  identity : ι
  kind : Kind
  owner : ℕ
  mode : Mode
  deriving DecidableEq

inductive Errno where
  | noent
  | exist
  | notdir
  | isdir
  | notempty
  | inval
  | nodata
  | range
  | addrinuse
  | other (code : ℕ)
  deriving DecidableEq

inductive Component where
  | rootDir
  | curDir
  | parentDir
  | normal (name : String)
  deriving DecidableEq

/-- The calls that leave the volume as it is. An open directory is its identity. -/
inductive Query (ι : Type) where
  | canonicalize (path : List Component)
  | openRoot
  | openat (directory : ι) (name : String)
  | duplicate (descriptor : ι)
  | fstat (descriptor : ι)
  | fgetxattr (descriptor : ι) (name : String)
  | statat (directory : ι) (name : String)
  | randomBytes (count : ℕ)
  | socket
  | listen (backlog : ℕ)
  | setNonblocking

def Query.Value {ι : Type} : Query ι → Type
  | .canonicalize _ => List String
  | .openRoot | .openat .. | .duplicate _ => ι
  | .fstat _ | .statat .. => Stat ι
  | .randomBytes _ => List UInt8
  | .fgetxattr .. | .socket | .listen _ | .setNonblocking => Unit

inductive Update (ι : Type) where
  | mkdirat (directory : ι) (name : String) (mode : Mode)
  | chmodat (directory : ι) (name : String) (mode : Mode)
  | renameat (source : ι) (name : String) (destination : ι) (name' : String) (noreplace : Bool)
  | unlinkat (directory : ι) (name : String) (removedir : Bool)
  | bind (directory : ι) (name : String)

inductive Call (ι : Type) where
  | query (q : Query ι)
  | update (u : Update ι)

def Call.Value {ι : Type} : Call ι → Type
  | .query q => q.Value
  | .update _ => Unit

abbrev Call.Reply {ι : Type} (c : Call ι) := Except Errno c.Value

/-- A call, and whether it is made while cleaning up. -/
structure Request (ι : Type) where
  call : Call ι
  unwinding : Bool

abbrev Request.Reply {ι : Type} (r : Request ι) := r.call.Reply

def Request.isQuery {ι : Type} (r : Request ι) : Prop :=
  match r.call with
  | .query _ => True
  | .update _ => False

def unwind {ι α : Type} : Interaction.Program (Request ι) Request.Reply α →
    Interaction.Program (Request ι) Request.Reply α
  | .done a => .done a
  | .call r next => .call ⟨r.call, true⟩ fun reply => unwind (next reply)

/-- What the process did to the entries of directories. A move tells what stood at its
destination. -/
inductive Event (ι : Type) where
  | made (directory : ι) (name : String) (identity : ι)
  | bound (directory : ι) (name : String) (identity : ι)
  | moved (source : ι) (name : String) (destination : ι) (name' : String) (identity : ι)
      (replaced : Option ι)
  | unlinked (directory : ι) (name : String) (identity : ι)
  | removed (directory : ι) (name : String) (identity : ι)
  deriving DecidableEq

structure Process (ι : Type) where
  effectiveUid : ℕ
  umask : Mode
  root : ι
  realpath : List Component → Option (List String)

/-- Whether a call fails, the identity of what it creates, and the bytes it draws. -/
structure Fate (ι : Type) where
  error : Option Errno
  identity : ι
  bytes : List UInt8

structure Volume (ι : Type) where
  inodes : ι → Option Inode
  entries : ι → Std.ExtTreeMap String ι

namespace Volume

variable {ι : Type} [DecidableEq ι]

def stat (v : Volume ι) (i : ι) : Except Errno (Stat ι) :=
  match v.inodes i with
  | some inode => .ok ⟨i, inode.kind, inode.owner, inode.mode⟩
  | none => .error .noent

def lookup (v : Volume ι) (d : ι) (name : String) : Except Errno ι :=
  match (v.entries d)[name]? with
  | some i => .ok i
  | none => .error .noent

def link (v : Volume ι) (d : ι) (name : String) (i : ι) : Volume ι :=
  { v with entries := Function.update v.entries d ((v.entries d).insert name i) }

def unlink (v : Volume ι) (d : ι) (name : String) : Volume ι :=
  { v with entries := Function.update v.entries d ((v.entries d).erase name) }

def setInode (v : Volume ι) (i : ι) (inode : Option Inode) : Volume ι :=
  { v with inodes := Function.update v.inodes i inode }

def walk (v : Volume ι) : ι → List String → Option ι
  | d, [] => some d
  | d, name :: names => ((v.entries d)[name]?).bind (v.walk · names)

def route (v : Volume ι) : ι → List String → List (ι × String × ι)
  | _, [] => []
  | d, name :: names => match (v.entries d)[name]? with
    | some i => (d, name, i) :: v.route i names
    | none => []

/-- A new inode, which has no entries. -/
def create (v : Volume ι) (i : ι) (inode : Inode) : Volume ι where
  inodes := Function.update v.inodes i (some inode)
  entries := Function.update v.entries i ∅

end Volume

/-- The inode of a new directory: it inherits the set-group-ID bit and the default ACL of its
parent. -/
def Process.directoryIn {ι : Type} (process : Process ι) (parent : Inode) (mode : Mode) : Inode where
  kind := .directory
  owner := process.effectiveUid
  mode := (mode &&& ~~~process.umask) ||| (parent.mode &&& setGroupId)
  accessAcl := parent.defaultAcl
  defaultAcl := parent.defaultAcl

def Process.socketIn {ι : Type} (process : Process ι) (parent : Inode) : Inode where
  kind := .socket
  owner := process.effectiveUid
  mode := 0o777 &&& ~~~process.umask
  accessAcl := parent.defaultAcl
  defaultAcl := false

section Kernel

variable {ι : Type} [DecidableEq ι]

/-- What a query finds when it is not made to fail. -/
def Query.find (process : Process ι) (v : Volume ι) (fate : Fate ι) :
    (q : Query ι) → Option (Except Errno q.Value)
  | .canonicalize path => some (match process.realpath path with
    | some names => .ok names
    | none => .error .noent)
  | .openRoot => some (.ok process.root)
  | .openat d name => some do
    let i ← v.lookup d name
    let st ← v.stat i
    if st.kind = .directory then .ok i else .error .notdir
  | .duplicate d => some (.ok d)
  | .fstat d => some (v.stat d)
  | .fgetxattr d name => some (match v.inodes d with
    | none => .error .noent
    | some inode =>
      if name = "system.posix_acl_access" ∧ inode.accessAcl ∨
          name = "system.posix_acl_default" ∧ inode.defaultAcl then .ok ()
      else .error .nodata)
  | .statat d name => some do
    let i ← v.lookup d name
    v.stat i
  | .randomBytes count => if fate.bytes.length = count then some (.ok fate.bytes) else none
  | .socket | .listen _ | .setNonblocking => some (.ok ())

/-- A new entry for a new inode. The identity is one that is not in use. -/
def Volume.add (v : Volume ι) (fate : Fate ι) (d : ι) (name : String) (taken : Errno)
    (inode : Inode → Inode) (event : Event ι) : Option (Except Errno (Volume ι × List (Event ι))) :=
  match v.inodes d with
  | none => some (.error .noent)
  | some parent =>
    if parent.kind ≠ .directory then some (.error .notdir)
    else if name ∈ v.entries d then some (.error taken)
    else if (v.inodes fate.identity).isSome then none
    else some (.ok ((v.create fate.identity (inode parent)).link d name fate.identity, [event]))

/-- What an update does to the volume when it is not made to fail. -/
def Update.perform (process : Process ι) (v : Volume ι) (fate : Fate ι) :
    Update ι → Option (Except Errno (Volume ι × List (Event ι)))
  | .mkdirat d name mode =>
    v.add fate d name .exist (process.directoryIn · mode) (.made d name fate.identity)
  | .bind d name => v.add fate d name .addrinuse process.socketIn (.bound d name fate.identity)
  | .chmodat d name mode => some do
    let i ← v.lookup d name
    match v.inodes i with
    | none => .error .noent
    | some inode => .ok (v.setInode i (some { inode with mode := mode }), [])
  | .renameat source name destination name' noreplace => some do
    let i ← v.lookup source name
    let replaced := (v.entries destination)[name']?
    if noreplace ∧ replaced.isSome then .error .exist
    -- a directory cannot move into itself
    else if i = destination then .error .inval
    else .ok ((v.unlink source name).link destination name' i,
      [.moved source name destination name' i replaced])
  | .unlinkat d name false => some do
    let i ← v.lookup d name
    let st ← v.stat i
    if st.kind = .directory then .error .isdir
    else .ok (v.unlink d name, [.unlinked d name i])
  | .unlinkat d name true => some do
    let i ← v.lookup d name
    let st ← v.stat i
    if st.kind ≠ .directory then .error .notdir
    else if (v.entries i).isEmpty then
      .ok ((v.unlink d name).setInode i none, [.removed d name i])
    else .error .notempty

/-- A volume and what the process did to it. -/
structure World (ι : Type) where
  volume : Volume ι
  log : List (Event ι)

/-- The directories that the process made and has not removed, each with the place of its entry. -/
def track (own : List (ι × String × ι)) : Event ι → List (ι × String × ι)
  | .made d name i => (d, name, i) :: own
  | .removed d name i => own.filter (· ≠ (d, name, i))
  | _ => own

def privates (log : List (Event ι)) : List (ι × String × ι) := log.foldl track []

/-- Others leave alone the directory that the process works in, but not its entries, and the
directories that the process made there with all their entries. -/
structure Spares (retained : ι) (own : List (ι × String × ι)) (v v' : Volume ι) : Prop where
  retained : v'.inodes retained = v.inodes retained
  inodes : ∀ p ∈ own, v'.inodes p.2.2 = v.inodes p.2.2
  entries : ∀ p ∈ own, v'.entries p.2.2 = v.entries p.2.2
  entry : ∀ p ∈ own, (v'.entries p.1)[p.2.1]? = (v.entries p.1)[p.2.1]?

instance (retained : ι) (own : List (ι × String × ι)) (v v' : Volume ι) :
    Decidable (Spares retained own v v') :=
  decidable_of_iff
    (v'.inodes retained = v.inodes retained ∧ (∀ p ∈ own, v'.inodes p.2.2 = v.inodes p.2.2) ∧
      (∀ p ∈ own, v'.entries p.2.2 = v.entries p.2.2) ∧
      ∀ p ∈ own, (v'.entries p.1)[p.2.1]? = (v.entries p.1)[p.2.1]?)
    ⟨fun ⟨hr, hi, he, hn⟩ => ⟨hr, hi, he, hn⟩, fun h => ⟨h.retained, h.inodes, h.entries, h.entry⟩⟩

/-- The calls of a process and the others around it. Any call may fail. A steady kernel makes no
call fail that is made while cleaning up and that the volume allows, and does not say by mistake
that there is no such attribute. -/
def kernel (process : Process ι) (retained : ι) (steady : Bool) :
    Interaction.System (World ι) (Volume ι) (Request ι) Request.Reply (Fate ι) where
  disturb w v := if Spares retained (privates w.log) w.volume v then some ⟨v, w.log⟩ else none
  answer w r fate := match fate.error, r with
    | some e, r =>
      if steady = true ∧ (r.unwinding = true ∨ e = .nodata) then none else some (w, .error e)
    | none, ⟨.query q, _⟩ => (q.find process w.volume fate).map (w, ·)
    | none, ⟨.update u, _⟩ => (u.perform process w.volume fate).map fun
      | .ok (v, events) => (⟨v, w.log ++ events⟩, .ok ())
      | .error e => (w, .error e)

variable {process : Process ι} {retained : ι} {steady unwinding : Bool} {w w' : World ι}
  {fate : Fate ι}

theorem answer_query {q : Query ι} {reply : Call.Reply (.query q)}
    (h : (kernel process retained steady).answer w ⟨.query q, unwinding⟩ fate =
      some (w', reply)) :
    w' = w ∧ ((∃ e, reply = .error e ∧ (steady = true → unwinding = false ∧ e ≠ .nodata)) ∨
      q.find process w.volume fate = some reply) := by
  cases he : fate.error with
  | some e =>
    simp only [kernel, he] at h
    split_ifs at h with hs
    cases h
    exact ⟨rfl, .inl ⟨e, rfl, by simpa using hs⟩⟩
  | none =>
    simp only [kernel, he] at h
    obtain ⟨r, hr, heq⟩ := Option.map_eq_some_iff.mp h
    cases heq
    exact ⟨rfl, .inr hr⟩

theorem answer_update {u : Update ι} {reply : Call.Reply (.update u)}
    (h : (kernel process retained steady).answer w ⟨.update u, unwinding⟩ fate =
      some (w', reply)) :
    (∃ e, reply = .error e ∧ w' = w ∧ ((steady = true → unwinding = false) ∨
      u.perform process w.volume fate = some (.error e))) ∨
    ∃ v events, u.perform process w.volume fate = some (.ok (v, events)) ∧ reply = .ok () ∧
      w' = ⟨v, w.log ++ events⟩ := by
  cases he : fate.error with
  | some e =>
    simp only [kernel, he] at h
    split_ifs at h with hs
    cases h
    refine .inl ⟨e, rfl, rfl, .inl ?_⟩
    intro hsteady
    simp only [hsteady, true_and, not_or, Bool.not_eq_true] at hs
    exact hs.1
  | none =>
    simp only [kernel, he] at h
    obtain ⟨r, hr, heq⟩ := Option.map_eq_some_iff.mp h
    cases r with
    | ok r =>
      cases heq
      exact .inr ⟨r.1, r.2, hr, rfl, rfl⟩
    | error e =>
      cases heq
      exact .inl ⟨e, rfl, rfl, .inr hr⟩

theorem answer_isQuery {r : Request ι} {reply : r.Reply} (hr : r.isQuery)
    (h : (kernel process retained steady).answer w r fate = some (w', reply)) : w' = w := by
  obtain ⟨c, unwinding⟩ := r
  cases c with
  | query q => exact (answer_query h).1
  | update u => exact hr.elim

/-- While cleaning up, no more can happen than otherwise. -/
theorem answer_unwinding {r : Request ι} {reply : r.Reply}
    (h : (kernel process retained steady).answer w ⟨r.call, true⟩ fate = some (w', reply)) :
    (kernel process retained steady).answer w r fate = some (w', reply) := by
  obtain ⟨c, unwinding⟩ := r
  cases he : fate.error with
  | some e =>
    simp only [kernel, he, true_or, and_true] at h ⊢
    split_ifs at h with hs
    rw [if_neg (by simp [hs])]
    exact h
  | none =>
    simp only [kernel, he] at h ⊢
    cases c with
    | query q => exact h
    | update u => exact h

theorem wp_unwind {α : Type} {I : World ι → Prop} {Q : α → World ι → Prop}
    {p : Interaction.Program (Request ι) Request.Reply α}
    (h : (kernel process retained steady).wp I p Q w) :
    (kernel process retained steady).wp I (unwind p) Q w := by
  induction p generalizing w with
  | done a => exact h
  | call r next ih =>
    intro t fate t' reply ht ha
    obtain ⟨hi, hw⟩ := h t fate t' reply ht (answer_unwinding ha)
    exact ⟨hi, ih reply hw⟩

end Kernel

end FileSystem
