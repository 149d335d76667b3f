import ChpProxy.Store.Sidecar.Client

/-! The v1 protocol as `docs/sidecar-store.md` has it: which replies prove that an attempt did not
commit, and which acknowledge it. It is stated over header lines, octets and status codes, apart from
the checks of the client. -/
namespace ChpProxy.SidecarStore

namespace Response

/-- One header line of this name, with this value. -/
def HasHeader (r : Response) (name : HeaderName) (value : String) : Prop :=
  r.headers.getAll name = [Http.ofText value]

/-- The whole body has arrived, and no more than 4 MiB were sent or announced. -/
structure Delivers (r : Response) (body : List UInt8) : Prop where
  complete : r.truncated = false
  octets : r.chunks.flatten = body
  length : body.length ≤ 4194304
  announced : ∀ n, r.contentLength = some n → n ≤ 4194304

/-- A reply of protocol v1, with at most 64 header lines and 32 KiB of them. -/
structure Speaks (r : Response) (status : ℕ) : Prop where
  version : r.HasHeader "x-store-protocol" "v1"
  lines : r.headers.iter.length ≤ 64
  size : (r.headers.iter.map fun p => p.1.utf8ByteSize + p.2.length).sum ≤ 32768
  status_eq : r.status = status

/-- A reply without content: neither a type nor the framing of a body, and no body. -/
structure NoContent (r : Response) (status : ℕ) : Prop extends r.Speaks status where
  untyped : r.headers.getAll "content-type" = []
  unframed : r.headers.getAll "transfer-encoding" = []
  lengths : r.headers.getAll "content-length" = [] ∨ r.HasHeader "content-length" "0"
  body : r.Delivers []

/-- The 200 of a DELETE, with the removed record as its body. -/
structure Content (r : Response) (body : List UInt8) : Prop extends r.Speaks 200 where
  typed : r.HasHeader "content-type" "application/json"
  body : r.Delivers body

/-- An error status under the protocol header: a server error, or a client error other than the 404
that answers a DELETE. -/
def Refuses (r : Response) (acknowledgment : MutationAcknowledgment) : Prop :=
  r.HasHeader "x-store-protocol" "v1" ∧ (500 ≤ r.status ∧ r.status ≤ 599 ∨
    400 ≤ r.status ∧ r.status ≤ 499 ∧ ¬(acknowledgment = .delete ∧ r.status = 404))

end Response

/-- What v1 leaves open about an attempt: a refusal proves that it did not commit, and nothing else
does. -/
def MayHaveCommitted (acknowledgment : MutationAcknowledgment) : Reply → Prop
  | .lost => True
  | .response r => ¬r.Refuses acknowledgment

/-- The text of an instant, in the one form that the protocol has for it. -/
structure Canonical (codec : Codec) (text : String) (t : DateTime) : Prop where
  read : codec.parseFromRfc3339 text = some t
  written : codec.toRfc3339 t = text

/-- The members of a route object: none is repeated, the target and the instant are texts, and the
others are the metadata. -/
structure RouteObject (codec : Codec) (members : List (String × Value)) (data : RouteData) :
    Prop where
  nodup : (members.map Prod.fst).Nodup
  target : ("target", .string data.target) ∈ members
  lastActivity : ∃ text, ("last_activity", .string text) ∈ members ∧
    Canonical codec text data.lastActivity
  extra : ∀ k v, data.extra[k]? = some v ↔
    (k ≠ "target" ∧ k ≠ "last_activity") ∧ (k, v) ∈ members

variable (store : SidecarStore)

/-- The 204 of a PUT, with the one activity header that names the committed instant. -/
def Committed (r : Response) (lastActivity : DateTime) : Prop :=
  r.NoContent 204 ∧ ∃ text, Http.Visible text ∧ r.HasHeader "x-store-last-activity" text ∧
    Canonical store.codec text lastActivity

def Removed (r : Response) (data : RouteData) : Prop :=
  ∃ body members, r.Content body ∧ store.codec.fromSlice body = some members ∧
    RouteObject store.codec members data

/-- The documented acknowledgment of a mutation and the value the caller gets from it. -/
def Acknowledged : (m : Mutation) → Response → m.Output → Prop
  | .add _ target extra, r, committed =>
    ∃ lastActivity, store.Committed r lastActivity ∧ committed = ⟨target, lastActivity, extra⟩
  | .put .., r, _ => ∃ lastActivity, store.Committed r lastActivity
  | .putPreservingActivity _ data, r, committed =>
    ∃ lastActivity, store.Committed r lastActivity ∧
      committed = { data with lastActivity := lastActivity }
  | .updateActivity .., r, _ => r.NoContent 204
  | .delete _, r, prior =>
    r.NoContent 404 ∧ prior = none ∨ ∃ data, store.Removed r data ∧ prior = some data

/-- The documented acknowledgment of one attempt, as the caller of the retry loop gets it. -/
def Acknowledges (r : Response) : MutationAcknowledgment → HttpReply → Prop
  | .put, reply => ∃ lastActivity, store.Committed r lastActivity ∧
      reply = ⟨204, [], some lastActivity⟩
  | .empty, reply => r.NoContent 204 ∧ reply = ⟨204, [], none⟩
  | .delete, reply => r.NoContent 404 ∧ reply = ⟨404, [], none⟩ ∨
      ∃ body, r.Content body ∧ reply = ⟨200, body, none⟩

end ChpProxy.SidecarStore
