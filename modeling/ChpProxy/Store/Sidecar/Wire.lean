import ChpProxy.Http
import ChpProxy.Store.Codec
import ChpProxy.Store.Trait

/-! What the sidecar client (`store/sidecar.rs`) sends and receives: endpoints, headers, bodies and
routes. -/
namespace ChpProxy

/-- What the client is built from: the `http` crate, the codecs, `Url::join` on the base URL, and
the retry policy. -/
structure SidecarStore where
  http : Http
  codec : Codec
  join : String → Option String
  maxAttempts : ℕ

namespace SidecarStore

def protocolHeader : HeaderName := "x-store-protocol"
def protocolVersion : String := "v1"
def lastActivityHeader : HeaderName := "x-store-last-activity"
def maxMutationRequestBytes : ℕ := 1024 * 1024
def maxResponseBytes : ℕ := 4 * 1024 * 1024
def maxResponseHeaderCount : ℕ := 64
def maxResponseHeaderBytes : ℕ := 32 * 1024

inductive Method where
  | put
  | patch
  | delete
  deriving DecidableEq

inductive MutationAcknowledgment where
  | put
  | empty
  | delete
  deriving DecidableEq

inductive BodyReadError where
  | transport
  | tooLarge
  deriving DecidableEq

structure Request where
  method : Method
  url : String
  body : Option (List UInt8)

/-- A response as `reqwest` hands it over. The body arrives in chunks, and reading it can fail
after any number of them. -/
structure Response where
  status : ℕ
  headers : HeaderMap
  contentLength : Option ℕ
  chunks : List (List UInt8)
  truncated : Bool

/-- What `send` returned for one attempt. -/
inductive Reply where
  | lost
  | response (r : Response)

structure Exchange where
  request : Request
  reply : Reply

structure HttpReply where
  status : ℕ
  body : List UInt8
  lastActivity : Option DateTime

def isServerError (status : ℕ) : Bool := 500 ≤ status && status < 600

def isClientError (status : ℕ) : Bool := 400 ≤ status && status < 500

def hexDigit (nibble : UInt8) : Char :=
  Char.ofNat (if nibble < 10 then '0'.toNat + nibble.toNat else 'A'.toNat + nibble.toNat - 10)

/-- The octets that stand for themselves in a path segment. -/
def isUnreserved (byte : UInt8) : Bool :=
  (Char.ofNat byte.toNat).isAlphanum || "-._~".toList.contains (Char.ofNat byte.toNat)

def encodeSegment (raw : String) : String :=
  String.ofList (raw.toUTF8.data.toList.flatMap fun byte =>
    if isUnreserved byte then [Char.ofNat byte.toNat]
    else ['%', hexDigit (byte >>> 4), hexDigit (byte &&& 0x0f)])

def hasNonemptyOrAmbiguousBodyFraming (headers : HeaderMap) : Bool :=
  if headers.contains "transfer-encoding" then true
  else match headers.getAll "content-length" with
    | [] => false
    | [length] => length != Http.ofText "0"
    | _ :: _ :: _ => true

/-- A sum that `checked_add` refuses is above the bound as well. -/
def headersWithinLimits (headers : HeaderMap) : Bool :=
  if maxResponseHeaderCount < headers.iter.length then false
  else (headers.iter.map fun (name, value) => name.utf8ByteSize + value.length).sum
    ≤ maxResponseHeaderBytes

/-- The chunks of a body, added to what has been read. -/
def readChunks (truncated : Bool) :
    List (List UInt8) → List UInt8 → Except BodyReadError (List UInt8)
  | [], bytes => if truncated then .error .transport else .ok bytes
  | chunk :: chunks, bytes =>
    if maxResponseBytes < bytes.length + chunk.length then .error .tooLarge
    else readChunks truncated chunks (bytes ++ chunk)

def boundedBody (response : Response) : Except BodyReadError (List UInt8) :=
  if response.contentLength.any (maxResponseBytes < ·) then .error .tooLarge
  else readChunks response.truncated response.chunks []

def readMutationBody (response : Response) (operation : String) :
    Except StoreError (List UInt8) :=
  (boundedBody response).mapError fun _ => .indeterminate operation

def readEmptyBody (response : Response) (operation : String) : Except StoreError (List UInt8) := do
  let body ← readMutationBody response operation
  if !body.isEmpty then .error (.indeterminate operation) else .ok body

variable (store : SidecarStore)

def endpoint (relative : String) : Except StoreError String :=
  (store.join relative).elim (.error (.backend "connect")) .ok

def routeEndpoint (key : RouteKey) (suffix : String) : Except StoreError String :=
  store.endpoint ("v1/routes/" ++ encodeSegment key.asStr ++ suffix)

def chpTimestamp (value : DateTime) : String := store.codec.toRfc3339 value

def parseTimestamp (raw : String) : Option DateTime :=
  (store.codec.parseFromRfc3339 raw).bind fun parsed =>
    if store.chpTimestamp parsed = raw then some parsed else none

def singleHeader (headers : HeaderMap) (name : HeaderName) : Option String :=
  match headers.getAll name with
  | [] => none
  | value :: values => (store.http.toStr value).bind fun text =>
    if values.isEmpty then some text else none

def hasExactProtocolHeader (headers : HeaderMap) : Bool :=
  store.singleHeader headers protocolHeader = some protocolVersion

def hasExactContentType (headers : HeaderMap) (expected : String) : Bool :=
  store.singleHeader headers "content-type" = some expected

/-- A route object with its reserved members, refused when the metadata names one of them. -/
def encodeRoute (operation : String) (data : RouteData) : Except StoreError Value :=
  if data.extra.contains "target" || data.extra.contains "last_activity" then
    .error (.corruptData operation "<outgoing>")
  else .ok (.object (((data.extra.insert "target" (.string data.target)).insert "last_activity"
    (.string (store.chpTimestamp data.lastActivity))).toList))

def decodeRoute (body : List UInt8) : Option RouteData :=
  (store.codec.fromSlice body).bind
    (RouteData.visitMap store.parseTimestamp true · none none ∅)

end SidecarStore

end ChpProxy
