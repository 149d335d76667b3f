import ChpProxy.Lib.Retry
import ChpProxy.Store.Sidecar.Wire

/-! The mutators of the sidecar client. The wire is a parameter: one reply for every attempt, and a
computation logs the exchanges it dispatched. -/
namespace ChpProxy.SidecarStore

abbrev Outcome := Logged Exchange StoreError

variable (store : SidecarStore)

/-- The checks on a response whose status does not already decide the attempt. -/
def acknowledge (operation : String) (acknowledgment : MutationAcknowledgment)
    (response : Response) : Except StoreError HttpReply :=
  let bodiless := !(response.headers.contains "content-type" ||
    hasNonemptyOrAmbiguousBodyFraming response.headers)
  match acknowledgment with
  | .put =>
    if response.status = 204 then
      if !bodiless then .error (.indeterminate operation)
      else match (store.singleHeader response.headers lastActivityHeader).bind
          store.parseTimestamp with
        | none => .error (.indeterminate operation)
        | some lastActivity => do
          let body ← readEmptyBody response operation
          .ok ⟨response.status, body, some lastActivity⟩
    else .error (.indeterminate operation)
  | .empty =>
    if response.status = 204 then
      if !bodiless then .error (.indeterminate operation)
      else do
        let body ← readEmptyBody response operation
        .ok ⟨response.status, body, none⟩
    else .error (.indeterminate operation)
  | .delete =>
    if response.status = 200 then
      if !store.hasExactContentType response.headers "application/json" then
        .error (.indeterminate operation)
      else do
        let body ← readMutationBody response operation
        .ok ⟨response.status, body, none⟩
    else if response.status = 404 then
      if !bodiless then .error (.indeterminate operation)
      else do
        let body ← readEmptyBody response operation
        .ok ⟨response.status, body, none⟩
    else .error (.indeterminate operation)

/-- A client error other than the 404 that acknowledges a DELETE. -/
def isRejection (acknowledgment : MutationAcknowledgment) (status : ℕ) : Bool :=
  isClientError status && !(acknowledgment = .delete && status = 404)

/-- The reply to one dispatched attempt; `none` asks for another one. -/
def receive (operation : String) (acknowledgment : MutationAcknowledgment) :
    Reply → Except StoreError (Option HttpReply)
  | .lost => .error (.indeterminate operation)
  | .response response =>
    if !headersWithinLimits response.headers ||
        !store.hasExactProtocolHeader response.headers then
      .error (.indeterminate operation)
    else if isServerError response.status then .ok none
    else if isRejection acknowledgment response.status then .error (.backend operation)
    else (store.acknowledge operation acknowledgment response).map some

section Attempts

variable {τ : Type} (operation : String) (method : Method) (url : String)
  (acknowledgment : MutationAcknowledgment)
  (makeAttempt : ℕ → τ → Except StoreError (Option (List UInt8) × τ)) (replies : ℕ → Reply)

/-- One turn of the loop. `τ` is what the closure that builds the body keeps between its calls. -/
def attempt (k : ℕ) (captured : τ) : Outcome (HttpReply ⊕ τ) := do
  let (body, captured) ← Logged.lift (makeAttempt k captured)
  if body.any (maxMutationRequestBytes < ·.length) then
    Logged.lift (.error (.backend operation))
  else
    Logged.emit ⟨⟨method, url, body⟩, replies k⟩
    match ← Logged.lift (store.receive operation acknowledgment (replies k)) with
    | some reply => return .inl reply
    | none => return .inr captured

/-- The server error of the last attempt ends as the exhausted loop does. -/
def mutationRequest (captured : τ) : Outcome HttpReply :=
  Retry.retry (store.attempt operation method url acknowledgment makeAttempt replies)
    (.backend operation) store.maxAttempts 0 captured

end Attempts

/-- The body of a PUT. Every attempt samples the floor again, and the floor that was sent never
falls. -/
def putAttempt (errorOperation protocolOperation : String) (route : Value)
    (activityFloor : Option (ℕ → Option DateTime)) (k : ℕ) (sentFloor : DateTime) :
    Except StoreError (Option (List UInt8) × DateTime) :=
  let sentFloor := (activityFloor.bind (· k)).elim sentFloor (max sentFloor ·)
  match store.codec.toVec [("version", .string protocolVersion),
      ("operation", .string protocolOperation), ("route", route),
      ("activityFloor", .string (store.chpTimestamp sentFloor))] with
  | some body => .ok (some body, sentFloor)
  | none => .error (.corruptData errorOperation "<outgoing>")

def putEnvelope (errorOperation protocolOperation : String) (key : RouteKey) (data : RouteData)
    (activityFloor : Option (ℕ → Option DateTime)) (replies : ℕ → Reply) : Outcome RouteData := do
  let route ← Logged.lift (store.encodeRoute errorOperation data)
  let url ← Logged.lift (store.routeEndpoint key "")
  let reply ← store.mutationRequest errorOperation .put url .put
    (store.putAttempt errorOperation protocolOperation route activityFloor) replies
    data.lastActivity
  Logged.lift (match reply.lastActivity with
    | some lastActivity => .ok { data with lastActivity := lastActivity }
    | none => .error (.indeterminate errorOperation))

/-- `now` is the clock of the caller, `floors` what the floor returned at each attempt. -/
def add (now : DateTime) (key : RouteKey) (target : String) (extra : Map)
    (floors : ℕ → Option DateTime) (replies : ℕ → Reply) : Outcome RouteData :=
  store.putEnvelope "add" "add" key ⟨target, now, extra⟩ (some floors) replies

def put (key : RouteKey) (data : RouteData) (replies : ℕ → Reply) : Outcome Unit := do
  let _ ← store.putEnvelope "put" "put" key data none replies
  Logged.lift (.ok ())

def putPreservingActivity (key : RouteKey) (data : RouteData) (floors : ℕ → Option DateTime)
    (replies : ℕ → Reply) : Outcome RouteData :=
  store.putEnvelope "put" "put_preserving_activity" key data (some floors) replies

def updateActivity (key : RouteKey) (at' : DateTime) (replies : ℕ → Reply) : Outcome Unit := do
  let body ← Logged.lift (match store.codec.toVec [("version", .string protocolVersion),
      ("lastActivity", .string (store.chpTimestamp at'))] with
    | some body => .ok body
    | none => .error (.corruptData "update_activity" "<outgoing>"))
  let url ← Logged.lift (store.routeEndpoint key "/activity")
  let _ ← store.mutationRequest "update_activity" .patch url .empty
    (fun _ (captured : Unit) => .ok (some body, captured)) replies ()
  Logged.lift (.ok ())

def delete (key : RouteKey) (replies : ℕ → Reply) : Outcome (Option RouteData) := do
  let url ← Logged.lift (store.routeEndpoint key "")
  let reply ← store.mutationRequest "delete" .delete url .delete
    (fun _ (captured : Unit) => .ok (none, captured)) replies ()
  Logged.lift (if reply.status = 404 then .ok none
    else if reply.status = 200 then
      match store.decodeRoute reply.body with
      | some data => .ok (some data)
      | none => .error (.indeterminate "delete")
    else .error (.indeterminate "delete"))

/-- A call of one of the five mutators. -/
inductive Mutation where
  | add (key : RouteKey) (target : String) (extra : Map)
  | put (key : RouteKey) (data : RouteData)
  | putPreservingActivity (key : RouteKey) (data : RouteData)
  | updateActivity (key : RouteKey) (at' : DateTime)
  | delete (key : RouteKey)

namespace Mutation

def acknowledgment : Mutation → MutationAcknowledgment
  | .add .. | .put .. | .putPreservingActivity .. => .put
  | .updateActivity .. => .empty
  | .delete _ => .delete

def Output : Mutation → Type
  | .add .. | .putPreservingActivity .. => RouteData
  | .put .. | .updateActivity .. => Unit
  | .delete _ => Option RouteData

end Mutation

/-- `now`, `floors` and `replies` are all that a call observes of its surroundings. -/
def exec (now : DateTime) (floors : ℕ → Option DateTime) (replies : ℕ → Reply) :
    (m : Mutation) → Outcome m.Output
  | .add key target extra => store.add now key target extra floors replies
  | .put key data => store.put key data replies
  | .putPreservingActivity key data => store.putPreservingActivity key data floors replies
  | .updateActivity key at' => store.updateActivity key at' replies
  | .delete key => store.delete key replies

end ChpProxy.SidecarStore
