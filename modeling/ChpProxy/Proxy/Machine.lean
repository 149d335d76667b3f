import ChpProxy.Registry.Machine
import ChpProxy.Upstream.Location

/-! The data plane (`proxy.rs`): the callbacks of `ChpProxy` for any number of requests over one
registry, with one step for each access to what they share. Pingora calls `request_filter` first
and then the other callbacks in any order, until it gives a request up or completes it, logs it and
drops its context; it may drop the context at any time. -/
namespace ChpProxy

def ProxyErrorClass.status : ProxyErrorClass → ℕ
  | .routeMiss => 404
  | .unavailableUpstream => 503
  | .internal => 500

namespace Proxy

def healthPath : String := "/_chp_healthz"

structure Options extends ProxyOptions, RewriteOptions where
  prependPath : Bool
  includePrefix : Bool
  hostRouting : Bool
  /-- The public listener has TLS. -/
  secure : Bool

/-- What the callbacks use of other crates. -/
structure Libraries where
  http : Http
  parsers : UriParsers
  editors : UrlEditors
  isIpv6 : String → Bool
  /-- `http::uri::Authority`, then `port_u16`. -/
  authorityPort : String → Option UInt16

/-- What a callback reads of a `Session`. -/
structure Session where
  uri : Uri
  headers : HeaderMap
  isUpgradeReq : Bool

inductive ErrorSource where
  | upstream
  | downstream
  | internal
  | unset
  deriving DecidableEq

inductive ErrorType where
  | readError
  | writeError
  | connectionClosed
  | connectError
  | httpStatus (status : ℕ)
  | other
  deriving DecidableEq

structure Error where
  esource : ErrorSource
  etype : ErrorType
  deriving DecidableEq

structure RequestContext where
  resolvedRouteKey : Option RouteKey
  originalUri : Uri
  originalHost : Option HeaderValue
  errorClassification : Option ProxyErrorClass
  upstreamRoute : Option UpstreamRoute
  requestActivityPublished : Bool
  responseActivityPublished : Bool
  trafficAdmission : Bool

def RequestContext.default : RequestContext :=
  ⟨none, ⟨none, none, some "/", "/"⟩, none, none, none, false, false, false⟩

inductive Answer where
  | health
  | empty (status : ℕ)
  | page (status : ℕ) (original : String)
  deriving DecidableEq

def Answer.status : Answer → ℕ
  | .health => 200
  | .empty status | .page status _ => status

/-- What a callback does to the outside. -/
inductive Effect where
  | wsRequest
  | webRequest
  | findTarget
  | proxyRequest (status : ℕ)
  | activity (key : RouteKey)
  | send (target : Target) (uri : Uri) (headers : HeaderMap)
  | respond (status : ℕ) (headers : HeaderMap)
  | answer (answer : Answer)

/-- Where a request stands. While an answer is written, `failure` is the error that `fail_to_proxy`
was called for. -/
inductive Phase where
  | arrived
  | admitted
  | resolving (path : String)
  | loading (path : String)
  | answering (answer : Answer) (failure : Option Error)
  | proxying
  | failed (error : Error)
  | over (error : Option Error)
  | logged (error : Option Error)
  | dropped

/-- A request, its context, and the status of the response header that was written to the client. -/
structure Exchange where
  session : Session
  ctx : RequestContext
  phase : Phase
  responseWritten : Option ℕ
  log : List Effect

/-- How `Target::http_peer` ends. -/
inductive PeerResult where
  | peer
  | unavailable
  | invalid

/-- What Pingora, the clients and the servers decide. -/
inductive Event where
  | tryAdmit (admitted : Bool)
  | consistencyStatus
  | isIndeterminate
  | loadSnapshot
  | written
  | writeFailed (headerWritten : Bool) (error : Error)
  | upstreamPeer (result : PeerResult)
  | upstreamRequestFilter (inbound : HeaderMap) (clientAddress : Option String)
      (serverPort : Option UInt16) (bodyEmpty : Bool)
  | upstreamResponseFilter (status : ℕ) (headers : HeaderMap)
  | writeResponse (status : ℕ)
  | requestBodyFilter (hasData : Bool)
  | upstreamResponseBodyFilter (hasData : Bool)
  | failToConnect
  | errorWhileProxy (error : Error)
  | giveUp (error : Error)
  | complete
  | failToProxy
  | logging
  | drop

namespace RequestContext

def claimRequestActivity (ctx : RequestContext) : Bool × RequestContext :=
  (!ctx.requestActivityPublished, { ctx with requestActivityPublished := true })

def claimResponseActivity (ctx : RequestContext) (websocket : Bool) : Bool × RequestContext :=
  if websocket then
    (!ctx.responseActivityPublished, { ctx with responseActivityPublished := true })
  else (false, ctx)

def claimHttpCompletionActivity (ctx : RequestContext) (successful websocket : Bool) :
    Bool × RequestContext :=
  if successful && !websocket then ctx.claimRequestActivity else (false, ctx)

def releaseTrafficAdmission (ctx : RequestContext) : RequestContext :=
  { ctx with trafficAdmission := false }

def publishActivity (ctx : RequestContext) : List Effect :=
  (ctx.resolvedRouteKey.map Effect.activity).toList

/-- The classification and the error of `internal_error`. -/
def internalError (ctx : RequestContext) : RequestContext × Error :=
  ({ ctx with errorClassification := some .internal }, ⟨.internal, .httpStatus 500⟩)

end RequestContext

namespace Exchange

def record (x : Exchange) (effects : List Effect) : Exchange := { x with log := x.log ++ effects }

def failInternal (x : Exchange) : Exchange :=
  { x with ctx := x.ctx.internalError.1, phase := .failed x.ctx.internalError.2 }

def countRequest (session : Session) : Effect :=
  if session.isUpgradeReq then .wsRequest else .webRequest

def recordPublicFailure (x : Exchange) (status : ℕ) : Exchange :=
  x.record [countRequest x.session, .proxyRequest status]

def unavailable (x : Exchange) : Exchange :=
  { x.recordPublicFailure 503 with phase := .answering (.empty 503) none }

end Exchange

/-- The path and query of the request as it came, or its path. -/
def originalText (uri : Uri) : String := uri.pathAndQuery.getD uri.path

def percentDecode (input : String) : Option String := Api.percentDecode input.toList

def forwardedClientAddress (address : Option String) : String := address.getD "undefined"

/-- The octets before the first colon of the `Host` header, if it is readable. -/
def routingHost (libraries : Libraries) (host : Option HeaderValue) : String :=
  match host.bind libraries.http.toStr with
  | none => "undefined"
  | some host => String.ofList (host.toList.takeWhile (· ≠ ':'))

/-- The path that the registry is asked for. -/
def lookupPath (libraries : Libraries) (options : Options) (session : Session)
    (host : Option HeaderValue) : Option String :=
  (percentDecode session.uri.path).map fun decoded =>
    if options.hostRouting then "/" ++ routingHost libraries host ++ decoded else decoded

def parseTarget (libraries : Libraries) (target : String) : Option Target :=
  match libraries.parsers.parseUrl target with
  | .error _ => none
  | .ok url => (Target.parse libraries.isIpv6 url).toOption

def recordsProxyResponseStatus (status : ℕ) : Bool := status ≠ 101

section Callbacks

variable {σ : Type} (libraries : Libraries) (options : Options) (registry : Registry σ)
  (x : Exchange)

def tryAdmit (admitted : Bool) : Exchange :=
  if admitted then { x with ctx := { x.ctx with trafficAdmission := true }, phase := .admitted }
  else x.unavailable

/-- `request_filter` from the consistency check to the call of `RouteRegistry::resolve`. -/
def checkConsistency : Exchange :=
  if registry.mutations.isIndeterminate then x.unavailable
  else
    let host := x.session.headers.get? "host"
    let x := { x with ctx := { x.ctx with originalUri := x.session.uri, originalHost := host } }
    if originalText x.session.uri = healthPath then { x with phase := .answering .health none }
    else
      let x := x.record [Exchange.countRequest x.session]
      match lookupPath libraries options x.session host with
      | none => (x.record [.findTarget]).failInternal
      | some path => { x with phase := .resolving path }

def routeMiss : Exchange :=
  { x.record [.findTarget, .proxyRequest 404] with
    ctx := { x.ctx with errorClassification := some .routeMiss }
    phase := .answering (.page 404 (originalText x.ctx.originalUri)) none }

def testSeal (path : String) : Exchange :=
  if registry.mutations.isIndeterminate then routeMiss x else { x with phase := .loading path }

def loadSnapshot (path : String) : Exchange :=
  match registry.snapshot.snapshot.resolve path with
  | none => routeMiss x
  | some matched =>
    let x := x.record [.findTarget]
    match parseTarget libraries matched.data.target with
    | none => x.failInternal
    | some target =>
      { x with
        ctx :=
          { x.ctx with
            resolvedRouteKey := some matched.key
            upstreamRoute := some ⟨matched.key, target⟩ }
        phase := .proxying }

def writeAnswer (answer : Answer) : Exchange :=
  { x.record [.answer answer] with responseWritten := some answer.status }

/-- `request_filter` returns the error of a write, and `fail_to_proxy` ignores it. -/
def writeFailed (answer : Answer) (failure : Option Error) (headerWritten : Bool) (error : Error) :
    Exchange :=
  { (if headerWritten then writeAnswer x answer else x) with
    phase := failure.elim (.failed error) fun failure => .over (some failure) }

def upstreamPeer (result : PeerResult) : Exchange :=
  match x.ctx.upstreamRoute with
  | none => x.failInternal
  | some _ => match result with
    | .peer => x
    | .unavailable =>
      { x with
        ctx := { x.ctx with errorClassification := some .unavailableUpstream }
        phase := .failed ⟨.upstream, .connectError⟩ }
    | .invalid => x.failInternal

def forwardedPort (serverPort : Option UInt16) : UInt16 :=
  let defaultPort := if options.secure then 443 else 80
  match x.ctx.originalHost with
  | some host => ((libraries.http.toStr host).bind libraries.authorityPort).getD defaultPort
  | none => serverPort.getD defaultPort

/-- A panic unwinds the request and drops its context. -/
def upstreamRequestFilter (inbound : HeaderMap) (clientAddress : Option String)
    (serverPort : Option UInt16) (bodyEmpty : Bool) : Exchange :=
  match x.ctx.upstreamRoute with
  | none => x.failInternal
  | some route =>
    match Upstream.buildUpstreamUri libraries.parsers route x.ctx.originalUri options.includePrefix
      options.prependPath with
    | none => { x with ctx := x.ctx.releaseTrafficAdmission, phase := .dropped }
    | some (.error _) => x.failInternal
    | some (.ok uri) =>
      let context : ForwardedContext :=
        ⟨forwardedClientAddress clientAddress, forwardedPort libraries options x serverPort,
          if options.secure then "https" else "http"⟩
      match Upstream.upstreamRequestFilter libraries.http inbound context route.target
        options.toProxyOptions bodyEmpty with
      | .error _ => x.failInternal
      | .ok headers => x.record [.send route.target uri headers]

def upstreamResponseFilter (status : ℕ) (headers : HeaderMap) : Exchange :=
  match x.ctx.upstreamRoute with
  | none => x.failInternal
  | some route =>
    match Upstream.upstreamResponseFilter libraries.http libraries.parsers libraries.editors
      libraries.isIpv6 options.toRewriteOptions status headers x.ctx.originalHost route.target with
    | none => x.failInternal
    | some headers =>
      x.record (.respond status headers ::
        if recordsProxyResponseStatus status then [.proxyRequest status] else [])

/-- An observer has claimed the publication of an activity, or not. -/
def publishClaimed (claim : Bool × RequestContext) : Exchange :=
  { x.record (if claim.1 then claim.2.publishActivity else []) with ctx := claim.2 }

def requestBodyFilter (hasData : Bool) : Exchange :=
  if hasData then publishClaimed x x.ctx.claimRequestActivity else x

def upstreamResponseBodyFilter (hasData : Bool) : Exchange :=
  if hasData then publishClaimed x (x.ctx.claimResponseActivity x.session.isUpgradeReq) else x

def failToConnect : Exchange :=
  { x with ctx := { x.ctx with errorClassification := some .unavailableUpstream } }

def errorWhileProxy (error : Error) : Exchange :=
  if x.ctx.errorClassification.isNone && error.esource = .upstream then failToConnect x else x

def Error.clientClosed (error : Error) : Bool :=
  error.esource = .downstream &&
    (error.etype = .readError || error.etype = .writeError || error.etype = .connectionClosed)

def classify (error : Error) : ProxyErrorClass :=
  x.ctx.errorClassification.getD
    (if error.esource = .upstream then .unavailableUpstream else .internal)

def failToProxy (error : Error) : Exchange :=
  if x.responseWritten.isSome || error.clientClosed then { x with phase := .over (some error) }
  else
    let status := (classify x error).status
    { x.record [.proxyRequest status] with
      phase := .answering
        (if x.session.isUpgradeReq then .empty status
          else .page status (originalText x.ctx.originalUri)) (some error) }

def logging (error : Option Error) : Exchange :=
  let successful := error.isNone && x.responseWritten.any (· < 300)
  let x := publishClaimed x (x.ctx.claimHttpCompletionActivity successful x.session.isUpgradeReq)
  { x with ctx := x.ctx.releaseTrafficAdmission, phase := .logged error }

/-- The next step of a request; `none` if it has no such step. -/
def stepExchange (event : Event) : Option Exchange :=
  match event, x.phase with
  | .tryAdmit admitted, .arrived => some (tryAdmit x admitted)
  | .consistencyStatus, .admitted => some (checkConsistency libraries options registry x)
  | .isIndeterminate, .resolving path => some (testSeal registry x path)
  | .loadSnapshot, .loading path => some (loadSnapshot libraries registry x path)
  | .written, .answering answer failure =>
    some { writeAnswer x answer with phase := .over failure }
  | .writeFailed headerWritten error, .answering answer failure =>
    some (writeFailed x answer failure headerWritten error)
  | .upstreamPeer result, .proxying => some (upstreamPeer x result)
  | .upstreamRequestFilter inbound clientAddress serverPort bodyEmpty, .proxying =>
    some (upstreamRequestFilter libraries options x inbound clientAddress serverPort bodyEmpty)
  | .upstreamResponseFilter status headers, .proxying =>
    some (upstreamResponseFilter libraries options x status headers)
  | .writeResponse status, .proxying => some { x with responseWritten := some status }
  | .requestBodyFilter hasData, .proxying => some (requestBodyFilter x hasData)
  | .upstreamResponseBodyFilter hasData, .proxying => some (upstreamResponseBodyFilter x hasData)
  | .failToConnect, .proxying => some (failToConnect x)
  | .errorWhileProxy error, .proxying => some (errorWhileProxy x error)
  | .giveUp error, .proxying => some { x with phase := .failed error }
  | .complete, .proxying => some { x with phase := .over none }
  | .failToProxy, .failed error => some (failToProxy x error)
  | .logging, .over error => some (logging x error)
  | .drop, .dropped => none
  | .drop, _ => some { x with ctx := x.ctx.releaseTrafficAdmission, phase := .dropped }
  | _, _ => none

end Callbacks

end Proxy

/-- The registry and the requests that were accepted. -/
structure DataPlane (σ : Type) where
  registry : Registry σ
  exchanges : List Proxy.Exchange

namespace DataPlane

inductive Action (ι : Type) where
  | registry (a : ChpProxy.Action ι)
  | request (session : Proxy.Session)
  | event (r : ℕ) (event : Proxy.Event)

variable {σ ι : Type}

def step (S : Store σ ι) (libraries : Proxy.Libraries) (options : Proxy.Options) (s : DataPlane σ) :
    Action ι → Option (DataPlane σ)
  | .registry a =>
    (Registry.step S s.registry a).map fun registry => { s with registry := registry }
  | .request session =>
    some { s with exchanges := s.exchanges ++ [⟨session, .default, .arrived, none, []⟩] }
  | .event r event => (s.exchanges[r]?).bind fun x =>
    (Proxy.stepExchange libraries options s.registry x event).map fun x =>
      { s with exchanges := s.exchanges.set r x }

abbrev run (S : Store σ ι) (libraries : Proxy.Libraries) (options : Proxy.Options) :
    DataPlane σ → List (Action ι) → Option (DataPlane σ) :=
  Transition.run (step S libraries options)

end DataPlane

end ChpProxy
