import ChpProxy.Http
import ChpProxy.Lib.Text
import Mathlib.Order.Lattice

/-! The request header policy of `upstream.rs` and the pass of `proxy.rs` that runs it for every
upstream request. -/
namespace ChpProxy

/-- A validated upstream target. -/
inductive Target where
  | tcp (host : String) (port : UInt16) (authority : String) (path : String) (tls : Bool)
  | unix (socketPath : List UInt8) (path : String)

def Target.authority : Target → String
  | .tcp _ _ authority _ _ => authority
  | .unix _ _ => "localhost"

structure ForwardedContext where
  clientAddress : String
  port : UInt16
  protocol : String

/-- The options that the header policy reads. -/
structure ProxyOptions where
  xForward : Bool
  changeOrigin : Bool
  customHeaders : Std.ExtTreeMap String String

inductive ProxyRequestError where
  | invalidUri (message : String)
  | invalidCustomHeaderName (name : String)
  | invalidCustomHeaderValue (name : String)
  deriving DecidableEq

inductive ProxyErrorClass where
  | routeMiss
  | unavailableUpstream
  | internal
  deriving DecidableEq

namespace Upstream

variable (http : Http)

def connectionTokens (headers : HeaderMap) : List String :=
  ((((headers.getAll "connection").filterMap http.toStr).flatMap (·.toList.splitOn ',')).map
    Text.trim).filterMap fun token => if token.isEmpty then none else some (String.ofList token)

def isWebsocketUpgrade (headers : HeaderMap) : Bool :=
  let websocket := ((headers.get? "upgrade").bind http.toStr).any fun value =>
    Text.eqIgnoreAsciiCase value.toList "websocket".toList
  websocket && (connectionTokens http headers).any fun token =>
    Text.eqIgnoreAsciiCase token.toList "upgrade".toList

def namedByConnection (headers : HeaderMap) (websocket : Bool) : List HeaderName :=
  ((connectionTokens http headers).filter fun token =>
    !(websocket && Text.eqIgnoreAsciiCase token.toList "upgrade".toList)).filterMap http.fromBytes

def hopByHop : List HeaderName :=
  ["keep-alive", "proxy-connection", "proxy-authorization", "proxy-authenticate", "te", "trailer",
    "transfer-encoding"]

def removeHopByHop (headers : HeaderMap) (websocket : Bool) : HeaderMap :=
  let headers := (headers.removeAll (namedByConnection http headers websocket)).removeAll hopByHop
  if websocket then headers.insert "connection" (http.fromStatic "upgrade")
  else (headers.remove "connection").remove "upgrade"

def customHeader (name value : String) : Except ProxyRequestError (HeaderName × HeaderValue) :=
  match http.fromBytes name with
  | none => .error (.invalidCustomHeaderName name)
  | some parsedName => match http.fromStr value with
    | none => .error (.invalidCustomHeaderValue name)
    | some parsedValue => .ok (parsedName, parsedValue)

/-- The configured headers, in the order of their names as configured. -/
def customHeaders (options : ProxyOptions) :
    Except ProxyRequestError (List (HeaderName × HeaderValue)) :=
  options.customHeaders.toList.mapM fun p => customHeader http p.1 p.2

def originHost (target : Target) (options : ProxyOptions) :
    Except ProxyRequestError (Option HeaderValue) :=
  if options.changeOrigin then
    match http.fromStr target.authority with
    | none => .error (.invalidCustomHeaderValue "host")
    | some host => .ok (some host)
  else .ok none

/-- Record the original host and write the origin's, between the two scrubs. -/
def writeHosts (headers : HeaderMap) (originalHost originHost : Option HeaderValue)
    (options : ProxyOptions) : HeaderMap :=
  let headers :=
    if options.xForward && !headers.contains "x-forwarded-host" then
      originalHost.elim headers (headers.insert "x-forwarded-host")
    else headers
  originHost.elim headers (headers.insert "host")

/-- The part of `apply_request_headers` after its last error exit. -/
def scrub (headers : HeaderMap) (originHost : Option HeaderValue)
    (custom : List (HeaderName × HeaderValue)) (options : ProxyOptions) : HeaderMap :=
  let originalHost := headers.get? "host"
  let websocketUpgrade := if isWebsocketUpgrade http headers then headers.get? "upgrade" else none
  let headers := removeHopByHop http headers websocketUpgrade.isSome
  let headers := writeHosts headers originalHost originHost options
  let headers := removeHopByHop http (headers.insertAll custom) false
  websocketUpgrade.elim headers fun upgrade =>
    (headers.insert "connection" (http.fromStatic "upgrade")).insert "upgrade" upgrade

def applyRequestHeaders (headers : HeaderMap) (target : Target) (options : ProxyOptions) :
    Except ProxyRequestError HeaderMap := do
  let originHost ← originHost http target options
  let custom ← customHeaders http options
  return scrub http headers originHost custom options

/-- What the proxy saw of the connection. -/
def forwarded (context : ForwardedContext) : List (HeaderName × String) :=
  [("x-forwarded-for", context.clientAddress), ("x-forwarded-port", Nat.repr context.port.toNat),
    ("x-forwarded-proto", context.protocol)]

/-- The values of a forwarded header and the new one, joined by commas. -/
def forwardedValue (headers : HeaderMap) (name : HeaderName) (value : String) :
    Except ProxyRequestError (HeaderName × HeaderValue) :=
  match (headers.getAll name).mapM http.toStr with
  | none => .error (.invalidCustomHeaderValue name)
  | some parts =>
    match http.fromStr (String.ofList (Text.join ',' ((parts ++ [value]).map String.toList))) with
    | none => .error (.invalidCustomHeaderValue name)
    | some value => .ok (name, value)

def applyForwardedHeaders (headers : HeaderMap) (context : ForwardedContext)
    (options : ProxyOptions) : Except ProxyRequestError HeaderMap :=
  if !options.xForward then .ok headers
  else do
    let parsed ← (forwarded context).mapM fun p => forwardedValue http headers p.1 p.2
    let forwardedHost :=
      if headers.contains "x-forwarded-host" then none
      else some ((headers.get? "host").getD (http.fromStatic ""))
    let headers := headers.insertAll parsed
    return forwardedHost.elim headers (headers.insert "x-forwarded-host")

/-- The iterator yields a name only with the first value of the name, and the others are skipped. -/
def replaceRequestHeaders (request headers : HeaderMap) : HeaderMap :=
  (request.removeAll request.keys).appendAll headers.named

/-- The header passes of `upstream_request_filter`; every failure is an internal error. -/
def upstreamRequestFilter (inbound : HeaderMap) (context : ForwardedContext) (target : Target)
    (options : ProxyOptions) (bodyEmpty : Bool) : Except ProxyErrorClass HeaderMap :=
  match applyForwardedHeaders http inbound context options with
  | .error _ => .error .internal
  | .ok headers => match applyRequestHeaders http headers target options with
    | .error _ => .error .internal
    | .ok headers =>
      let request := replaceRequestHeaders inbound headers
      if !bodyEmpty && !request.contains "content-length" then
        .ok (request.insert "transfer-encoding" (http.fromStatic "chunked"))
      else .ok request

end Upstream

end ChpProxy
