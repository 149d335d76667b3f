import ChpProxy.Config.Target
import ChpProxy.Lib.Radix
import ChpProxy.Lib.Result

/-! The command line and the environment, checked and turned into the configuration (`config.rs`). -/
namespace ChpProxy.Config

abbrev PathBuf := List UInt8

/-- The options as `clap` hands them over. -/
structure Cli where
  ip : Option String
  port : Option UInt16
  socket : Option PathBuf
  sslKey : Option PathBuf
  sslCert : Option PathBuf
  sslCa : Option PathBuf
  sslRequestCert : Bool
  sslRejectUnauthorized : Bool
  sslProtocol : Option String
  sslCiphers : Option String
  sslAllowRc4 : Bool
  sslDhparam : Option PathBuf
  apiIp : Option String
  apiPort : Option UInt16
  apiSocket : Option PathBuf
  apiSslKey : Option PathBuf
  apiSslCert : Option PathBuf
  apiSslCa : Option PathBuf
  apiSslRequestCert : Bool
  apiSslRejectUnauthorized : Bool
  clientSslKey : Option PathBuf
  clientSslCert : Option PathBuf
  clientSslCa : Option PathBuf
  clientSslRequestCert : Bool
  clientSslRejectUnauthorized : Bool
  defaultTarget : Option String
  errorTarget : Option String
  errorPath : Option PathBuf
  redirectPort : Option UInt16
  redirectTo : Option UInt16
  pidFile : Option PathBuf
  xForward : Bool
  prependPath : Bool
  includePrefix : Bool
  autoRewrite : Bool
  changeOrigin : Bool
  protocolRewrite : Option String
  customHeader : List String
  insecure : Bool
  hostRouting : Bool
  metricsIp : Option String
  metricsPort : Option UInt16
  metricsSocket : Option PathBuf
  logLevel : String
  timeout : Option UInt64
  proxyTimeout : Option UInt64
  storageBackend : Option String
  keepAliveTimeout : Option UInt64

inductive ListenerConfig where
  | tcp (address : String)
  | unix (path : PathBuf)
  deriving DecidableEq

structure TlsConfig where
  key : Option PathBuf
  cert : Option PathBuf
  ca : Option PathBuf
  keyPassphrase : Option String
  requestCert : Bool
  rejectUnauthorized : Bool
  protocol : Option String
  ciphers : Option String
  dhparam : Option PathBuf

inductive StoreConfig where
  | memory
  | redis
  | sidecar
  deriving DecidableEq

/-- Durations are counted in milliseconds. -/
structure RedisRuntimeConfig where
  url : String
  routeKey : String
  operationTimeout : ℕ

structure SidecarRuntimeConfig where
  url : String
  bearerToken : String
  connectTimeout : ℕ
  requestTimeout : ℕ

inductive LogLevel where
  | debug
  | info
  | warn
  | error
  deriving DecidableEq

/-- The options of the proxy besides those of the header policy. -/
structure ProxyOptions extends ChpProxy.ProxyOptions where
  prependPath : Bool
  includePrefix : Bool
  autoRewrite : Bool
  protocolRewrite : Option String
  verifyUpstreamTls : Bool
  hostRouting : Bool
  timeoutMs : Option UInt64
  proxyTimeoutMs : Option UInt64
  keepAliveTimeoutMs : Option UInt64

structure AppConfig where
  publicListener : ListenerConfig
  apiListener : ListenerConfig
  metricsListener : Option ListenerConfig
  publicTls : Option TlsConfig
  apiTls : Option TlsConfig
  clientTls : Option TlsConfig
  defaultTarget : Option Url
  errorTarget : Option Url
  errorPath : Option PathBuf
  redirectPort : Option UInt16
  redirectTo : Option UInt16
  pidFile : Option PathBuf
  authToken : Option String
  logLevel : LogLevel
  store : StoreConfig
  redis : Option RedisRuntimeConfig
  sidecar : Option SidecarRuntimeConfig
  proxy : ProxyOptions

/-- A URL with the parts that only the sidecar's origin is checked for. -/
structure OriginUrl extends Url where
  username : String
  password : Option String
  fragment : Option String

/-- What the configuration uses of `url` and `redis`. -/
structure Libraries where
  parseUrl : String → Option OriginUrl
  /-- Whether `redis::parse_redis_url` knows the URL. -/
  isRedisUrl : String → Bool

/-! The environment. -/

/-- The variables, as octets. -/
abbrev Environment := String → Option (List UInt8)

inductive VarError where
  | notPresent
  | notUnicode

def Environment.var (env : Environment) (name : String) : Except VarError String :=
  match env name with
  | none => .error .notPresent
  | some value => match Api.fromUtf8 value with
    | none => .error .notUnicode
    | some text => .ok (String.ofList text)

def envNonempty (env : Environment) (name : String) : Option String :=
  (env.var name).toOption.filter fun value => !value.isEmpty

def parseRequiredAuthPolicy (env : Environment) : Except ConfigError Bool :=
  match env "PINGORA_REQUIRE_AUTH_TOKEN" with
  | none => .ok false
  | some value =>
    if value = Api.asBytes "true" then .ok true
    else if value = Api.asBytes "false" then .ok false
    else .error .invalidRequiredAuthPolicy

/-- `value.parse::<u64>()`, if it is positive. -/
def parsePositive (value : String) : Option ℕ :=
  (Radix.fromStrRadix 10 0xffffffffffffffff value.toList).filter (0 < ·)

def positiveDurationFromEnv (env : Environment) (name : String) (defaultMs : ℕ)
    (invalid : ConfigError) : Except ConfigError ℕ :=
  match env.var name with
  | .ok value => (parsePositive value).elim (.error invalid) .ok
  | .error .notPresent => .ok defaultMs
  | .error .notUnicode => .error invalid

/-! Checks. -/

def reject (refused : Bool) (error : ConfigError) : Except ConfigError Unit :=
  if refused then .error error else .ok ()

def validateListenerTlsPolicy (rejectUnauthorized requestCert : Bool) (ca : Option PathBuf)
    (rejectFlag requestFlag caFlag : String) : Except ConfigError Unit :=
  reject (rejectUnauthorized && (!requestCert || ca.all List.isEmpty))
    (.invalidListenerTlsPolicy rejectFlag requestFlag caFlag)

def validatePair (key cert : Option PathBuf) (names : String) : Except ConfigError Unit :=
  reject (key.isSome != cert.isSome) (.incompleteKeyPair names)

def nonzeroPort (value : Option UInt16) : Option UInt16 := value.filter (· ≠ 0)

def tcpAddress (host : String) (port : UInt16) : String :=
  let host := if host = "*" then "" else host
  if host.toList.contains ':' && host.toList.head? ≠ some '[' then s!"[{host}]:{port}"
  else s!"{host}:{port}"

structure InheritedTls where
  protocol : Option String
  ciphers : Option String
  dhparam : Option PathBuf

def chp530DefaultTlsCiphers : String :=
  "ECDHE-RSA-AES128-GCM-SHA256:" ++
  "ECDHE-ECDSA-AES128-GCM-SHA256:" ++
  "ECDHE-RSA-AES256-GCM-SHA384:" ++
  "ECDHE-ECDSA-AES256-GCM-SHA384:" ++
  "DHE-RSA-AES128-GCM-SHA256:" ++
  "ECDHE-RSA-AES128-SHA256:" ++
  "DHE-RSA-AES128-SHA256:" ++
  "ECDHE-RSA-AES256-SHA384:" ++
  "DHE-RSA-AES256-SHA384:" ++
  "ECDHE-RSA-AES256-SHA256:" ++
  "DHE-RSA-AES256-SHA256:" ++
  "HIGH:!RC4:!aNULL:!eNULL:!EXPORT:!DES:!RC4:!MD5:!PSK:!SRP:!CAMELLIA"

def tlsConfig (key cert ca : Option PathBuf) (keyPassphrase : Option String)
    (requestCert rejectUnauthorized : Bool) (inherited : InheritedTls) (caActivates : Bool) :
    Option TlsConfig :=
  if key.isNone && cert.isNone && (!caActivates || ca.isNone) then none
  else some ⟨key, cert, ca, keyPassphrase, requestCert, rejectUnauthorized, inherited.protocol,
    inherited.ciphers, inherited.dhparam⟩

def parseLogLevel (value : String) : Except ConfigError LogLevel :=
  let lower := String.ofList (value.toList.map Char.toLower)
  if lower = "debug" then .ok .debug
  else if lower = "info" then .ok .info
  else if lower = "warn" then .ok .warn
  else if lower = "error" then .ok .error
  else .error (.invalidLogLevel value)

def parseStore (value : Option String) : Except ConfigError StoreConfig :=
  let name := value.getD "memory"
  if name = "memory" then .ok .memory
  else if name = "redis" then .ok .redis
  else if name = "sidecar" then .ok .sidecar
  else .error (.unknownStorageBackend (value.getD ""))

def defaultRedisRouteKey : String := "pingora-reverse-proxy:routes:v1"

def parseRedisRuntime (libraries : Libraries) (env : Environment) (store : StoreConfig) :
    Except ConfigError (Option RedisRuntimeConfig) :=
  if store ≠ .redis then .ok none
  else do
    let url ← (envNonempty env "PINGORA_REDIS_URL").elim (.error .missingRedisUrl) .ok
    reject (!libraries.isRedisUrl url) .invalidRedisUrl
    let routeKey ← match env.var "PINGORA_REDIS_ROUTE_KEY" with
      | .ok value => if value.isEmpty then .error .invalidRedisRouteKey else .ok value
      | .error .notPresent => .ok defaultRedisRouteKey
      | .error .notUnicode => .error .invalidRedisRouteKey
    let operationTimeout ← positiveDurationFromEnv env "PINGORA_REDIS_OPERATION_TIMEOUT_MS" 2000
      .invalidRedisOperationTimeout
    return some ⟨url, routeKey, operationTimeout⟩

def isSidecarOrigin (parsed : OriginUrl) : Bool :=
  (parsed.scheme = "http" || parsed.scheme = "https") && parsed.hostStr.isSome &&
    parsed.username.isEmpty && parsed.password.isNone && parsed.path = "/" && parsed.query.isNone &&
    parsed.fragment.isNone

def parseSidecarRuntime (libraries : Libraries) (env : Environment) (store : StoreConfig) :
    Except ConfigError (Option SidecarRuntimeConfig) :=
  if store ≠ .sidecar then .ok none
  else do
    let url ← (envNonempty env "PINGORA_SIDECAR_URL").elim (.error .missingSidecarUrl) .ok
    let parsed ← (libraries.parseUrl url).elim (.error .invalidSidecarUrl) .ok
    reject (!isSidecarOrigin parsed) .invalidSidecarUrl
    let bearerToken ← (envNonempty env "PINGORA_SIDECAR_BEARER_TOKEN").elim
      (.error .missingSidecarBearerToken) .ok
    let connectTimeout ← positiveDurationFromEnv env "PINGORA_SIDECAR_CONNECT_TIMEOUT_MS" 1000
      .invalidSidecarConnectTimeout
    let requestTimeout ← positiveDurationFromEnv env "PINGORA_SIDECAR_REQUEST_TIMEOUT_MS" 2000
      .invalidSidecarRequestTimeout
    return some ⟨url, bearerToken, connectTimeout, requestTimeout⟩

/-- One turn of the loop of `parse_custom_headers`. -/
def parseCustomHeader (headers : Std.ExtTreeMap String String) (value : String) :
    Except ConfigError (Std.ExtTreeMap String String) :=
  let trimmed := Text.trim value.toList
  if ':' ∈ trimmed then
    let name := Text.trim (trimmed.takeWhile (· ≠ ':'))
    if name.isEmpty then .error (.invalidCustomHeader value)
    else .ok (headers.insert (String.ofList name)
      (String.ofList (Text.trim (trimmed.dropWhile (· ≠ ':')).tail)))
  else .error (.invalidCustomHeader value)

def parseCustomHeaders (values : List String) :
    Except ConfigError (Std.ExtTreeMap String String) := values.foldlM parseCustomHeader ∅

/-! The whole configuration. -/

def Cli.publicPort (cli : Cli) : UInt16 := (nonzeroPort cli.port).getD 8000

def Cli.publicListener (cli : Cli) : ListenerConfig :=
  match cli.socket with
  | some path => .unix path
  | none => .tcp (tcpAddress (cli.ip.getD "") cli.publicPort)

def Cli.apiPortOrNext (cli : Cli) : Except ConfigError UInt16 :=
  match nonzeroPort cli.apiPort with
  | some port => .ok port
  | none =>
    if cli.socket.isSome then .ok 8001
    else if cli.publicPort = 0xffff then .error .apiPortOverflow
    else .ok (cli.publicPort + 1)

def Cli.apiListener (cli : Cli) : Except ConfigError ListenerConfig :=
  match cli.apiSocket with
  | some path => .ok (.unix path)
  | none => cli.apiPortOrNext.map fun port => .tcp (tcpAddress (cli.apiIp.getD "localhost") port)

def Cli.metricsListener (cli : Cli) : Option ListenerConfig :=
  match cli.metricsSocket, nonzeroPort cli.metricsPort with
  | some path, _ => some (.unix path)
  | none, some port => some (.tcp (tcpAddress (cli.metricsIp.getD "") port))
  | none, none => none

/-- The checks that come before anything is made. -/
def Cli.validate (cli : Cli) : Except ConfigError Unit := do
  reject cli.clientSslRequestCert (.unsupportedClientTlsFlag "--client-ssl-request-cert")
  reject cli.clientSslRejectUnauthorized
    (.unsupportedClientTlsFlag "--client-ssl-reject-unauthorized")
  reject cli.sslAllowRc4 .rc4Unsupported
  reject (cli.errorTarget.isSome && cli.errorPath.isSome) .conflictingErrorHandlers
  validatePair cli.sslKey cli.sslCert "--ssl-key and --ssl-cert"
  validatePair cli.apiSslKey cli.apiSslCert "--api-ssl-key and --api-ssl-cert"
  validatePair cli.clientSslKey cli.clientSslCert "--client-ssl-key and --client-ssl-cert"
  validateListenerTlsPolicy cli.sslRejectUnauthorized cli.sslRequestCert cli.sslCa
    "--ssl-reject-unauthorized" "--ssl-request-cert" "--ssl-ca"
  validateListenerTlsPolicy cli.apiSslRejectUnauthorized cli.apiSslRequestCert cli.apiSslCa
    "--api-ssl-reject-unauthorized" "--api-ssl-request-cert" "--api-ssl-ca"
  reject ((nonzeroPort cli.redirectPort).isSome && (cli.sslKey.isNone || cli.sslCert.isNone))
    .redirectWithoutTls

def Cli.inheritedTls (cli : Cli) : InheritedTls :=
  ⟨cli.sslProtocol, some (cli.sslCiphers.getD chp530DefaultTlsCiphers), cli.sslDhparam⟩

def Cli.proxyOptions (cli : Cli) (customHeaders : Std.ExtTreeMap String String) : ProxyOptions where
  xForward := cli.xForward
  changeOrigin := cli.changeOrigin
  customHeaders := customHeaders
  prependPath := cli.prependPath
  includePrefix := cli.includePrefix
  autoRewrite := cli.autoRewrite
  protocolRewrite := cli.protocolRewrite
  verifyUpstreamTls := !cli.insecure
  hostRouting := cli.hostRouting
  timeoutMs := cli.timeout
  proxyTimeoutMs := cli.proxyTimeout
  keepAliveTimeoutMs := some ((cli.keepAliveTimeout.filter (· ≠ 0)).getD 5000)

def AppConfig.tryFrom (libraries : Libraries) (env : Environment) (cli : Cli) :
    Except ConfigError AppConfig := do
  cli.validate
  let apiListener ← cli.apiListener
  let inherited := cli.inheritedTls
  let parseUrl := fun value => (libraries.parseUrl value).map (·.toUrl)
  let defaultTarget ← parseTarget parseUrl cli.defaultTarget "default target"
  let errorTarget ← parseErrorTarget parseUrl cli.errorTarget
  let logLevel ← parseLogLevel cli.logLevel
  let store ← parseStore cli.storageBackend
  let redis ← parseRedisRuntime libraries env store
  let sidecar ← parseSidecarRuntime libraries env store
  let customHeaders ← parseCustomHeaders cli.customHeader
  let authToken := envNonempty env "CONFIGPROXY_AUTH_TOKEN"
  let requireAuthToken ← parseRequiredAuthPolicy env
  reject (requireAuthToken && authToken.isNone) .missingRequiredAuthToken
  return {
    publicListener := cli.publicListener
    apiListener
    metricsListener := cli.metricsListener
    publicTls := tlsConfig cli.sslKey cli.sslCert cli.sslCa
      (envNonempty env "CONFIGPROXY_SSL_KEY_PASSPHRASE") cli.sslRequestCert
      cli.sslRejectUnauthorized inherited false
    apiTls := tlsConfig cli.apiSslKey cli.apiSslCert cli.apiSslCa
      (envNonempty env "CONFIGPROXY_API_SSL_KEY_PASSPHRASE") cli.apiSslRequestCert
      cli.apiSslRejectUnauthorized inherited false
    clientTls := tlsConfig cli.clientSslKey cli.clientSslCert cli.clientSslCa none
      cli.clientSslRequestCert cli.clientSslRejectUnauthorized inherited true
    defaultTarget
    errorTarget
    errorPath := cli.errorPath
    redirectPort := nonzeroPort cli.redirectPort
    redirectTo := nonzeroPort cli.redirectTo
    pidFile := cli.pidFile
    authToken
    logLevel
    store
    redis
    sidecar
    proxy := cli.proxyOptions customHeaders }

theorem AppConfig.tryFrom_eq_ok {libraries : Libraries} {env : Environment} {cli : Cli}
    {config : AppConfig} (h : tryFrom libraries env cli = .ok config) :
    config.publicListener = cli.publicListener ∧
      config.redirectPort = nonzeroPort cli.redirectPort ∧
      config.redirectTo = nonzeroPort cli.redirectTo := by
  unfold tryFrom at h
  obtain ⟨-, -, h⟩ := Result.bind_eq_ok h
  obtain ⟨apiListener, -, h⟩ := Result.bind_eq_ok h
  obtain ⟨defaultTarget, -, h⟩ := Result.bind_eq_ok h
  obtain ⟨errorTarget, -, h⟩ := Result.bind_eq_ok h
  obtain ⟨logLevel, -, h⟩ := Result.bind_eq_ok h
  obtain ⟨store, -, h⟩ := Result.bind_eq_ok h
  obtain ⟨redis, -, h⟩ := Result.bind_eq_ok h
  obtain ⟨sidecar, -, h⟩ := Result.bind_eq_ok h
  obtain ⟨customHeaders, -, h⟩ := Result.bind_eq_ok h
  obtain ⟨requireAuthToken, -, h⟩ := Result.bind_eq_ok h
  obtain ⟨-, -, h⟩ := Result.bind_eq_ok h
  obtain rfl := Except.ok.inj h
  exact ⟨rfl, rfl, rfl⟩

end ChpProxy.Config
