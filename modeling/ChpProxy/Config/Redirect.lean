import ChpProxy.Config.App
import ChpProxy.Lib.Net.Display

/-! The listener that redirects to HTTPS (`main.rs`), next to the public listener (`api_server.rs`). -/
namespace ChpProxy.Config

open Net (IpAddr Ipv4Addr Ipv6Addr SocketAddr)

inductive StartupError where
  | invalidRedirectListener
  deriving DecidableEq

def redirectConfiguration (config : AppConfig) (redirectPort : UInt16) :
    Except StartupError (ListenerConfig × UInt16) :=
  match config.publicListener with
  | .unix _ => .error .invalidRedirectListener
  | .tcp address => match SocketAddr.fromStr address with
    | none => .error .invalidRedirectListener
    | some publicAddress =>
      let httpsPort := config.redirectTo.getD publicAddress.port
      .ok (.tcp (String.ofList (SocketAddr.new publicAddress.ip redirectPort).toList), httpsPort)

section Binding

variable (lookup : String → Option SocketAddr)

/-- The first of `to_socket_addrs`: an address stands for itself, other texts are looked up. -/
def toSocketAddr (text : String) : Option SocketAddr := (SocketAddr.fromStr text).or (lookup text)

/-- The address that `PublicListenerReservation::bind` binds a TCP listener to. -/
def publicAddress : ListenerConfig → Option SocketAddr
  | .tcp address =>
    toSocketAddr lookup (if address.toList.head? = some ':' then "0.0.0.0" ++ address else address)
  | .unix _ => none

/-- The address that `ApiServer::bind` binds a TCP listener to. -/
def apiServerAddress : ListenerConfig → Option SocketAddr
  | .tcp address => toSocketAddr lookup address
  | .unix _ => none

end Binding

/-! Addresses from the command line. -/

def unspecified : IpAddr := .v4 ⟨0, 0, 0, 0⟩

/-- The interface that the option `--ip` names. -/
inductive Interface : Option String → IpAddr → Prop
  | omitted : Interface none unspecified
  | star : Interface (some "*") unspecified
  | v4 {literal : String} {ip : Ipv4Addr} (parsed : Ipv4Addr.fromStr literal = some ip) :
      Interface (some literal) (.v4 ip)
  | v6 {literal : String} {ip : Ipv6Addr} (parsed : Ipv6Addr.fromStr literal = some ip) :
      Interface (some literal) (.v6 ip)
  | bracketed {literal : String} {ip : Ipv6Addr} (parsed : Ipv6Addr.fromStr literal = some ip) :
      Interface (some ("[" ++ literal ++ "]")) (.v6 ip)

theorem toList_toString_port (port : UInt16) :
    (toString port).toList = Nat.toDigits 10 port.toNat := by
  change (Nat.repr port.toNat).toList = _
  rw [Nat.repr, String.toList_ofList]

theorem toList_tcpAddress_plain {host : String} (port : UInt16) (hstar : host ≠ "*")
    (hcolon : ':' ∉ host.toList ∨ host.toList.head? = some '[') :
    (tcpAddress host port).toList = host.toList ++ ':' :: Nat.toDigits 10 port.toNat := by
  have hplain : ¬(host.toList.contains ':' && decide (host.toList.head? ≠ some '[')) = true := by
    rcases hcolon with hcolon | hbracket
    · simp [hcolon]
    · simp [hbracket]
  have htext : tcpAddress host port = host ++ ":" ++ toString port := by
    unfold tcpAddress
    dsimp only
    rw [if_neg hstar, if_neg hplain]
    rfl
  rw [htext, String.toList_append, String.toList_append, toList_toString_port, List.append_assoc]
  rfl

theorem toList_tcpAddress_bracketed {host : String} (port : UInt16) (hstar : host ≠ "*")
    (hcolon : ':' ∈ host.toList) (hbracket : host.toList.head? ≠ some '[') :
    (tcpAddress host port).toList =
      '[' :: host.toList ++ ']' :: ':' :: Nat.toDigits 10 port.toNat := by
  have hwrapped : (host.toList.contains ':' && decide (host.toList.head? ≠ some '[')) = true := by
    simp [hcolon, hbracket]
  have htext : tcpAddress host port = "[" ++ host ++ "]:" ++ toString port := by
    unfold tcpAddress
    dsimp only
    rw [if_neg hstar, if_pos hwrapped]
    rfl
  rw [htext, String.toList_append, String.toList_append, String.toList_append,
    toList_toString_port, List.append_assoc, List.append_assoc]
  rfl

theorem fromStr_tcpAddress {host : String} {ip : IpAddr} (h : Interface (some host) ip)
    (hstar : host ≠ "*") (port : UInt16) :
    SocketAddr.fromStr (tcpAddress host port) = some (.new ip port) := by
  apply Net.parseWith_eq_some_iff.mpr
  cases h with
  | star => exact absurd rfl hstar
  | v4 parsed =>
    have hread := Ipv4Addr.fromStr_eq_some parsed
    have hlocal : Net.Local ':' Net.readIpv4Addr := .readIpv4Addr (by decide) (by decide)
    rw [toList_tcpAddress_plain port hstar (.inl (hlocal.not_mem hread))]
    exact Net.readSocketAddr_v4 hread port
  | v6 parsed =>
    have hread := Net.parseWith_eq_some_iff.mp parsed
    have hcolon : ':' ∈ host.toList := by
      by_contra hnone
      rw [Net.readIpv6Addr_of_no_colon hnone] at hread
      cases hread
    have hbracket : host.toList.head? ≠ some '[' := by
      intro hhead
      obtain ⟨rest, hrest⟩ := List.head?_eq_some_iff.mp hhead
      rw [hrest, Net.readIpv6Addr_bracket] at hread
      cases hread
    rw [toList_tcpAddress_bracketed port hstar hcolon hbracket]
    exact Net.readSocketAddr_v6 hread port
  | @bracketed literal _ parsed =>
    have hread := Net.parseWith_eq_some_iff.mp parsed
    have htext : ("[" ++ literal ++ "]").toList = '[' :: literal.toList ++ [']'] := by
      rw [String.toList_append, String.toList_append]
      rfl
    rw [toList_tcpAddress_plain port hstar (.inr (by rw [htext]; rfl)), htext, List.append_assoc]
    exact Net.readSocketAddr_v6 hread port

theorem fromStr_colon {text : String} (h : text.toList.head? = some ':') :
    SocketAddr.fromStr text = none := by
  obtain ⟨rest, hrest⟩ := List.head?_eq_some_iff.mp h
  rw [SocketAddr.fromStr, Net.parseWith, hrest, Net.readSocketAddr_colon]
  rfl

theorem toList_tcpAddress_empty {host : String} (h : host = "" ∨ host = "*") (port : UInt16) :
    (tcpAddress host port).toList = ':' :: Nat.toDigits 10 port.toNat := by
  have hplain := toList_tcpAddress_plain port (by decide : "" ≠ "*") (.inl (by decide))
  rcases h with rfl | rfl
  · exact hplain
  · exact hplain

theorem Interface.eq_unspecified {host : Option String} {ip : IpAddr} (h : Interface host ip)
    (hhost : host = none ∨ host = some "*") : ip = unspecified := by
  cases h with
  | omitted => rfl
  | star => rfl
  | v4 parsed =>
    obtain rfl := Option.some.inj (hhost.resolve_left (Option.some_ne_none _))
    cases parsed
  | v6 parsed =>
    obtain rfl := Option.some.inj (hhost.resolve_left (Option.some_ne_none _))
    cases parsed
  | bracketed parsed =>
    have htext := congrArg String.toList (Option.some.inj (hhost.resolve_left (Option.some_ne_none _)))
    rw [String.toList_append, String.toList_append] at htext
    cases htext

section Listeners

variable (lookup : String → Option SocketAddr) {config : AppConfig} {address : String}

theorem wildcard_listener {port : UInt16} (hlistener : config.publicListener = .tcp address)
    (haddress : address.toList = ':' :: Nat.toDigits 10 port.toNat) (redirectPort : UInt16) :
    publicAddress lookup config.publicListener = some (.new unspecified port) ∧
      redirectConfiguration config redirectPort = .error .invalidRedirectListener := by
  have hhead : address.toList.head? = some ':' := by
    rw [haddress]
    rfl
  constructor
  · have hread : Net.readIpv4Addr "0.0.0.0".toList = some (⟨0, 0, 0, 0⟩, []) := by decide +kernel
    have hparsed : SocketAddr.fromStr ("0.0.0.0" ++ address) = some (.new unspecified port) := by
      apply Net.parseWith_eq_some_iff.mpr
      rw [String.toList_append, haddress]
      exact Net.readSocketAddr_v4 hread port
    rw [hlistener, publicAddress, if_pos hhead, toSocketAddr, hparsed]
    rfl
  · rw [redirectConfiguration, hlistener]
    dsimp only
    rw [fromStr_colon hhead]

theorem literal_listener {ip : IpAddr} {port : UInt16}
    (hlistener : config.publicListener = .tcp address)
    (hparsed : SocketAddr.fromStr address = some (.new ip port)) (redirectPort : UInt16) :
    publicAddress lookup config.publicListener = some (.new ip port) ∧
      ∃ listener, redirectConfiguration config redirectPort =
          .ok (listener, config.redirectTo.getD port) ∧
        apiServerAddress lookup listener = some (.new ip redirectPort) := by
  have hhead : address.toList.head? ≠ some ':' := by
    intro hcolon
    rw [fromStr_colon hcolon] at hparsed
    cases hparsed
  constructor
  · rw [hlistener, publicAddress, if_neg hhead, toSocketAddr, hparsed]
    rfl
  · have hredirect : SocketAddr.fromStr (String.ofList (SocketAddr.new ip redirectPort).toList) =
        some (.new ip redirectPort) := by
      apply Net.parseWith_eq_some_iff.mpr
      rw [String.toList_ofList]
      exact Net.readSocketAddr_new ip redirectPort
    refine ⟨.tcp (String.ofList (SocketAddr.new ip redirectPort).toList), ?_, ?_⟩
    · rw [redirectConfiguration, hlistener]
      dsimp only
      rw [hparsed]
      dsimp only
      rw [SocketAddr.ip_new, SocketAddr.port_new]
    · rw [apiServerAddress, toSocketAddr, hredirect]
      rfl

end Listeners

/-- The redirecting listener starts, on the interface of the public listener and on its own port, if
and only if the command line names the interface. -/
theorem redirect_starts_iff (libraries : Libraries) (env : Environment) (cli : Cli)
    (config : AppConfig) (haccepted : AppConfig.tryFrom libraries env cli = .ok config)
    (htcp : cli.socket = none) (ip : IpAddr) (hip : Interface cli.ip ip)
    (lookup : String → Option SocketAddr) (redirectPort : UInt16) :
    publicAddress lookup config.publicListener = some (.new ip cli.publicPort) ∧
      ((∃ listener, redirectConfiguration config redirectPort =
          .ok (listener, (nonzeroPort cli.redirectTo).getD cli.publicPort) ∧
        apiServerAddress lookup listener = some (.new ip redirectPort)) ↔
      cli.ip ≠ none ∧ cli.ip ≠ some "*") := by
  obtain ⟨hpublic, -, hredirectTo⟩ := AppConfig.tryFrom_eq_ok haccepted
  have hlistener : config.publicListener =
      .tcp (tcpAddress (cli.ip.getD "") cli.publicPort) := by
    rw [hpublic, Cli.publicListener, htcp]
  by_cases hwild : cli.ip = none ∨ cli.ip = some "*"
  · obtain rfl := hip.eq_unspecified hwild
    have hhost : cli.ip.getD "" = "" ∨ cli.ip.getD "" = "*" := by
      rcases hwild with h | h
      · exact .inl (by rw [h]; rfl)
      · exact .inr (by rw [h]; rfl)
    obtain ⟨haddress, hfailed⟩ := wildcard_listener lookup hlistener
      (toList_tcpAddress_empty hhost cli.publicPort) redirectPort
    refine ⟨haddress, ?_, fun h => absurd hwild (not_or.mpr h)⟩
    rintro ⟨listener, hstarts, -⟩
    rw [hfailed] at hstarts
    cases hstarts
  · obtain ⟨hnone, hstar⟩ := not_or.mp hwild
    obtain ⟨host, hhost⟩ := Option.ne_none_iff_exists'.mp hnone
    rw [hhost] at hip hstar
    have hparsed := fromStr_tcpAddress hip (fun h => hstar (congrArg some h)) cli.publicPort
    rw [hhost] at hlistener
    obtain ⟨haddress, hstarts⟩ := literal_listener lookup hlistener hparsed redirectPort
    rw [hredirectTo] at hstarts
    exact ⟨haddress, fun _ => ⟨hnone, hhost ▸ hstar⟩, fun _ => hstarts⟩

/-- `--port 443 --redirect-port 80` with a key and a certificate, and everything else by default. -/
def redirectingCli (ip : Option String) : Cli where
  ip := ip
  port := some 443
  socket := none
  sslKey := some (Api.asBytes "key.pem")
  sslCert := some (Api.asBytes "cert.pem")
  sslCa := none
  sslRequestCert := false
  sslRejectUnauthorized := false
  sslProtocol := none
  sslCiphers := none
  sslAllowRc4 := false
  sslDhparam := none
  apiIp := none
  apiPort := none
  apiSocket := none
  apiSslKey := none
  apiSslCert := none
  apiSslCa := none
  apiSslRequestCert := false
  apiSslRejectUnauthorized := false
  clientSslKey := none
  clientSslCert := none
  clientSslCa := none
  clientSslRequestCert := false
  clientSslRejectUnauthorized := false
  defaultTarget := none
  errorTarget := none
  errorPath := none
  redirectPort := some 80
  redirectTo := none
  pidFile := none
  xForward := true
  prependPath := true
  includePrefix := true
  autoRewrite := false
  changeOrigin := false
  protocolRewrite := none
  customHeader := []
  insecure := false
  hostRouting := false
  metricsIp := none
  metricsPort := none
  metricsSocket := none
  logLevel := "info"
  timeout := none
  proxyTimeout := none
  storageBackend := none
  keepAliveTimeout := none

/-- No URL is parsed without targets and with the store in memory. -/
def noUrls : Libraries := ⟨fun _ => none, fun _ => false⟩

theorem redirect_starts_loopback :
    ∃ config, AppConfig.tryFrom noUrls (fun _ => none) (redirectingCli (some "::1")) = .ok config ∧
      ∃ listener, redirectConfiguration config 80 = .ok (listener, 443) ∧
        apiServerAddress (fun _ => none) listener =
          some (.new (.v6 ⟨[0, 0, 0, 0, 0, 0, 0, 1], rfl⟩) 80) := by
  refine ⟨_, rfl, ?_⟩
  have hip : Interface (some "::1") (.v6 ⟨[0, 0, 0, 0, 0, 0, 0, 1], rfl⟩) := .v6 (by decide +kernel)
  have hstarts := (redirect_starts_iff noUrls (fun _ => none) (redirectingCli (some "::1")) _ rfl rfl _
    hip (fun _ => none) 80).2
  exact hstarts.mpr ⟨Option.some_ne_none _, by decide⟩

/-- Without `--ip` the proxy serves all interfaces, but does not start with a redirect port. -/
theorem redirect_without_ip_fails :
    ∃ config, AppConfig.tryFrom noUrls (fun _ => none) (redirectingCli none) = .ok config ∧
      publicAddress (fun _ => none) config.publicListener = some (.new unspecified 443) ∧
      redirectConfiguration config 80 = .error .invalidRedirectListener := by
  refine ⟨_, rfl, ?_, ?_⟩
  · decide +kernel
  · decide +kernel

end ChpProxy.Config
