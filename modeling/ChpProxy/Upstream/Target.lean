import ChpProxy.Api.Percent
import ChpProxy.Upstream.Headers

/-! Targets as they are parsed from URLs. -/
namespace ChpProxy

def defaultPort (scheme : String) : Option UInt16 :=
  if scheme = "http" || scheme = "ws" then some 80
  else if scheme = "https" || scheme = "wss" then some 443
  else if scheme = "ftp" then some 21
  else none

/-- What the program reads of a parsed URL, with what the `url` crate says about it. -/
structure Url where
  scheme : String
  hostStr : Option String
  port : Option UInt16
  portOrKnownDefault : Option UInt16
  /-- The text from `Position::BeforeHost` to `Position::AfterPort`. -/
  hostAndPort : String
  path : String
  query : Option String
  no_slash : '/' ∉ hostAndPort.toList
  bracketed : ∀ inner, hostStr = some (String.ofList ('[' :: inner ++ [']'])) → inner ≠ []
  known_port : portOrKnownDefault = port.or (defaultPort scheme)
  /-- Only a URL without authority has a path of another form. -/
  rooted : hostStr ≠ none ∨ hostAndPort ≠ "" → path = "" ∨ path.toList.head? = some '/'
  no_query : '?' ∉ path.toList ∧ '#' ∉ path.toList

theorem Url.known_default (url : Url) (h : url.scheme = "http" ∨ url.scheme = "https") :
    url.portOrKnownDefault ≠ none := by
  rw [url.known_port]
  rcases h with h | h <;> rw [h] <;> cases url.port <;> exact Option.some_ne_none _

inductive TargetError where
  | unsupportedScheme (scheme : String)
  | missingHost
  | invalidUnixSocket
  deriving DecidableEq

namespace Upstream

def percentDecode (encoded : List Char) : Option String := Api.percentDecode encoded

def targetPath (url : Url) : String :=
  (if url.path.isEmpty then "/" else url.path) ++ url.query.elim "" ("?" ++ ·)

/-- `strip_prefix('[')`, then `strip_suffix(']')`, or the host as it is. -/
def stripBrackets (host : List Char) : List Char :=
  if host.head? = some '[' ∧ host.tail.getLast? = some ']' then host.tail.dropLast else host

/-- `isIpv6` tells whether a host parses as an IPv6 address. -/
def authority (isIpv6 : String → Bool) (url : Url) (host : String) : String :=
  let displayHost := if isIpv6 host then "[" ++ host ++ "]" else host
  url.port.elim displayHost fun port => displayHost ++ ":" ++ toString port

end Upstream

def Target.parse (isIpv6 : String → Bool) (url : Url) : Except TargetError Target :=
  let path := Upstream.targetPath url
  if url.scheme = "http" ∨ url.scheme = "https" then
    match url.hostStr with
    | none => .error .missingHost
    | some rawHost =>
      let host := String.ofList (Upstream.stripBrackets rawHost.toList)
      if host.isEmpty then .error .missingHost
      else match url.portOrKnownDefault with
        | none => .error .missingHost
        | some port =>
          .ok (.tcp host port (Upstream.authority isIpv6 url host) path (url.scheme = "https"))
  else if url.scheme = "http+unix" ∨ url.scheme = "unix+http" then
    match Upstream.percentDecode url.hostAndPort.toList with
    | none => .error .invalidUnixSocket
    | some decoded =>
      if decoded.isEmpty || decoded.toList.contains '\x00' || decoded.toList.head? ≠ some '/' then
        .error .invalidUnixSocket
      else .ok (.unix (Api.asBytes decoded) path)
  else .error (.unsupportedScheme url.scheme)

def Target.path : Target → String
  | .tcp _ _ _ path _ => path
  | .unix _ path => path

theorem Target.parse_eq_unix {isIpv6 : String → Bool} {url : Url} {socketPath : List UInt8}
    {path : String} (h : Target.parse isIpv6 url = .ok (.unix socketPath path)) :
    ∃ decoded, Upstream.percentDecode url.hostAndPort.toList = some decoded ∧
      decoded.toList.head? = some '/' ∧ socketPath = Api.asBytes decoded := by
  unfold Target.parse at h
  dsimp only at h
  split_ifs at h
  · split at h
    · cases h
    · split_ifs at h
      split at h
      · cases h
      · cases h
  · split at h
    · cases h
    · next decoded hdecoded =>
      split_ifs at h with hbad
      obtain ⟨rfl, -⟩ := Target.unix.inj (Except.ok.inj h)
      simp only [Bool.or_eq_true, not_or, decide_eq_true_eq, not_not] at hbad
      exact ⟨decoded, hdecoded, hbad.2, rfl⟩

/-- What follows the host in an authority. -/
def Upstream.portSuffix (port : Option UInt16) : List Char :=
  port.elim [] fun port => ':' :: (Nat.repr port.toNat).toList

/-- The target that a URL points at: the host and the port that it names, where the scheme may stand
for the port, or the socket whose path its authority encodes. An address is without brackets in the
host, and with them in the authority. -/
inductive Url.PointsAt (isIpv6 : String → Bool) (url : Url) : Target → Prop
  | tcp {raw host authority path : String} {port : UInt16} {tls : Bool}
      (hscheme : tls = false ∧ url.scheme = "http" ∨ tls = true ∧ url.scheme = "https")
      (hraw : url.hostStr = some raw)
      (hhost : raw.toList = '[' :: host.toList ++ [']'] ∨
        raw = host ∧ ∀ inner, raw.toList ≠ '[' :: inner ++ [']'])
      (hport : url.port = some port ∨ url.port = none ∧ defaultPort url.scheme = some port)
      (hauthority : authority.toList = (if isIpv6 host then '[' :: host.toList ++ [']']
        else host.toList) ++ Upstream.portSuffix url.port)
      (hpath : path = (if url.path = "" then "/" else url.path) ++ url.query.elim "" ("?" ++ ·)) :
    url.PointsAt isIpv6 (.tcp host port authority path tls)
  | unix {decoded : List Char} {path : String}
      (hscheme : url.scheme = "http+unix" ∨ url.scheme = "unix+http")
      (hescaped : Percent.WellEscaped url.hostAndPort.toList)
      (hdecoded : Percent.unescape url.hostAndPort.toList = Utf8.encode decoded)
      (hrooted : decoded.head? = some '/') (hplain : '\x00' ∉ decoded)
      (hpath : path = (if url.path = "" then "/" else url.path) ++ url.query.elim "" ("?" ++ ·)) :
    url.PointsAt isIpv6 (.unix (Utf8.encode decoded) path)

theorem Upstream.stripBrackets_cases (host : List Char) :
    host = '[' :: stripBrackets host ++ [']'] ∨
      host = stripBrackets host ∧ ∀ inner, host ≠ '[' :: inner ++ [']'] := by
  unfold stripBrackets
  split_ifs with h
  · obtain ⟨rest, rfl⟩ := List.head?_eq_some_iff.mp h.1
    obtain ⟨inner, hinner⟩ := List.getLast?_eq_some_iff.mp h.2
    obtain rfl : rest = inner ++ [']'] := hinner
    simp
  · refine .inr ⟨rfl, ?_⟩
    rintro inner rfl
    exact h (by simp)

theorem Upstream.toList_authority (isIpv6 : String → Bool) (url : Url) (host : String) :
    (authority isIpv6 url host).toList =
      (if isIpv6 host then '[' :: host.toList ++ [']'] else host.toList) ++ portSuffix url.port := by
  unfold authority portSuffix
  cases url.port with
  | none => split_ifs <;> simp
  | some port => split_ifs <;> simp [toString]

theorem Target.pointsAt_of_parse {isIpv6 : String → Bool} {url : Url} {target : Target}
    (h : Target.parse isIpv6 url = .ok target) : url.PointsAt isIpv6 target := by
  have hpath : Upstream.targetPath url =
      (if url.path = "" then "/" else url.path) ++ url.query.elim "" ("?" ++ ·) := by
    simp [Upstream.targetPath]
  unfold Target.parse at h
  dsimp only at h
  split_ifs at h with htcp hunix
  · split at h
    · cases h
    · next raw hraw =>
      split_ifs at h
      split at h
      · cases h
      · next port hport =>
        obtain rfl := Except.ok.inj h
        rw [url.known_port] at hport
        refine .tcp ?_ hraw ?_ ?_ (Upstream.toList_authority isIpv6 url _) hpath
        · rcases htcp with hhttp | hhttps
          · exact .inl ⟨by simp [hhttp], hhttp⟩
          · exact .inr ⟨by simp [hhttps], hhttps⟩
        · rw [String.toList_ofList]
          refine (Upstream.stripBrackets_cases raw.toList).imp_right fun hsame => ⟨?_, hsame.2⟩
          exact String.toList_inj.mp (by rw [String.toList_ofList]; exact hsame.1)
        · cases hown : url.port with
          | none =>
            rw [hown, Option.none_or] at hport
            exact .inr ⟨rfl, hport⟩
          | some own =>
            rw [hown, Option.some_or] at hport
            exact .inl hport
  · split at h
    · cases h
    · next decoded hdecoded =>
      split_ifs at h with hbad
      obtain rfl := Except.ok.inj h
      obtain ⟨hescaped, hbytes⟩ := Api.percentDecode_eq_some_iff.mp hdecoded
      simp only [Bool.or_eq_true, not_or, decide_eq_true_eq, not_not] at hbad
      rw [Api.asBytes_eq_encode]
      exact .unix hunix hescaped hbytes hbad.2 (by simpa using hbad.1.2) hpath

theorem Target.hostStr_of_parse {isIpv6 : String → Bool} {url : Url} {target : Target}
    (hscheme : url.scheme = "http" ∨ url.scheme = "https")
    (h : Target.parse isIpv6 url = .ok target) : url.hostStr ≠ none := by
  intro hnone
  simp only [Target.parse, if_pos hscheme, hnone] at h
  cases h

theorem Target.parse_path {isIpv6 : String → Bool} {url : Url} {target : Target}
    (h : Target.parse isIpv6 url = .ok target) :
    target.path = Upstream.targetPath url ∧ (url.hostStr ≠ none ∨ url.hostAndPort ≠ "") := by
  unfold Target.parse at h
  dsimp only at h
  split_ifs at h
  · split at h
    · cases h
    · next rawHost hhost =>
      split_ifs at h
      split at h
      · cases h
      · rw [← Except.ok.inj h, hhost]
        exact ⟨rfl, .inl (Option.some_ne_none _)⟩
  · split at h
    · cases h
    · next decoded hdecoded =>
      split_ifs at h with hbad
      rw [← Except.ok.inj h]
      refine ⟨rfl, .inr ?_⟩
      intro hempty
      rw [hempty] at hdecoded
      obtain rfl : "" = decoded := Option.some.inj hdecoded
      exact hbad rfl

namespace Upstream

theorem stripBrackets_ne_nil {host : List Char} (hne : host ≠ [])
    (hbracketed : ∀ inner, host = '[' :: inner ++ [']'] → inner ≠ []) : stripBrackets host ≠ [] := by
  unfold stripBrackets
  split_ifs with h
  · obtain ⟨hhead, hlast⟩ := h
    obtain ⟨rest, rfl⟩ := List.head?_eq_some_iff.mp hhead
    rw [List.tail_cons] at hlast ⊢
    obtain ⟨inner, rfl⟩ := List.getLast?_eq_some_iff.mp hlast
    rw [List.dropLast_concat]
    exact hbracketed inner rfl
  · exact hne

end Upstream

end ChpProxy
