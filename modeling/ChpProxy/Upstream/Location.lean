import ChpProxy.Lib.Radix
import ChpProxy.Upstream.Uri

/-! The `Location` of an upstream redirect, rewritten to what the client asked for (`upstream.rs`,
and the response filter of `proxy.rs`). -/
namespace ChpProxy

/-- A host name in lower case whose last label begins with a letter, so that it is no address, and
that has no label of Punycode. -/
structure PlainName (host : List Char) : Prop where
  ascii : ∀ c ∈ host, c.isLower = true ∨ c.isDigit = true ∨ c = '-' ∨ c = '.'
  last : ∃ front c label, host = front ++ c :: label ∧ c.isLower = true ∧ '.' ∉ label ∧
    (front = [] ∨ front.getLast? = some '.')
  plain : ¬"xn--".toList <:+: host

/-- The setters of a URL and its text. A setter changes nothing but what it sets, and the port of a
URL is not kept where it is the default of the scheme. -/
structure UrlEditors where
  /-- The host of a URL with this scheme after it was set to a text. -/
  readHost : String → List Char → Option (Option String)
  setHost : Url → List Char → Option Url
  setPort : Url → UInt16 → Option Url
  setScheme : Url → List Char → Option Url
  asStr : Url → String
  readHost_plain : ∀ scheme host, PlainName host →
    readHost scheme host = some (some (String.ofList host))
  setHost_host : ∀ u host, u.hostStr ≠ none →
    (setHost u host).map Url.hostStr = readHost u.scheme host
  setHost_rest : ∀ u host u', u.hostStr ≠ none → setHost u host = some u' →
    u'.scheme = u.scheme ∧ u'.port = u.port ∧ u'.path = u.path ∧ u'.query = u.query
  setPort_port : ∀ u port u', setPort u port = some u' →
    u'.port = if defaultPort u.scheme = some port then none else some port
  setPort_rest : ∀ u port u', setPort u port = some u' →
    u'.hostStr = u.hostStr ∧ u'.scheme = u.scheme ∧ u'.path = u.path ∧ u'.query = u.query
  setScheme_scheme : ∀ u scheme u',
    (∀ c ∈ scheme, c.isAlphanum = true ∨ c = '+' ∨ c = '-' ∨ c = '.') →
    setScheme u scheme = some u' → u'.scheme = String.ofList (scheme.map Char.toLower)
  setScheme_port : ∀ u scheme u', setScheme u scheme = some u' →
    u'.port = if defaultPort u'.scheme = u.port then none else u.port
  setScheme_rest : ∀ u scheme u', setScheme u scheme = some u' →
    u'.hostStr = u.hostStr ∧ u'.path = u.path ∧ u'.query = u.query

/-- The options that the rewriting reads. -/
structure RewriteOptions where
  autoRewrite : Bool
  protocolRewrite : Option String

namespace Upstream

def isRedirectRewriteStatus (status : ℕ) : Bool := [201, 301, 302, 307, 308].contains status

def urlHost (isIpv6 : String → Bool) (url : Url) : Option String :=
  url.hostStr.map (authority isIpv6 url)

/-- The host of a `Host` header: up to the closing bracket of an address, or up to the colon. -/
def hostName (authority : List Char) : List Char :=
  if authority.head? = some '[' then
    if ']' ∈ authority then authority.takeWhile (· ≠ ']') ++ [']'] else authority
  else authority.takeWhile (· ≠ ':')

def parsePort (port : List Char) : Option UInt16 :=
  (Radix.fromStrRadix 10 0xffff port).map UInt16.ofNat

def hostPort (authority : List Char) : Option UInt16 :=
  match authority with
  | '[' :: bracketed => match bracketed.dropWhile (· ≠ ']') with
    | ']' :: ':' :: port => parsePort port
    | _ => none
  | _ => if ':' ∈ authority then parsePort (Text.afterLast ':' authority) else none

def whatwgScheme (value : List Char) : Option (List Char) :=
  match value.takeWhile (· ≠ ':') with
  | [] => none
  | first :: rest =>
    if first.isAlpha && rest.all fun c => c.isAlphanum || c = '+' || c = '-' || c = '.' then
      some (first :: rest)
    else none

variable (http : Http) (parsers : UriParsers) (editors : UrlEditors) (isIpv6 : String → Bool)
  (options : RewriteOptions)

/-- The host and port of the request, where it names a host. -/
def rewriteHost (host : Option HeaderValue) (url : Url) : Option Url :=
  if options.autoRewrite then
    match host with
    | none => some url
    | some host => do
      let host ← http.toStr host
      let url ← editors.setHost url (hostName host.toList)
      match hostPort host.toList with
      | some port => editors.setPort url port
      | none => return url
  else some url

/-- A scheme that the URL cannot have is ignored. -/
def rewriteScheme (url : Url) : Url :=
  match options.protocolRewrite.bind (whatwgScheme ·.toList) with
  | some scheme => (editors.setScheme url scheme).getD url
  | none => url

/-- `host` is the `Host` header of the request; `none` is `InvalidLocation`. -/
def rewriteLocation (status : ℕ) (response : HeaderMap) (host : Option HeaderValue)
    (target : Target) : Option HeaderMap :=
  if !isRedirectRewriteStatus status ||
      (!options.autoRewrite && options.protocolRewrite.isNone) then
    some response
  else match response.get? "location" with
    | none => some response
    | some location => match http.toStr location with
      | none => none
      | some location => match parsers.parseUrl location with
        | .error _ => some response
        | .ok url =>
          if urlHost isIpv6 url ≠ some target.authority then some response
          else do
            let url ← rewriteHost http editors options host url
            let value ← http.fromStr (editors.asStr (rewriteScheme editors options url))
            return response.insert "location" value

/-- The headers of the response that `upstream_response_filter` hands on. -/
def upstreamResponseFilter (status : ℕ) (response : HeaderMap) (host : Option HeaderValue)
    (target : Target) : Option HeaderMap :=
  (rewriteLocation http parsers editors isIpv6 options status response host target).map
    fun rewritten =>
    match rewritten.get? "location" with
    | some location => response.insert "location" location
    | none => response.remove "location"

/-- The hosts of the `url` crate: an address in brackets, or a name without a colon. -/
def HostShaped (isIpv6 : String → Bool) (url : Url) : Prop :=
  ∀ host, url.hostStr = some host →
    (∃ inner, host.toList = '[' :: inner ++ [']'] ∧ isIpv6 (String.ofList inner) = true) ∨
      ':' ∉ host.toList ∧ host.toList.head? ≠ some '['

/-- An address without brackets has a colon. -/
def AddressShaped (isIpv6 : String → Bool) : Prop :=
  ∀ host, isIpv6 host = true → ':' ∈ host.toList ∧ host.toList.head? ≠ some '['

section Recognition

variable {isIpv6 : String → Bool} {url url' : Url} {host : String}

theorem isIpv6_of_hostStr (haddress : AddressShaped isIpv6) (hhost : url.hostStr = some host)
    (hshape : HostShaped isIpv6 url) : isIpv6 host = false := by
  rw [← Bool.not_eq_true]
  intro hip
  obtain ⟨hcolon, hhead⟩ := haddress host hip
  rcases hshape host hhost with ⟨inner, hinner, -⟩ | ⟨hno, -⟩
  · rw [hinner] at hhead
    exact hhead rfl
  · exact hno hcolon

/-- The authority of a target is that of its URL, although the brackets of an address are taken off
and put back. -/
theorem toList_authority_stripBrackets (haddress : AddressShaped isIpv6)
    (hhost : url.hostStr = some host) (hshape : HostShaped isIpv6 url) :
    (authority isIpv6 url (String.ofList (stripBrackets host.toList))).toList =
      host.toList ++ portSuffix url.port := by
  rw [toList_authority]
  rcases hshape host hhost with ⟨inner, hinner, hip⟩ | ⟨-, hhead⟩
  · have hstrip : stripBrackets host.toList = inner := by
      rw [hinner]
      simp [stripBrackets]
    rw [hstrip, if_pos hip, hinner, String.toList_ofList]
  · have hstrip : stripBrackets host.toList = host.toList := if_neg fun h => hhead h.1
    rw [hstrip, String.ofList_toList, isIpv6_of_hostStr haddress hhost hshape]
    rfl

/-- A host does not end in a colon and digits, so the end of the host can be told. -/
theorem portSuffix_inj {h h' : List Char} {port port' : Option UInt16}
    (hh : ':' ∉ h ∨ h.getLast? = some ']') (hh' : ':' ∉ h' ∨ h'.getLast? = some ']')
    (heq : h ++ portSuffix port = h' ++ portSuffix port') : h = h' ∧ port = port' := by
  have hrepr : ∀ p : UInt16, ':' ∉ (Nat.repr p.toNat).toList := fun p =>
    Text.not_mem_repr (by decide) p.toNat
  -- A port on one side only would end the other host in a digit.
  have honly : ∀ {g g' : List Char} (p : UInt16), (':' ∉ g' ∨ g'.getLast? = some ']') →
      g ++ ':' :: (Nat.repr p.toNat).toList ≠ g' := by
    rintro g g' p hg rfl
    rcases hg with hno | hlast
    · exact hno (by simp)
    · have hne : (Nat.repr p.toNat).toList ≠ [] := by
        rw [Nat.repr, String.toList_ofList]
        exact Nat.toDigits_ne_nil
      rw [List.getLast?_append_of_ne_nil _ (by simp), List.getLast?_cons_of_ne_nil hne] at hlast
      exact absurd (List.mem_of_getLast? hlast) (Text.not_mem_repr (by decide) p.toNat)
  cases port with
  | none =>
    cases port' with
    | none => exact ⟨by simpa [portSuffix] using heq, rfl⟩
    | some p => exact absurd (by simpa [portSuffix] using heq.symm) (honly p hh)
  | some p =>
    cases port' with
    | none => exact absurd (by simpa [portSuffix] using heq) (honly p hh')
    | some p' =>
      have hlast := congrArg (Text.afterLast ':') heq
      simp only [portSuffix, Option.elim_some, Text.afterLast_append,
        Text.afterLast_of_not_mem (hrepr p), Text.afterLast_of_not_mem (hrepr p')] at hlast
      obtain rfl : p = p' := UInt16.toNat_inj.mp (Radix.repr_inj hlast)
      exact ⟨List.append_cancel_right heq, rfl⟩

theorem slash_not_mem {host : List Char} (h : '/' ∉ host) (port : Option UInt16) :
    '/' ∉ host ++ portSuffix port := by
  cases port with
  | none => simpa [portSuffix] using h
  | some port => simpa [portSuffix, h] using Text.not_mem_repr (by decide) port.toNat

theorem HostShaped.ends (h : HostShaped isIpv6 url) (hhost : url.hostStr = some host) :
    ':' ∉ host.toList ∨ host.toList.getLast? = some ']' := by
  rcases h host hhost with ⟨inner, hinner, -⟩ | ⟨hno, -⟩
  · right
    rw [hinner]
    exact List.getLast?_concat
  · exact .inl hno

/-- The URL names the host and the port of the target at `base`. The default port of its own scheme
is not named, so `https://a` is at the target `http://a` and `https://a:80` is not. A socket has the
name `localhost`. -/
def AtTarget (base url : Url) : Prop :=
  (base.scheme = "http" ∨ base.scheme = "https") ∧ url.hostStr = base.hostStr ∧
      url.port = base.port ∨
    (base.scheme = "http+unix" ∨ base.scheme = "unix+http") ∧ url.hostStr = some "localhost" ∧
      url.port = none

theorem urlHost_eq_iff (haddress : AddressShaped isIpv6) (hu : HostShaped isIpv6 url)
    {text raw : String} {port : Option UInt16}
    (hraw : ':' ∉ raw.toList ∨ raw.toList.getLast? = some ']')
    (htext : text.toList = raw.toList ++ portSuffix port) :
    urlHost isIpv6 url = some text ↔ url.hostStr = some raw ∧ url.port = port := by
  unfold urlHost
  cases hhost : url.hostStr with
  | none => simp
  | some h =>
    have hown := toList_authority isIpv6 url h
    rw [isIpv6_of_hostStr haddress hhost hu, if_neg Bool.false_ne_true] at hown
    simp only [Option.map_some, Option.some.injEq]
    constructor
    · rintro rfl
      obtain ⟨heq, hport⟩ := portSuffix_inj (hu.ends hhost) hraw (hown.symm.trans htext)
      exact ⟨String.toList_inj.mp heq, hport⟩
    · rintro ⟨rfl, rfl⟩
      exact String.toList_inj.mp (hown.trans htext.symm)

/-- The client compares texts, and means the host and the port. -/
theorem urlHost_eq_authority_iff (haddress : AddressShaped isIpv6) (hu : HostShaped isIpv6 url)
    (hu' : HostShaped isIpv6 url') {target : Target}
    (hparse : Target.parse isIpv6 url' = .ok target) :
    urlHost isIpv6 url = some target.authority ↔ AtTarget url' url := by
  unfold Target.parse at hparse
  dsimp only at hparse
  split_ifs at hparse with htcp hunix
  · split at hparse
    · cases hparse
    · next raw hraw =>
      split_ifs at hparse
      split at hparse
      · cases hparse
      · obtain rfl := Except.ok.inj hparse
        have hiff := urlHost_eq_iff haddress hu (hu'.ends hraw)
          (toList_authority_stripBrackets haddress hraw hu')
        rw [← hraw] at hiff
        refine hiff.trans ⟨?_, ?_⟩
        · exact fun h => .inl ⟨htcp, h⟩
        · rintro (⟨-, h⟩ | ⟨hother, -⟩)
          · exact h
          · rcases htcp with htcp | htcp <;> rcases hother with hother | hother <;>
              exact absurd (htcp.symm.trans hother) (by decide)
  · split at hparse
    · cases hparse
    · split_ifs at hparse
      obtain rfl := Except.ok.inj hparse
      have hiff : urlHost isIpv6 url = some "localhost" ↔
          url.hostStr = some "localhost" ∧ url.port = none :=
        urlHost_eq_iff haddress hu (.inl (by decide)) (List.append_nil _).symm
      refine hiff.trans ⟨?_, ?_⟩
      · exact fun h => .inr ⟨hunix, h⟩
      · rintro (⟨hother, -⟩ | ⟨-, h⟩)
        · exact absurd hother htcp
        · exact h

end Recognition

section HostHeader

variable {text name : List Char} {port : UInt16}

/-- The host that a `Host` header names: an address in brackets, or what comes before the first
colon. A bracket that is not closed belongs to the name. -/
inductive NamesHost : List Char → List Char → Prop
  | address {inner rest : List Char} (h : ']' ∉ inner) :
    NamesHost ('[' :: inner ++ ']' :: rest) ('[' :: inner ++ [']'])
  | unclosed {inner : List Char} (h : ']' ∉ inner) : NamesHost ('[' :: inner) ('[' :: inner)
  | name {name rest : List Char} (hname : ':' ∉ name) (hbracket : name.head? ≠ some '[')
      (hrest : rest = [] ∨ rest.head? = some ':') : NamesHost (name ++ rest) name

/-- The port that a `Host` header names: a numeral after a colon, right behind the brackets of an
address and behind the last colon otherwise. -/
inductive NamesPort : List Char → UInt16 → Prop
  | address {inner digits : List Char} {port : UInt16} (h : ']' ∉ inner)
      (hport : Radix.Numeral 10 digits port.toNat) :
    NamesPort ('[' :: inner ++ ']' :: ':' :: digits) port
  | name {before digits : List Char} {port : UInt16} (hbracket : before.head? ≠ some '[')
      (hport : Radix.Numeral 10 digits port.toNat) : NamesPort (before ++ ':' :: digits) port

/-- The scheme that `--protocol-rewrite` names, with or without a colon. -/
def NamesScheme (text scheme : List Char) : Prop :=
  (∃ first rest, scheme = first :: rest ∧ first.isAlpha = true ∧
    ∀ c ∈ rest, c.isAlphanum = true ∨ c = '+' ∨ c = '-' ∨ c = '.') ∧
  ∃ rest, text = scheme ++ rest ∧ (rest = [] ∨ rest.head? = some ':')

theorem namesHost_iff : NamesHost text name ↔ hostName text = name := by
  unfold hostName
  constructor
  · intro h
    cases h with
    | @address inner rest h =>
      have hopen : ']' ∉ '[' :: inner := by simp [h]
      rw [if_pos (by rfl), if_pos (by simp), Text.takeWhile_stop hopen (.inr rfl)]
    | unclosed h => rw [if_pos (by rfl), if_neg (by simp [h])]
    | @name name rest hname hbracket hrest =>
      have hplain : (name ++ rest).head? ≠ some '[' := by
        cases name with
        | cons c name => exact hbracket
        | nil =>
          rcases hrest with rfl | hhead
          · exact hbracket
          · rw [List.nil_append, hhead]
            decide
      rw [if_neg hplain, Text.takeWhile_stop hname hrest]
  · rintro rfl
    split_ifs with hbracket hclosed
    · obtain ⟨rest, htext, hrest, hnot⟩ := Text.exists_cut ']' text
      obtain ⟨inner, hinner⟩ : ∃ inner, text.takeWhile (· ≠ ']') = '[' :: inner := by
        obtain ⟨inner, rfl⟩ := List.head?_eq_some_iff.mp hbracket
        exact ⟨inner.takeWhile (· ≠ ']'), rfl⟩
      rw [hinner] at htext hnot
      rcases hrest with rfl | hhead
      · rw [htext, List.append_nil] at hclosed
        exact absurd hclosed hnot
      · obtain ⟨rest, rfl⟩ := List.head?_eq_some_iff.mp hhead
        rw [hinner, htext]
        exact .address fun hmem => hnot (List.mem_cons_of_mem _ hmem)
    · obtain ⟨inner, rfl⟩ := List.head?_eq_some_iff.mp hbracket
      exact .unclosed fun hmem => hclosed (List.mem_cons_of_mem _ hmem)
    · obtain ⟨rest, htext, hrest, hnot⟩ := Text.exists_cut ':' text
      have hplain : (text.takeWhile (· ≠ ':')).head? ≠ some '[' := by
        intro hhead
        rw [htext, List.head?_append, hhead] at hbracket
        exact hbracket rfl
      have hname := NamesHost.name hnot hplain hrest
      rwa [← htext] at hname

theorem parsePort_eq_some_iff {digits : List Char} :
    parsePort digits = some port ↔ Radix.Numeral 10 digits port.toNat := by
  unfold parsePort
  rw [Option.map_eq_some_iff]
  constructor
  · rintro ⟨n, hn, rfl⟩
    obtain ⟨hnumeral, hle⟩ := (Radix.fromStrRadix_eq_some_iff (by decide)).mp hn
    rwa [UInt16.toNat_ofNat_of_lt' (Nat.lt_succ_of_le hle)]
  · intro h
    have hle : port.toNat ≤ 0xffff := Nat.le_of_lt_succ port.toNat_lt
    exact ⟨_, (Radix.fromStrRadix_eq_some_iff (by decide)).mpr ⟨h, hle⟩, UInt16.ofNat_toNat⟩

theorem colon_not_mem {digits : List Char} {n : ℕ} (h : Radix.Numeral 10 digits n) :
    ':' ∉ digits := by
  intro hmem
  rcases h.visible hmem with heq | halnum
  · exact absurd heq (by decide)
  · exact absurd halnum (by decide)

theorem hostPort_of_not_bracket (h : text.head? ≠ some '[') :
    hostPort text = if ':' ∈ text then parsePort (Text.afterLast ':' text) else none := by
  unfold hostPort
  split
  · exact absurd rfl h
  · rfl

theorem namesPort_iff : NamesPort text port ↔ hostPort text = some port := by
  constructor
  · intro h
    cases h with
    | @address inner digits _ h hport =>
      have hdrop : (inner ++ ']' :: ':' :: digits).dropWhile (· ≠ ']') = ']' :: ':' :: digits :=
        Text.dropWhile_stop h (.inr rfl)
      rw [List.cons_append, hostPort, hdrop]
      exact parsePort_eq_some_iff.mpr hport
    | @name before digits _ hbracket hport =>
      have hplain : (before ++ ':' :: digits).head? ≠ some '[' := by
        cases before with
        | nil => simp
        | cons c before => exact hbracket
      rw [hostPort_of_not_bracket hplain, if_pos (by simp), Text.afterLast_append,
        Text.afterLast_of_not_mem (colon_not_mem hport)]
      exact parsePort_eq_some_iff.mpr hport
  · intro h
    by_cases hbracket : text.head? = some '['
    · obtain ⟨bracketed, rfl⟩ := List.head?_eq_some_iff.mp hbracket
      obtain ⟨rest, htext, hrest, hnot⟩ := Text.exists_cut ']' bracketed
      have hdrop : bracketed.dropWhile (· ≠ ']') = rest := by
        rw [htext, Text.dropWhile_stop hnot hrest]
      rw [hostPort, hdrop] at h
      split at h
      · rw [htext]
        exact .address hnot (parsePort_eq_some_iff.mp h)
      · cases h
    · rw [hostPort_of_not_bracket hbracket] at h
      split_ifs at h with hcolon
      obtain ⟨before, htext⟩ := Text.exists_afterLast hcolon
      have hplain : before.head? ≠ some '[' := by
        intro hhead
        rw [htext, List.head?_append, hhead] at hbracket
        exact hbracket rfl
      have hnames := NamesPort.name hplain (parsePort_eq_some_iff.mp h)
      rwa [← htext] at hnames

theorem namesScheme_iff {scheme : List Char} :
    NamesScheme text scheme ↔ whatwgScheme text = some scheme := by
  unfold whatwgScheme
  constructor
  · rintro ⟨⟨first, rest, rfl, hfirst, hall⟩, after, rfl, hafter⟩
    have hplain : ':' ∉ first :: rest := by
      rintro (- | ⟨-, hmem⟩)
      · exact absurd hfirst (by decide)
      · exact absurd (hall _ hmem) (by decide)
    rw [Text.takeWhile_stop hplain hafter]
    exact if_pos (by simpa [hfirst, or_assoc] using hall)
  · intro h
    obtain ⟨after, htext, hafter, -⟩ := Text.exists_cut ':' text
    split at h
    · cases h
    · next first rest hcut =>
      split_ifs at h with hshape
      obtain rfl := Option.some.inj h
      rw [hcut] at htext
      exact ⟨⟨first, rest, rfl, by simpa [or_assoc] using hshape⟩, after, htext, hafter⟩

end HostHeader

section Rewriting

variable {http : Http} {parsers : UriParsers} {editors : UrlEditors} {isIpv6 : String → Bool}
  {options : RewriteOptions} {host : Option HeaderValue} {url url' : Url}

/-- The `Host` header that a `Location` is rewritten to. -/
def Requests (http : Http) (options : RewriteOptions) (host : Option HeaderValue) (text : String) :
    Prop :=
  options.autoRewrite = true ∧ ∃ value, host = some value ∧ http.toStr value = some text

/-- The URL with the host and the port that the `Host` header of the request names. -/
inductive Renamed (http : Http) (editors : UrlEditors) (options : RewriteOptions)
    (host : Option HeaderValue) (url : Url) : Url → Prop
  | kept (h : options.autoRewrite = false ∨ host = none) : Renamed http editors options host url url
  | host {text : String} {name : List Char} {url' : Url} (htext : Requests http options host text)
      (hname : NamesHost text.toList name) (hset : editors.setHost url name = some url')
      (hport : ∀ port, ¬NamesPort text.toList port) : Renamed http editors options host url url'
  | hostAndPort {text : String} {name : List Char} {port : UInt16} {named url' : Url}
      (htext : Requests http options host text) (hname : NamesHost text.toList name)
      (hset : editors.setHost url name = some named) (hport : NamesPort text.toList port)
      (hset' : editors.setPort named port = some url') : Renamed http editors options host url url'

theorem renamed_iff :
    Renamed http editors options host url url' ↔
      rewriteHost http editors options host url = some url' := by
  unfold rewriteHost
  constructor
  · intro h
    cases h with
    | kept h =>
      rcases h with hauto | rfl
      · rw [if_neg (by simp [hauto])]
      · split_ifs <;> rfl
    | host htext hname hset hport =>
      obtain ⟨hauto, value, hhost, htext⟩ := htext
      obtain rfl := namesHost_iff.mp hname
      have hnone : hostPort _ = none := Option.eq_none_iff_forall_not_mem.mpr fun port hmem =>
        hport port (namesPort_iff.mpr hmem)
      simp [hauto, hhost, htext, hset, hnone]
    | hostAndPort htext hname hset hport hset' =>
      obtain ⟨hauto, value, hhost, htext⟩ := htext
      obtain rfl := namesHost_iff.mp hname
      simp [hauto, hhost, htext, hset, namesPort_iff.mp hport, hset']
  · intro h
    split_ifs at h with hauto
    · split at h
      · obtain rfl := Option.some.inj h
        exact .kept (.inr rfl)
      · next value =>
        obtain ⟨text, htext, h⟩ := Option.bind_eq_some_iff.mp h
        obtain ⟨named, hset, h⟩ := Option.bind_eq_some_iff.mp h
        have hrequests : Requests http options (some value) text := ⟨hauto, value, rfl, htext⟩
        have hname := namesHost_iff.mpr (rfl : hostName text.toList = _)
        split at h
        · next port hport =>
          exact .hostAndPort hrequests hname hset (namesPort_iff.mpr hport) h
        · next hnone =>
          obtain rfl := Option.some.inj h
          refine .host hrequests hname hset fun port hport => ?_
          cases hnone.symm.trans (namesPort_iff.mp hport)
    · obtain rfl := Option.some.inj h
      exact .kept (.inl (by simpa using hauto))

/-- The URL with the scheme that `--protocol-rewrite` names, if it can have that. -/
inductive Reschemed (editors : UrlEditors) (options : RewriteOptions) (url : Url) : Url → Prop
  | unnamed (h : ∀ text ∈ options.protocolRewrite, ∀ scheme, ¬NamesScheme text.toList scheme) :
    Reschemed editors options url url
  | refused {text : String} {scheme : List Char} (htext : options.protocolRewrite = some text)
      (hscheme : NamesScheme text.toList scheme) (hset : editors.setScheme url scheme = none) :
    Reschemed editors options url url
  | set {text : String} {scheme : List Char} {url' : Url}
      (htext : options.protocolRewrite = some text) (hscheme : NamesScheme text.toList scheme)
      (hset : editors.setScheme url scheme = some url') : Reschemed editors options url url'

theorem reschemed_iff :
    Reschemed editors options url url' ↔ rewriteScheme editors options url = url' := by
  unfold rewriteScheme
  constructor
  · intro h
    cases h with
    | unnamed h =>
      have hnone : options.protocolRewrite.bind (whatwgScheme ·.toList) = none := by
        refine Option.eq_none_iff_forall_not_mem.mpr fun scheme hmem => ?_
        obtain ⟨text, htext, hscheme⟩ := Option.bind_eq_some_iff.mp hmem
        exact h text htext scheme (namesScheme_iff.mpr hscheme)
      rw [hnone]
    | refused htext hscheme hset => simp [htext, namesScheme_iff.mp hscheme, hset]
    | set htext hscheme hset => simp [htext, namesScheme_iff.mp hscheme, hset]
  · rintro rfl
    split
    · next scheme hscheme =>
      obtain ⟨text, htext, hscheme⟩ := Option.bind_eq_some_iff.mp hscheme
      cases hset : editors.setScheme url scheme with
      | none => exact .refused htext (namesScheme_iff.mpr hscheme) hset
      | some url' => exact .set htext (namesScheme_iff.mpr hscheme) hset
    · next hnone =>
      refine .unnamed fun text htext scheme hscheme => ?_
      exact Option.eq_none_iff_forall_not_mem.mp hnone scheme
        (Option.bind_eq_some_iff.mpr ⟨text, htext, namesScheme_iff.mp hscheme⟩)

/-- What the client is shown: the host and the port of its own request where they are to be
rewritten, and the path and the query that the upstream gave. Either of the two schemes may leave
its default port out. -/
structure Shown (http : Http) (editors : UrlEditors) (options : RewriteOptions)
    (host : Option HeaderValue) (url url' : Url) : Prop where
  path : url'.path = url.path
  query : url'.query = url.query
  namedHost : ∀ text name, Requests http options host text → NamesHost text.toList name →
    editors.readHost url.scheme name = some url'.hostStr
  ownHost : (∀ text, ¬Requests http options host text) → url'.hostStr = url.hostStr
  namedPort : ∀ text port, Requests http options host text → NamesPort text.toList port →
    url'.port = if defaultPort url.scheme = some port ∨ defaultPort url'.scheme = some port then none
      else some port
  ownPort : (∀ text port, Requests http options host text → ¬NamesPort text.toList port) →
    url'.port = url.port ∨ url'.port = none ∧ defaultPort url'.scheme = url.port
  scheme : url'.scheme = url.scheme ∨ ∃ text scheme, options.protocolRewrite = some text ∧
    NamesScheme text.toList scheme ∧ url'.scheme = String.ofList (scheme.map Char.toLower)

theorem Requests.unique {text text' : String} (h : Requests http options host text)
    (h' : Requests http options host text') : text = text' := by
  obtain ⟨-, value, hhost, htext⟩ := h
  obtain ⟨-, value', hhost', htext'⟩ := h'
  obtain rfl := Option.some.inj (hhost.symm.trans hhost')
  exact Option.some.inj (htext.symm.trans htext')

theorem not_requests (h : options.autoRewrite = false ∨ host = none) (text : String) :
    ¬Requests http options host text := by
  rintro ⟨hauto, value, hhost, -⟩
  rcases h with h | h
  · exact absurd hauto (by simp [h])
  · cases h.symm.trans hhost

theorem NamesHost.unique {text name name' : List Char} (h : NamesHost text name)
    (h' : NamesHost text name') : name = name' :=
  (namesHost_iff.mp h).symm.trans (namesHost_iff.mp h')

theorem NamesPort.unique {text : List Char} {port port' : UInt16} (h : NamesPort text port)
    (h' : NamesPort text port') : port = port' :=
  Option.some.inj ((namesPort_iff.mp h).symm.trans (namesPort_iff.mp h'))

/-- The scheme is kept until the port is set, so a port may be left out that was its default. -/
theorem Renamed.shown (hhost : url.hostStr ≠ none)
    (h : Renamed http editors options host url url') :
    Shown http editors options host url url' ∧ url'.scheme = url.scheme ∧
      ((∀ text port, Requests http options host text → ¬NamesPort text.toList port) →
        url'.port = url.port) := by
  cases h with
  | kept h =>
    have hnot : ∀ text, ¬Requests http options host text := not_requests h
    exact ⟨⟨rfl, rfl, fun text _ htext => absurd htext (hnot text), fun _ => rfl,
      fun text _ htext => absurd htext (hnot text), fun _ => .inl rfl, .inl rfl⟩, rfl,
      fun _ => rfl⟩
  | @host text name _ htext hname hset hport =>
    obtain ⟨hscheme, hsame, hpath, hquery⟩ := editors.setHost_rest url name url' hhost hset
    have hread := editors.setHost_host url name hhost
    rw [hset] at hread
    refine ⟨⟨hpath, hquery, ?_, fun hno => absurd htext (hno text), ?_, fun _ => .inl hsame,
      .inl hscheme⟩, hscheme, fun _ => hsame⟩
    · intro text' name' htext' hname'
      obtain rfl := htext.unique htext'
      obtain rfl := hname.unique hname'
      exact hread.symm
    · intro text' port htext' hport'
      obtain rfl := htext.unique htext'
      exact absurd hport' (hport port)
  | @hostAndPort text name port named _ htext hname hset hport hset' =>
    obtain ⟨hscheme, -, hpath, hquery⟩ := editors.setHost_rest url name named hhost hset
    obtain ⟨hsame, hscheme', hpath', hquery'⟩ := editors.setPort_rest named port url' hset'
    have hread := editors.setHost_host url name hhost
    have hnumber := editors.setPort_port named port url' hset'
    rw [hset] at hread
    rw [hscheme] at hnumber hscheme'
    refine ⟨⟨hpath'.trans hpath, hquery'.trans hquery, ?_, fun hno => absurd htext (hno text), ?_,
      fun hno => absurd hport (hno text port htext), .inl hscheme'⟩, hscheme',
      fun hno => absurd hport (hno text port htext)⟩
    · intro text' name' htext' hname'
      obtain rfl := htext.unique htext'
      obtain rfl := hname.unique hname'
      rw [← hread, hsame]
      rfl
    · intro text' port' htext' hport'
      obtain rfl := htext.unique htext'
      obtain rfl := hport.unique hport'
      simp only [hnumber, hscheme', or_self]

theorem NamesScheme.legal {text scheme : List Char} (h : NamesScheme text scheme) :
    ∀ c ∈ scheme, c.isAlphanum = true ∨ c = '+' ∨ c = '-' ∨ c = '.' := by
  obtain ⟨⟨first, rest, rfl, hfirst, hrest⟩, -⟩ := h
  intro c hc
  rcases List.mem_cons.mp hc with rfl | hc
  · exact .inl (Bool.or_eq_true_iff.mpr (.inl hfirst))
  · exact hrest c hc

theorem shown_of_renamed_of_reschemed {named : Url} (hhost : url.hostStr ≠ none)
    (hrenamed : Renamed http editors options host url named)
    (h : Reschemed editors options named url') : Shown http editors options host url url' := by
  obtain ⟨hnamed, hsame, hown⟩ := hrenamed.shown hhost
  cases h with
  | unnamed => exact hnamed
  | refused => exact hnamed
  | @set text scheme _ htext hscheme hset =>
    obtain ⟨hhost, hpath, hquery⟩ := editors.setScheme_rest named scheme url' hset
    have hport := editors.setScheme_port named scheme url' hset
    refine ⟨hpath.trans hnamed.path, hquery.trans hnamed.query, ?_, ?_, ?_, ?_, ?_⟩
    · rw [hhost]
      exact hnamed.namedHost
    · rw [hhost]
      exact hnamed.ownHost
    · intro text' port htext' hport'
      have hbefore := hnamed.namedPort text' port htext' hport'
      rw [hsame] at hbefore
      rw [hport, hbefore]
      by_cases hdefault : defaultPort url.scheme = some port
      · simp [hdefault]
      · simp [hdefault]
    · intro hno
      rw [hport, hown hno]
      split_ifs with hdefault
      · exact .inr ⟨rfl, hdefault⟩
      · exact .inl rfl
    · exact .inr ⟨text, scheme, htext, hscheme,
        editors.setScheme_scheme named scheme url' hscheme.legal hset⟩

/-- The statuses and the options under which a `Location` is looked at. -/
def Asks (options : RewriteOptions) (status : ℕ) : Prop :=
  (status = 201 ∨ status = 301 ∨ status = 302 ∨ status = 307 ∨ status = 308) ∧
    (options.autoRewrite = true ∨ options.protocolRewrite ≠ none)

/-- The first `Location` of a response is a URL at the target with this base. -/
def LeadsTo (http : Http) (parsers : UriParsers) (response : HeaderMap) (base url : Url) : Prop :=
  ∃ location text, (response.getAll "location").head? = some location ∧
    http.toStr location = some text ∧ parsers.parseUrl text = .ok url ∧ AtTarget base url

def HandsOn (response : HeaderMap) (values : List HeaderValue) (out : HeaderMap) : Prop :=
  ∀ name, out.getAll name = if name = "location" then values else response.getAll name

variable {base : Url} {target : Target} {status : ℕ} {response rewritten out : HeaderMap}

theorem asks_iff : Asks options status ↔ (!isRedirectRewriteStatus status ||
    (!options.autoRewrite && options.protocolRewrite.isNone)) = false := by
  have hstatus : isRedirectRewriteStatus status = true ↔
      status = 201 ∨ status = 301 ∨ status = 302 ∨ status = 307 ∨ status = 308 := by
    simp [isRedirectRewriteStatus]
  unfold Asks
  rw [← hstatus]
  cases isRedirectRewriteStatus status <;> cases options.autoRewrite <;>
    cases options.protocolRewrite <;> simp

theorem get?_eq_head? (m : HeaderMap) (name : HeaderName) :
    m.get? name = (m.getAll name).head? := by
  unfold MultiMap.get? MultiMap.getAll
  cases m.bucket? name <;> rfl

theorem handsOn_filter (response rewritten : HeaderMap) :
    HandsOn response (rewritten.get? "location").toList
      (match rewritten.get? "location" with
        | some location => response.insert "location" location
        | none => response.remove "location") := by
  intro name
  split
  · next location hlocation =>
    rw [MultiMap.getAll_insert, hlocation]
    rfl
  · next hlocation =>
    rw [MultiMap.getAll_remove, hlocation]
    rfl

theorem LeadsTo.hostStr (hparse : Target.parse isIpv6 base = .ok target)
    (h : LeadsTo http parsers response base url) : url.hostStr ≠ none := by
  obtain ⟨-, -, -, -, -, ⟨hscheme, hhost, -⟩ | ⟨-, hhost, -⟩⟩ := h
  · rw [hhost]
    exact Target.hostStr_of_parse hscheme hparse
  · rw [hhost]
    exact Option.some_ne_none _

section

variable (haddress : AddressShaped isIpv6)
  (hshaped : ∀ text url, parsers.parseUrl text = .ok url → HostShaped isIpv6 url)
  (hbase : HostShaped isIpv6 base) (hparse : Target.parse isIpv6 base = .ok target)

include haddress hshaped hbase hparse

theorem rewriteLocation_of_leadsTo (hasks : Asks options status)
    (h : LeadsTo http parsers response base url) :
    rewriteLocation http parsers editors isIpv6 options status response host target =
      (rewriteHost http editors options host url).bind fun url =>
        (http.fromStr (editors.asStr (rewriteScheme editors options url))).map
          (response.insert "location") := by
  obtain ⟨location, text, hlocation, htext, hurl, hat⟩ := h
  have hhost := (urlHost_eq_authority_iff haddress (hshaped text url hurl) hbase hparse).mpr hat
  unfold rewriteLocation
  rw [asks_iff.mp hasks, if_neg Bool.false_ne_true, get?_eq_head?, hlocation]
  simp only [htext, hurl, hhost, ne_eq, not_true_eq_false, if_false, Option.map_eq_bind]
  rfl

theorem rewriteLocation_of_not_leadsTo (hreadable : ∀ location,
      (response.getAll "location").head? = some location → http.toStr location ≠ none)
    (h : ∀ url, ¬LeadsTo http parsers response base url) :
    rewriteLocation http parsers editors isIpv6 options status response host target =
      some response := by
  unfold rewriteLocation
  rw [get?_eq_head?]
  split_ifs
  · rfl
  · split
    · rfl
    · next location hlocation =>
      split
      · next hnone => exact absurd hnone (hreadable location hlocation)
      · next text htext =>
        split
        · rfl
        · next url hurl =>
          refine if_pos fun hhost => h url ⟨location, text, hlocation, htext, hurl, ?_⟩
          exact (urlHost_eq_authority_iff haddress (hshaped text url hurl) hbase hparse).mp hhost

end

end Rewriting

/-- The host of a URL can be set to a name and its port to any number, and the scheme stays. -/
def plainEditors : UrlEditors where
  readHost _ host :=
    if '/' ∉ host ∧ host.head? ≠ some '[' then some (some (String.ofList host)) else none
  setHost u host :=
    if h : ('/' ∉ host ∧ host.head? ≠ some '[') ∧ u.hostStr ≠ none then
      some
        { u with
          hostStr := some (String.ofList host)
          hostAndPort := String.ofList (host ++ portSuffix u.port)
          no_slash := by
            rw [String.toList_ofList]
            exact slash_not_mem h.1.1 u.port
          bracketed := fun inner hinner => by
            have heq : host = '[' :: inner ++ [']'] := by
              simpa using congrArg String.toList (Option.some.inj hinner)
            rw [heq] at h
            exact absurd rfl h.1.2
          rooted := fun _ => u.rooted (.inl h.2) }
    else none
  setPort u port :=
    let kept := if defaultPort u.scheme = some port then none else some port
    if h : '/' ∉ (u.hostStr.getD "").toList ∧ u.hostStr ≠ none then
      some
        { u with
          port := kept
          portOrKnownDefault := some port
          hostAndPort := String.ofList ((u.hostStr.getD "").toList ++ portSuffix kept)
          no_slash := by
            rw [String.toList_ofList]
            exact slash_not_mem h.1 kept
          known_port := by
            by_cases hdefault : defaultPort u.scheme = some port
            · simp [kept, hdefault]
            · simp [kept, hdefault]
          rooted := fun _ => u.rooted (.inl h.2) }
    else none
  setScheme _ _ := none
  asStr u := u.scheme ++ "://" ++ u.hostAndPort ++ u.path ++ u.query.elim "" ("?" ++ ·)
  readHost_plain _ host h := by
    refine if_pos ⟨fun hmem => ?_, fun hhead => ?_⟩
    · exact absurd (h.ascii _ hmem) (by decide)
    · exact absurd (h.ascii _ (List.mem_of_head? hhead)) (by decide)
  setHost_host u host hhost := by
    split_ifs with hset hplain hplain
    · rfl
    · exact absurd hset.1 hplain
    · exact absurd ⟨hplain, hhost⟩ hset
    · rfl
  setHost_rest u host u' _ h := by
    split_ifs at h
    obtain rfl := Option.some.inj h
    exact ⟨rfl, rfl, rfl, rfl⟩
  setPort_port u port u' h := by
    obtain ⟨_, h⟩ := Option.dite_none_right_eq_some.mp h
    obtain rfl := Option.some.inj h
    rfl
  setPort_rest u port u' h := by
    obtain ⟨_, h⟩ := Option.dite_none_right_eq_some.mp h
    obtain rfl := Option.some.inj h
    exact ⟨rfl, rfl, rfl, rfl⟩
  setScheme_scheme u _ u' _ h := by cases h
  setScheme_port u _ u' h := by cases h
  setScheme_rest u _ u' h := by cases h

/-- `302` to a page of the target. -/
def redirecting : HeaderMap :=
  MultiMap.empty.insert "location" (Http.ofText "http://base.invalid/x?y")

end Upstream

end ChpProxy
