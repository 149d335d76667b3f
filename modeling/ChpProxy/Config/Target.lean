import ChpProxy.Api.Octets
import ChpProxy.Upstream.Target

/-! The targets of the configuration, checked at startup (`config.rs`). -/
namespace ChpProxy.Config

inductive ConfigError where
  | conflictingErrorHandlers
  | redirectWithoutTls
  | incompleteKeyPair (names : String)
  | invalidLogLevel (value : String)
  | invalidTarget (kind value : String)
  | unknownStorageBackend (value : String)
  | rc4Unsupported
  | invalidCustomHeader (value : String)
  | apiPortOverflow
  | unsupportedClientTlsFlag (flag : String)
  | missingRedisUrl
  | invalidRedisUrl
  | invalidRedisRouteKey
  | invalidRedisOperationTimeout
  | missingSidecarUrl
  | invalidSidecarUrl
  | missingSidecarBearerToken
  | invalidSidecarConnectTimeout
  | invalidSidecarRequestTimeout
  | invalidListenerTlsPolicy (rejectFlag requestFlag caFlag : String)
  | invalidRequiredAuthPolicy
  | missingRequiredAuthToken
  deriving DecidableEq

def isAsciiHexdigit (byte : UInt8) : Bool :=
  (0x30 ≤ byte && byte ≤ 0x39) || (0x61 ≤ byte && byte ≤ 0x66) || (0x41 ≤ byte && byte ≤ 0x46)

def hexValue (byte : UInt8) : UInt8 :=
  if 0x30 ≤ byte && byte ≤ 0x39 then byte - 0x30
  else if 0x61 ≤ byte && byte ≤ 0x66 then byte - 0x61 + 10
  else if 0x41 ≤ byte && byte ≤ 0x46 then byte - 0x41 + 10
  else 0

/-- The loop of `is_percent_encoded_socket_host`: whether it met an escape, and the octets. -/
def decodeSocketHost : List UInt8 → Option (Bool × List UInt8)
  | [] => some (false, [])
  | byte :: rest =>
    if byte = 0x25 then
      match rest with
      | high :: low :: rest =>
        if !isAsciiHexdigit high || !isAsciiHexdigit low then none
        else (decodeSocketHost rest).map fun p =>
          (true, (hexValue high <<< 4 ||| hexValue low) :: p.2)
      | _ => none
    else (decodeSocketHost rest).map fun p => (p.1, byte :: p.2)

def isPercentEncodedSocketHost (host : String) : Bool :=
  match decodeSocketHost (Api.asBytes host) with
  | none => false
  | some (hasPercentEncoding, decoded) => match Api.fromUtf8 decoded with
    | none => false
    | some decoded => hasPercentEncoding && !decoded.isEmpty && !decoded.contains '\x00' &&
      decoded.head? = some '/'

def isValidTarget (url : Url) : Bool :=
  if url.scheme = "http" ∨ url.scheme = "https" then url.hostStr.any fun host => !host.isEmpty
  else if url.scheme = "http+unix" ∨ url.scheme = "unix+http" then
    isPercentEncodedSocketHost url.hostAndPort
  else false

/-- `parse` is `Url::parse`. -/
def parseTarget (parse : String → Option Url) (value : Option String) (kind : String) :
    Except ConfigError (Option Url) :=
  match value with
  | none => .ok none
  | some value => match parse value with
    | none => .error (.invalidTarget kind value)
    | some url => if isValidTarget url then .ok (some url) else .error (.invalidTarget kind value)

def parseErrorTarget (parse : String → Option Url) (value : Option String) :
    Except ConfigError (Option Url) :=
  parseTarget parse
    (value.map fun target => if target.toList.getLast? = some '/' then target else target ++ "/")
    "error target"

/-! The two decoders. -/

theorem hexValue_eq (byte : UInt8) :
    Api.hexValue byte = if isAsciiHexdigit byte then some (hexValue byte) else none := by
  unfold Api.hexValue isAsciiHexdigit hexValue
  generalize (decide (0x30 ≤ byte) && decide (byte ≤ 0x39)) = digit
  generalize (decide (0x61 ≤ byte) && decide (byte ≤ 0x66)) = lower
  generalize (decide (0x41 ≤ byte) && decide (byte ≤ 0x46)) = upper
  cases digit <;> cases lower <;> cases upper <;> rfl

/-- The loops decode alike; this one also notes whether it met an escape. -/
theorem decodeSocketHost_eq (bytes : List UInt8) :
    decodeSocketHost bytes = (Api.percentDecodeBytes bytes).map fun decoded =>
      (bytes.contains 0x25, decoded) := by
  fun_induction decodeSocketHost bytes with
  | case1 => rfl
  | case2 high low rest hbad =>
    rw [Bool.or_eq_true, Bool.not_eq_true', Bool.not_eq_true'] at hbad
    rcases hbad with hbad | hbad
    · simp [Api.percentDecodeBytes, hexValue_eq, hbad]
    · simp [Api.percentDecodeBytes, hexValue_eq, hbad]
  | case3 high low rest hgood ih =>
    simp only [Bool.or_eq_true, Bool.not_eq_true', not_or, Bool.not_eq_false] at hgood
    rw [ih]
    simp only [Api.percentDecodeBytes, hexValue_eq, if_pos hgood.1, if_pos hgood.2]
    cases Api.percentDecodeBytes rest with
    | none => rfl
    | some decoded => rfl
  | case4 rest hshort =>
    cases rest with
    | nil => rfl
    | cons high rest =>
      cases rest with
      | nil => rfl
      | cons low rest => exact absurd rfl (hshort high low rest)
  | case5 byte rest hbyte ih =>
    rw [ih, Api.percentDecodeBytes_cons_of_ne hbyte]
    cases Api.percentDecodeBytes rest with
    | none => rfl
    | some decoded => simp [Ne.symm hbyte]

/-- A text that decodes to a path has an escape, because it has no slash of its own. -/
theorem escape_of_decodes {host : String} (hslash : '/' ∉ host.toList) {decoded : List UInt8}
    {text : List Char} (hdecoded : Api.percentDecodeBytes (Api.asBytes host) = some decoded)
    (htext : Api.fromUtf8 decoded = some text) (hhead : text.head? = some '/') :
    (0x25 : UInt8) ∈ Api.asBytes host := by
  by_contra hescape
  rw [Api.percentDecodeBytes_of_not_mem hescape] at hdecoded
  have hsame := Api.fromUtf8_asBytes host
  rw [Option.some.inj hdecoded, htext] at hsame
  rw [Option.some.inj hsame] at hhead
  exact hslash (List.mem_of_head? hhead)

theorem isPercentEncodedSocketHost_iff {host : String} (hslash : '/' ∉ host.toList) :
    isPercentEncodedSocketHost host = true ↔
      ∃ decoded, Upstream.percentDecode host.toList = some decoded ∧
        (decoded.isEmpty || decoded.toList.contains '\x00' || decoded.toList.head? ≠ some '/') =
          false := by
  unfold isPercentEncodedSocketHost Upstream.percentDecode Api.percentDecode
  rw [decodeSocketHost_eq, String.ofList_toList]
  cases hdecoded : Api.percentDecodeBytes (Api.asBytes host) with
  | none => simp
  | some decoded =>
    simp only [Option.map_some, Option.bind_some]
    cases htext : Api.fromUtf8 decoded with
    | none => simp
    | some text =>
      by_cases hhead : text.head? = some '/'
      · have hescape := escape_of_decodes hslash hdecoded htext hhead
        simp [hescape, hhead]
      · simp [hhead]

theorem isValidTarget_iff (isIpv6 : String → Bool) (url : Url) :
    isValidTarget url = true ↔ ∃ target, Target.parse isIpv6 url = .ok target := by
  unfold isValidTarget Target.parse
  dsimp only
  split_ifs with hhttp hunix
  · obtain ⟨port, hport⟩ := Option.ne_none_iff_exists'.mp (url.known_default hhttp)
    cases hhost : url.hostStr with
    | none => simp
    | some rawHost =>
      simp only [hport, Option.any_some]
      by_cases hempty : rawHost = ""
      · subst hempty
        refine iff_of_false Bool.false_ne_true ?_
        rintro ⟨target, h⟩
        cases h
      · have hne : rawHost.toList ≠ [] := by simpa using hempty
        have hstripped : Upstream.stripBrackets rawHost.toList ≠ [] := by
          refine Upstream.stripBrackets_ne_nil hne fun inner h => url.bracketed inner ?_
          rw [hhost, ← h, String.ofList_toList]
        have hhost' : (String.ofList (Upstream.stripBrackets rawHost.toList)).isEmpty = false := by
          simpa using hstripped
        rw [hhost', if_neg Bool.false_ne_true]
        exact iff_of_true (by simpa using hempty) ⟨_, rfl⟩
  · rw [isPercentEncodedSocketHost_iff url.no_slash]
    cases Upstream.percentDecode url.hostAndPort.toList with
    | none => simp
    | some decoded =>
      simp only [Option.some.injEq, exists_eq_left']
      split_ifs with hbad
      · refine iff_of_false (ne_false_of_eq_true hbad) ?_
        rintro ⟨target, h⟩
        cases h
      · exact iff_of_true (Bool.eq_false_iff.mpr hbad) ⟨_, rfl⟩
  · simp

/-- The socket that a request connects to is the one that the startup decoded. -/
theorem decodeSocketHost_of_unix {isIpv6 : String → Bool} {url : Url} {socketPath : List UInt8}
    {path : String} (h : Target.parse isIpv6 url = .ok (.unix socketPath path)) :
    decodeSocketHost (Api.asBytes url.hostAndPort) = some (true, socketPath) := by
  obtain ⟨decoded, hdecoded, hhead, rfl⟩ := Target.parse_eq_unix h
  unfold Upstream.percentDecode Api.percentDecode at hdecoded
  rw [String.ofList_toList] at hdecoded
  obtain ⟨text, hbind, rfl⟩ := Option.map_eq_some_iff.mp hdecoded
  obtain ⟨bytes, hbytes, htext⟩ := Option.bind_eq_some_iff.mp hbind
  rw [String.toList_ofList] at hhead
  have hescape := escape_of_decodes url.no_slash hbytes htext hhead
  have hsame : bytes = Api.asBytes (String.ofList text) := by
    rw [Api.asBytes_eq_encode, String.toList_ofList]
    exact Utf8.decode_eq_some_iff.mp htext
  rw [decodeSocketHost_eq, hbytes, Option.map_some, List.contains_iff_mem.mpr hescape, hsame]

theorem parseTarget_eq_ok_iff {parse : String → Option Url} {value kind : String} {url : Url} :
    parseTarget parse (some value) kind = .ok (some url) ↔
      parse value = some url ∧ isValidTarget url = true := by
  unfold parseTarget
  dsimp only
  constructor
  · intro h
    split at h
    · cases h
    · next url' hparse =>
      split_ifs at h with hvalid
      rw [← Option.some.inj (Except.ok.inj h)]
      exact ⟨hparse, hvalid⟩
  · rintro ⟨hparse, hvalid⟩
    simp only [hparse, hvalid, if_true]

/-- What is accepted at startup is what requests can use: for every URL, for a default target and
for an error target, whose text is closed with a slash first. -/
theorem startup_targets_agree (isIpv6 : String → Bool) :
    (∀ url, isValidTarget url = true ↔ ∃ target, Target.parse isIpv6 url = .ok target) ∧
    (∀ url socketPath path, Target.parse isIpv6 url = .ok (.unix socketPath path) →
      decodeSocketHost (Api.asBytes url.hostAndPort) = some (true, socketPath)) ∧
    (∀ parse value kind url, parseTarget parse (some value) kind = .ok (some url) ↔
      parse value = some url ∧ ∃ target, Target.parse isIpv6 url = .ok target) ∧
    ∀ parse value url, parseErrorTarget parse (some value) = .ok (some url) ↔
      parse (if value.toList.getLast? = some '/' then value else value ++ "/") = some url ∧
        ∃ target, Target.parse isIpv6 url = .ok target := by
  refine ⟨isValidTarget_iff isIpv6, fun url socketPath path => decodeSocketHost_of_unix,
    fun parse value kind url => ?_, fun parse value url => ?_⟩
  · rw [parseTarget_eq_ok_iff, isValidTarget_iff isIpv6]
  · unfold parseErrorTarget
    rw [Option.map_some, parseTarget_eq_ok_iff, isValidTarget_iff isIpv6]

end ChpProxy.Config
