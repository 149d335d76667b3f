import ChpProxy.Api.Percent
import ChpProxy.Upstream.Target

/-! The request for a custom error page (`errors.rs`): the URL of the page with the original URI as
its parameter, and the text that is written to the error target. -/
namespace ChpProxy.Errors

def isUriLiteral (byte : UInt8) : Bool :=
  (Char.ofNat byte.toNat).isAlphanum || "-_.!~*'()".toList.contains (Char.ofNat byte.toNat)

def encodeUriComponent (value : String) : String :=
  String.ofList (Percent.encode isUriLiteral (Api.asBytes value))

section Url

variable (parse : String → Option Url) (isIpv6 : String → Bool) (target : String) (status : ℕ)

/-- The URL up to the original URI; `target` is the text of the error target. -/
def errorPage : String := target ++ toString status ++ "?url="

def customErrorUrl (originalUri : String) : Option Url :=
  parse (errorPage target status ++ encodeUriComponent originalUri)

def requestTarget (url : Url) : String :=
  url.query.elim url.path fun query => s!"{url.path}?{query}"

/-- What `bounded_request_inner` writes. -/
def boundedRequest (url : Url) : String :=
  let requestTarget := requestTarget url
  let authority := url.hostAndPort
  s!"GET {requestTarget} HTTP/1.1\r\nHost: {authority}\r\nConnection: close\r\n\r\n"

/-- What `unix_custom_error_inner` writes. -/
def unixRequest (url : Url) : Option String :=
  match Target.parse isIpv6 url with
  | .ok (.unix _ path) => some s!"GET {path} HTTP/1.1\r\nHost: localhost\r\nConnection: close\r\n\r\n"
  | _ => none

/-- The request of `custom_error` for a URL, once the connection is there. -/
def requestText (url : Url) : Option String :=
  if url.scheme = "http+unix" || url.scheme = "unix+http" then unixRequest isIpv6 url
  else if url.scheme = "http" || url.scheme = "https" then some (boundedRequest url)
  else none

def customErrorRequest (originalUri : String) : Option String :=
  (customErrorUrl parse target status originalUri).bind (requestText isIpv6)

end Url

/-! Encoded values. -/

def isEncodedChar (c : Char) : Bool := c.isAlphanum || "-_.!~*'()%".toList.contains c

/-- Neither a delimiter of a request line or of a query, nor a control character. -/
def isInert (c : Char) : Bool := c ≠ '?' && c ≠ '#' && c ≠ '&' && ' ' < c && c < '\x7f'

def isSpecial (scheme : String) : Bool :=
  ["http", "https", "ws", "wss", "ftp", "file"].contains scheme

/-- Queries of special schemes have their quotes escaped. -/
def escapeQuery (scheme : String) (value : List Char) : List Char :=
  if isSpecial scheme then value.flatMap fun c => if c = '\x27' then "%27".toList else [c]
  else value

/-- The octets of an original URI that are literal in the query. -/
def isQueryLiteral (scheme : String) (byte : UInt8) : Bool :=
  isUriLiteral byte && !(isSpecial scheme && byte = 0x27)

theorem plain_isUriLiteral : Percent.Plain isUriLiteral :=
  Percent.plain_of_forall (by decide +kernel)

theorem plain_isQueryLiteral (scheme : String) : Percent.Plain (isQueryLiteral scheme) := by
  intro byte h
  exact plain_isUriLiteral byte (Bool.and_eq_true_iff.mp h).1

theorem escapeQuery_encodeByte {scheme : String} (hspecial : isSpecial scheme = true)
    (byte : UInt8) :
    ((Percent.encodeByte isUriLiteral byte).flatMap fun c =>
      if c = '\x27' then "%27".toList else [c]) =
      Percent.encodeByte (isQueryLiteral scheme) byte := by
  have hall : ∀ n : Fin 256, ((Percent.encodeByte isUriLiteral (UInt8.ofNat n)).flatMap fun c =>
      if c = '\x27' then "%27".toList else [c]) =
      Percent.encodeByte (fun byte => isUriLiteral byte && !(true && byte = 0x27))
        (UInt8.ofNat n) := by
    decide +kernel
  have hbyte := hall ⟨byte.toNat, byte.toNat_lt⟩
  rw [UInt8.ofNat_toNat] at hbyte
  rw [hbyte]
  unfold isQueryLiteral
  rw [hspecial]

theorem escapeQuery_encode (scheme : String) (bytes : List UInt8) :
    escapeQuery scheme (Percent.encode isUriLiteral bytes) =
      Percent.encode (isQueryLiteral scheme) bytes := by
  unfold escapeQuery
  split_ifs with hspecial
  · rw [Percent.encode, List.flatMap_assoc, Percent.encode]
    congr 1
    funext byte
    exact escapeQuery_encodeByte hspecial byte
  · have hliteral : isQueryLiteral scheme = isUriLiteral := by
      funext byte
      rw [isQueryLiteral, Bool.not_eq_true _ |>.mp hspecial]
      simp
    rw [hliteral]

theorem percentDecode_encodeUriComponent (value : String) :
    Api.percentDecode (encodeUriComponent value).toList = some value := by
  rw [encodeUriComponent, String.toList_ofList]
  exact Api.percentDecode_encode plain_isUriLiteral value

theorem encode_forall {literal : UInt8 → Bool} {P : Char → Bool}
    (hliteral : ∀ byte, literal byte = true → isUriLiteral byte = true)
    (hchars : ∀ n : Fin 256, isUriLiteral (UInt8.ofNat n) = true → P (Char.ofNat n) = true)
    (hescape : ('%' :: "0123456789ABCDEF".toList).all P = true) (bytes : List UInt8) :
    (Percent.encode literal bytes).all P = true := by
  have hspelled : Percent.Spelled P (Percent.encode literal bytes) := by
    apply Percent.spelled_encode
    intro byte h
    have hbyte := hchars ⟨byte.toNat, byte.toNat_lt⟩
    rw [UInt8.ofNat_toNat] at hbyte
    exact hbyte (hliteral byte h)
  exact List.all_eq_true.mpr (hspelled.forall_mem (fun _ h => h) hescape)

theorem all_isEncodedChar (value : String) :
    (encodeUriComponent value).toList.all isEncodedChar = true := by
  rw [encodeUriComponent, String.toList_ofList]
  exact encode_forall (fun _ h => h) (by decide +kernel) (by decide) _

theorem all_isInert_encode {literal : UInt8 → Bool}
    (hliteral : ∀ byte, literal byte = true → isUriLiteral byte = true) (bytes : List UInt8) :
    (Percent.encode literal bytes).all isInert = true :=
  encode_forall hliteral (by decide +kernel) (by decide) bytes

/-! Parsing. -/

def extendQuery (url : Url) (value : String) : Url :=
  { url with query := url.query.map (· ++ String.ofList (escapeQuery url.scheme value.toList)) }

/-- What `Url::parse` does with encoded text after `?url=`: it belongs to the query, or to a fragment
that began before. -/
structure ParsesQueries (parse : String → Option Url) : Prop where
  hasQuery : ∀ head url, parse head = some url → "?url=".toList <:+ head.toList →
    '#' ∉ head.toList → url.query ≠ none
  extend : ∀ head value, "?url=".toList <:+ head.toList → '#' ∉ head.toList →
    value.toList.all isEncodedChar = true →
    parse (head ++ value) = (parse head).map (extendQuery · value)
  fragment : ∀ head value, "?url=".toList <:+ head.toList → '#' ∈ head.toList →
    value.toList.all isEncodedChar = true → parse (head ++ value) = parse head

theorem suffix_errorPage (target : String) (status : ℕ) :
    "?url=".toList <:+ (errorPage target status).toList := by
  rw [errorPage, String.toList_append]
  exact List.suffix_append _ _

theorem hash_mem_errorPage_iff {target : String} {status : ℕ} :
    '#' ∈ (errorPage target status).toList ↔ '#' ∈ target.toList := by
  have hstatus : '#' ∉ (toString status).toList := Text.not_mem_repr (by decide) status
  have hparameter : '#' ∉ "?url=".toList := by decide
  rw [errorPage, String.toList_append, String.toList_append, List.mem_append, List.mem_append,
    or_iff_left hparameter, or_iff_left hstatus]

/-- The socket of a Unix target does not depend on the query. -/
theorem unixRequest_query (isIpv6 : String → Bool) {url : Url}
    (hscheme : url.scheme = "http+unix" ∨ url.scheme = "unix+http") :
    (∀ query, unixRequest isIpv6 { url with query := query } = none) ∨
      ∀ query, unixRequest isIpv6 { url with query := query } =
        some ("GET " ++ Upstream.targetPath { url with query := query } ++
          " HTTP/1.1\r\nHost: localhost\r\nConnection: close\r\n\r\n") := by
  have hhttp : ¬(url.scheme = "http" ∨ url.scheme = "https") := by
    rcases hscheme with h | h
    · rw [h]
      decide
    · rw [h]
      decide
  cases hdecode : Upstream.percentDecode url.hostAndPort.toList with
  | none =>
    left
    intro query
    have hparse : Target.parse isIpv6 { url with query := query } = .error .invalidUnixSocket := by
      unfold Target.parse
      dsimp only
      rw [if_neg hhttp, if_pos hscheme, hdecode]
    rw [unixRequest, hparse]
  | some decoded =>
    by_cases hbad : (decoded.isEmpty || decoded.toList.contains '\x00' ||
        decide (decoded.toList.head? ≠ some '/')) = true
    · left
      intro query
      have hparse : Target.parse isIpv6 { url with query := query } =
          .error .invalidUnixSocket := by
        unfold Target.parse
        dsimp only
        rw [if_neg hhttp, if_pos hscheme, hdecode]
        exact if_pos hbad
      rw [unixRequest, hparse]
    · right
      intro query
      have hparse : Target.parse isIpv6 { url with query := query } =
          .ok (.unix (Api.asBytes decoded) (Upstream.targetPath { url with query := query })) := by
        unfold Target.parse
        dsimp only
        rw [if_neg hhttp, if_pos hscheme, hdecode]
        exact if_neg hbad
      rw [unixRequest, hparse]
      rfl

theorem requestText_query (isIpv6 : String → Bool) (url : Url) :
    (∀ query, requestText isIpv6 { url with query := query } = none) ∨
      ∃ path rest : String, ∀ query : Option String, requestText isIpv6 { url with query := query } =
        some ("GET " ++ (path ++ query.elim "" ("?" ++ ·)) ++ (" HTTP/1.1\r\n" ++ rest)) := by
  by_cases hunix : (decide (url.scheme = "http+unix") || decide (url.scheme = "unix+http")) = true
  · have htext : ∀ query, requestText isIpv6 { url with query := query } =
        unixRequest isIpv6 { url with query := query } := fun query => if_pos hunix
    have hscheme : url.scheme = "http+unix" ∨ url.scheme = "unix+http" := by simpa using hunix
    rcases unixRequest_query isIpv6 hscheme with hnone | hsome
    · left
      intro query
      rw [htext, hnone]
    · right
      refine ⟨if url.path.isEmpty then "/" else url.path,
        "Host: localhost\r\nConnection: close\r\n\r\n", fun query => ?_⟩
      rw [htext, hsome]
      rfl
  by_cases hhttp : (decide (url.scheme = "http") || decide (url.scheme = "https")) = true
  · right
    let rest := "Host: " ++ url.hostAndPort ++ "\r\nConnection: close\r\n\r\n"
    refine ⟨url.path, rest, fun query => ?_⟩
    have htext : requestText isIpv6 { url with query := query } =
        some (boundedRequest { url with query := query }) := by
      unfold requestText
      dsimp only
      rw [if_neg hunix, if_pos hhttp]
    have htarget : requestTarget { url with query := query } =
        url.path ++ query.elim "" ("?" ++ ·) := by
      cases query with
      | none => exact String.append_empty.symm
      | some query => exact String.append_assoc
    have hline : " HTTP/1.1\r\nHost: " = " HTTP/1.1\r\n" ++ "Host: " := rfl
    rw [htext, boundedRequest, htarget]
    simp only [toString, hline, rest, String.append_assoc]
  · left
    intro query
    unfold requestText
    dsimp only
    rw [if_neg hunix, if_neg hhttp]

/-- The original URI stands in the request line as one inert value that decodes to it, or not at all
if the error target has a fragment. Nothing else in the request depends on it. -/
theorem customErrorRequest_eq {parse : String → Option Url} (hparse : ParsesQueries parse)
    (isIpv6 : String → Bool) (target : String) (status : ℕ) :
    (∀ uri, customErrorRequest parse isIpv6 target status uri = none) ∨
      ∃ before rest : String, ∀ uri, ∃ value : String,
        customErrorRequest parse isIpv6 target status uri =
          some ("GET " ++ (before ++ value) ++ (" HTTP/1.1\r\n" ++ rest)) ∧
        value.toList.all isInert = true ∧
        if '#' ∈ target.toList then value = "" else Api.percentDecode value.toList = some uri := by
  have hsuffix := suffix_errorPage target status
  by_cases hhash : '#' ∈ target.toList
  · have hurl : ∀ uri, customErrorUrl parse target status uri = parse (errorPage target status) :=
      fun uri => hparse.fragment _ _ hsuffix (hash_mem_errorPage_iff.mpr hhash)
        (all_isEncodedChar uri)
    unfold customErrorRequest
    simp only [hurl, if_pos hhash]
    cases parse (errorPage target status) with
    | none => exact .inl fun _ => rfl
    | some url =>
      rcases requestText_query isIpv6 url with hnone | ⟨path, rest, hsome⟩
      · exact .inl fun _ => hnone url.query
      · refine .inr ⟨path ++ url.query.elim "" ("?" ++ ·), rest, fun _ => ⟨"", ?_, rfl, rfl⟩⟩
        rw [String.append_empty]
        exact hsome url.query
  · have hurl : ∀ uri, customErrorUrl parse target status uri =
        (parse (errorPage target status)).map (extendQuery · (encodeUriComponent uri)) :=
      fun uri => hparse.extend _ _ hsuffix (mt hash_mem_errorPage_iff.mp hhash)
        (all_isEncodedChar uri)
    unfold customErrorRequest
    simp only [hurl, if_neg hhash]
    cases hpage : parse (errorPage target status) with
    | none => exact .inl fun _ => rfl
    | some url =>
      have hquery := hparse.hasQuery _ _ hpage hsuffix (mt hash_mem_errorPage_iff.mp hhash)
      obtain ⟨query, hquery⟩ := Option.ne_none_iff_exists'.mp hquery
      rcases requestText_query isIpv6 url with hnone | ⟨path, rest, hsome⟩
      · exact .inl fun _ => hnone _
      · refine .inr ⟨path ++ "?" ++ query, rest, fun uri => ?_⟩
        let value := Percent.encode (isQueryLiteral url.scheme) (Api.asBytes uri)
        have hescape : escapeQuery url.scheme (encodeUriComponent uri).toList = value := by
          rw [encodeUriComponent, String.toList_ofList, escapeQuery_encode]
        refine ⟨String.ofList value, ?_, ?_, ?_⟩
        · rw [Option.map_some, Option.bind_some, extendQuery, hsome, hquery, hescape]
          simp only [Option.map_some, Option.elim_some, String.append_assoc]
        · rw [String.toList_ofList]
          exact all_isInert_encode (fun _ h => (Bool.and_eq_true_iff.mp h).1) _
        · rw [String.toList_ofList]
          exact Api.percentDecode_encode (plain_isQueryLiteral url.scheme) uri

end ChpProxy.Errors
