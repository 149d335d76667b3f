import ChpProxy.Lib.Result
import ChpProxy.Lib.Whatwg
import ChpProxy.Upstream.Target

/-! The URI of an upstream request (`upstream.rs`): the rest of the request's path after the route
prefix, normalized and joined to the path of the target. -/
namespace ChpProxy

/-- What the program reads of an `http::Uri`. -/
structure Uri where
  scheme : Option String
  authority : Option String
  pathAndQuery : Option String
  path : String

structure UpstreamRoute where
  key : RouteKey
  target : Target

/-- `Url::parse` and the parser of `http::Uri`, whose errors are given by their texts. A parsed path
of the artificial host has no dot segments, and a text that begins with a slash is parsed as path
and query. -/
structure UriParsers where
  parseUrl : String → Except String Url
  parseUri : String → Except String Uri
  rooted : ∀ rest url, rest.toList.head? = some '/' →
    parseUrl ("http://base.invalid" ++ rest) = .ok url → url.path.toList.head? = some '/'
  noDots : ∀ rest url, rest.toList.head? = some '/' →
    parseUrl ("http://base.invalid" ++ rest) = .ok url → Whatwg.NoDots url.path.toList
  originForm : ∀ text uri, text.toList.head? = some '/' → parseUri text = .ok uri →
    uri.scheme = none ∧ uri.authority = none ∧
      uri.path.toList = text.toList.takeWhile fun c => c ≠ '?' && c ≠ '#'

namespace Upstream

/-- `str::get(n..)` counts octets, and gives nothing within a character. -/
def getFrom : ℕ → List Char → Option (List Char)
  | 0, text => some text
  | _ + 1, [] => none
  | n + 1, c :: text => if c.utf8Size ≤ n + 1 then getFrom (n + 1 - c.utf8Size) text else none

def utf16Count (text : List Char) : ℕ :=
  (text.map fun c => if c.toNat < 0x10000 then 1 else 2).sum

def splitQuery (value : List Char) : List Char × Option (List Char) :=
  if '?' ∈ value then
    (value.takeWhile (· ≠ '?'), some (value.dropWhile (· ≠ '?')).tail)
  else (value, none)

/-- One turn of the loop of `url_join`. Slicing at an octet within a character panics. -/
def joinSegment (joined segment : List Char) : Option (List Char) :=
  if segment = [] then some joined
  else if joined.getLast? = some '/' ∧ segment.head? = some '/' then
    (getFrom 1 segment).map (joined ++ ·)
  else if joined = [] ∨ joined.getLast? = some '/' ∨ segment.head? = some '/' then
    some (joined ++ segment)
  else some (joined ++ '/' :: segment)

def urlJoin (left right : List Char) : Option (List Char) :=
  let (leftPath, leftQuery) := splitQuery left
  let (rightPath, rightQuery) := splitQuery right
  (joinSegment [] leftPath).bind fun joined => (joinSegment joined rightPath).map fun joined =>
    let queries := ([leftQuery, rightQuery].filterMap id).filter (· ≠ [])
    if queries = [] then joined else joined ++ '?' :: Text.join '&' queries

variable (parsers : UriParsers)

def getPath (raw : List Char) : Except ProxyRequestError (List Char) :=
  if raw = [] ∨ raw.head? = some '?' then .ok raw
  else
    let absolute := if ['/', '/'].isPrefixOf raw then "http://base.invalid" ++ String.ofList raw
      else "http://base.invalid/" ++ String.ofList (raw.dropWhile (· = '/'))
    match parsers.parseUrl absolute with
    | .error message => .error (.invalidUri message)
    | .ok parsed => .ok (parsed.path.toList ++ parsed.query.elim [] ('?' :: ·.toList))

/-- The outer `none` is a panic. -/
def buildUpstreamUri (route : UpstreamRoute) (requestUri : Uri) (includePrefix prependPath : Bool) :
    Option (Except ProxyRequestError Uri) :=
  let rawRequest := (requestUri.pathAndQuery.getD requestUri.path).toList
  let rawRequestPathAndQuery := if includePrefix then rawRequest
    else (getFrom (utf16Count route.key.asStr.toList) rawRequest).getD []
  match getPath parsers rawRequestPathAndQuery with
  | .error error => some (.error error)
  | .ok requestPathAndQuery =>
    let pathAndQuery := if prependPath then urlJoin route.target.path.toList requestPathAndQuery
      else urlJoin ['/'] requestPathAndQuery
    pathAndQuery.map fun pathAndQuery =>
      (parsers.parseUri (String.ofList pathAndQuery)).mapError .invalidUri

section Join

variable {parsers}

theorem splitQuery_of_not_mem {path : List Char} (h : '?' ∉ path) : splitQuery path = (path, none) :=
  if_neg h

theorem splitQuery_append {path : List Char} (h : '?' ∉ path) (query : List Char) :
    splitQuery (path ++ '?' :: query) = (path, some query) := by
  have hall : ∀ c ∈ path, decide (c ≠ '?') = true := by
    intro c hc
    have hne : c ≠ '?' := fun heq => h (heq ▸ hc)
    simpa using hne
  unfold splitQuery
  rw [if_pos (List.mem_append_right _ List.mem_cons_self), List.takeWhile_append_of_pos hall,
    List.dropWhile_append_of_pos hall]
  simp

theorem joinSegment_nil {segment : List Char} (h : segment ≠ []) :
    joinSegment [] segment = some segment := by
  simp [joinSegment, h]

/-- A slash is one octet, so the slice after it is at the start of a character. -/
theorem getFrom_slash (text : List Char) : getFrom 1 ('/' :: text) = some text := by
  cases text with
  | nil => rfl
  | cons c text => rfl

theorem joinSegment_rooted (joined : List Char) {segment : List Char}
    (hsegment : segment = [] ∨ segment.head? = some '/') :
    ∃ rest, joinSegment joined segment = some (joined ++ rest) ∧
      (segment = rest ∨ segment = '/' :: rest) := by
  rcases hsegment with rfl | hhead
  · exact ⟨[], by simp [joinSegment], .inl rfl⟩
  · obtain ⟨rest, rfl⟩ := List.head?_eq_some_iff.mp hhead
    by_cases hslash : joined.getLast? = some '/'
    · exact ⟨rest, by simp [joinSegment, hslash, getFrom_slash], .inr rfl⟩
    · exact ⟨'/' :: rest, by simp [joinSegment, hslash], .inl rfl⟩

theorem urlJoin_eq {left right leftPath rightPath : List Char}
    {leftQuery rightQuery : Option (List Char)} (hleft : splitQuery left = (leftPath, leftQuery))
    (hright : splitQuery right = (rightPath, rightQuery)) (hne : leftPath ≠ [])
    (hrooted : rightPath = [] ∨ rightPath.head? = some '/') :
    ∃ rest suffix, urlJoin left right = some (leftPath ++ rest ++ suffix) ∧
      (rightPath = rest ∨ rightPath = '/' :: rest) ∧ (suffix = [] ∨ suffix.head? = some '?') := by
  obtain ⟨rest, hjoin, hrest⟩ := joinSegment_rooted leftPath hrooted
  unfold urlJoin
  simp only [hleft, hright, joinSegment_nil hne, Option.bind_some, hjoin, Option.map_some]
  split_ifs
  · exact ⟨rest, [], by rw [List.append_nil], hrest, .inl rfl⟩
  · exact ⟨rest, _, rfl, hrest, .inr rfl⟩

theorem splitQuery_url (url : Url) :
    ∃ query, splitQuery (url.path.toList ++ url.query.elim [] ('?' :: ·.toList)) =
      (url.path.toList, query) := by
  cases url.query with
  | none =>
    refine ⟨none, ?_⟩
    rw [Option.elim_none, List.append_nil]
    exact splitQuery_of_not_mem url.no_query.1
  | some query => exact ⟨_, splitQuery_append url.no_query.1 query.toList⟩

theorem exists_absolute (raw : List Char) :
    ∃ rest : String, rest.toList.head? = some '/' ∧
      (if ['/', '/'].isPrefixOf raw then "http://base.invalid" ++ String.ofList raw
        else "http://base.invalid/" ++ String.ofList (raw.dropWhile (· = '/'))) =
      "http://base.invalid" ++ rest := by
  split_ifs with hslashes
  · obtain ⟨rest, rfl⟩ := List.isPrefixOf_iff_prefix.mp hslashes
    exact ⟨String.ofList (['/', '/'] ++ rest), by simp, rfl⟩
  · refine ⟨"/" ++ String.ofList (raw.dropWhile (· = '/')), by simp, ?_⟩
    rw [← String.append_assoc]
    rfl

/-- What remains of a request is a rooted path without dots, or nothing, before its query. -/
theorem splitQuery_getPath {raw result : List Char} (h : getPath parsers raw = .ok result) :
    ∃ path query, splitQuery result = (path, query) ∧ (path = [] ∨ path.head? = some '/') ∧
      Whatwg.NoDots path ∧ '?' ∉ path ∧ '#' ∉ path := by
  unfold getPath at h
  by_cases hraw : raw = [] ∨ raw.head? = some '?'
  · rw [if_pos hraw] at h
    obtain rfl := Except.ok.inj h
    rcases hraw with rfl | hquery
    · exact ⟨[], none, rfl, .inl rfl, by decide, List.not_mem_nil, List.not_mem_nil⟩
    · obtain ⟨query, rfl⟩ := List.head?_eq_some_iff.mp hquery
      exact ⟨[], some query, splitQuery_append List.not_mem_nil query, .inl rfl, by decide,
        List.not_mem_nil, List.not_mem_nil⟩
  · obtain ⟨rest, hrest, habsolute⟩ := exists_absolute raw
    rw [if_neg hraw] at h
    dsimp only at h
    rw [habsolute] at h
    split at h
    · cases h
    · next parsed hparsed =>
      obtain rfl := Except.ok.inj h
      obtain ⟨query, hsplit⟩ := splitQuery_url parsed
      exact ⟨_, query, hsplit, .inr (parsers.rooted rest parsed hrest hparsed),
        parsers.noDots rest parsed hrest hparsed, parsed.no_query⟩

theorem splitQuery_targetPath (url : Url) :
    ∃ query, splitQuery (targetPath url).toList =
      ((if url.path.isEmpty then "/" else url.path).toList, query) := by
  have hnot : '?' ∉ (if url.path.isEmpty then "/" else url.path).toList := by
    split_ifs
    · decide
    · exact url.no_query.1
  unfold targetPath
  cases url.query with
  | none => exact ⟨none, by simpa using splitQuery_of_not_mem hnot⟩
  | some query =>
    refine ⟨some query.toList, ?_⟩
    simpa using splitQuery_append hnot query.toList

end Join

theorem takeWhile_path {path suffix : List Char} (hquery : '?' ∉ path) (hfragment : '#' ∉ path)
    (hsuffix : suffix = [] ∨ suffix.head? = some '?') :
    ((path ++ suffix).takeWhile fun c => c ≠ '?' && c ≠ '#') = path := by
  have hall : ∀ c ∈ path, (decide (c ≠ '?') && decide (c ≠ '#')) = true := by
    intro c hc
    have hne : c ≠ '?' ∧ c ≠ '#' := ⟨fun h => hquery (h ▸ hc), fun h => hfragment (h ▸ hc)⟩
    simp [hne]
  rw [List.takeWhile_append_of_pos hall]
  rcases hsuffix with rfl | hhead
  · simp
  · obtain ⟨rest, rfl⟩ := List.head?_eq_some_iff.mp hhead
    simp

/-- A URI in origin form below a base path, without dots after it. -/
structure Confined (base : List Char) (uri : Uri) : Prop where
  scheme : uri.scheme = none
  authority : uri.authority = none
  rooted : uri.path.toList.head? = some '/'
  below : ∃ rest, uri.path.toList = base ++ rest ∧ Whatwg.NoDots rest

theorem confined_of_join {parsers : UriParsers} {left base raw right : List Char}
    {query : Option (List Char)} (hleft : splitQuery left = (base, query))
    (hbase : base.head? = some '/') (hquery : '?' ∉ base) (hfragment : '#' ∉ base)
    (hright : getPath parsers raw = .ok right) :
    ∃ text, urlJoin left right = some text ∧
      ∀ uri, parsers.parseUri (String.ofList text) = .ok uri → Confined base uri := by
  obtain ⟨path, query', hsplit, hrooted, hdots, hquery', hfragment'⟩ := splitQuery_getPath hright
  have hne : base ≠ [] := by
    rintro rfl
    cases hbase
  obtain ⟨rest, suffix, hjoin, hrest, hsuffix⟩ := urlJoin_eq hleft hsplit hne hrooted
  have hmem : ∀ c ∈ rest, c ∈ path := by
    rcases hrest with rfl | rfl
    · exact fun c hc => hc
    · exact fun c hc => List.mem_cons_of_mem _ hc
  have hrestDots : Whatwg.NoDots rest := by
    rcases hrest with rfl | rfl
    · exact hdots
    · exact Whatwg.noDots_tail hdots
  refine ⟨_, hjoin, fun uri huri => ?_⟩
  have hhead : (String.ofList (base ++ rest ++ suffix)).toList.head? = some '/' := by
    rw [String.toList_ofList, List.append_assoc, List.head?_append, hbase, Option.some_or]
  obtain ⟨hscheme, hauthority, hpath⟩ := parsers.originForm _ uri hhead huri
  have hbelow : uri.path.toList = base ++ rest := by
    rw [hpath, String.toList_ofList]
    refine takeWhile_path ?_ ?_ hsuffix
    · exact List.not_mem_append hquery fun h => hquery' (hmem _ h)
    · exact List.not_mem_append hfragment fun h => hfragment' (hmem _ h)
  refine ⟨hscheme, hauthority, ?_, rest, hbelow, hrestDots⟩
  rw [hbelow, List.head?_append, hbase, Option.some_or]

def basePath (url : Url) : List Char := (if url.path.isEmpty then "/" else url.path).toList

/-- Building the URI of a request never panics. Whatever the request and the options, a URI that is
built is in origin form, begins with the base path and goes on without dots. -/
theorem upstream_uri_confined (parsers : UriParsers) (isIpv6 : String → Bool) (url : Url)
    (target : Target) (htarget : Target.parse isIpv6 url = .ok target) (key : RouteKey)
    (requestUri : Uri) (includePrefix prependPath : Bool) :
    ∃ result, buildUpstreamUri parsers ⟨key, target⟩ requestUri includePrefix prependPath =
        some result ∧
      ∀ uri, result = .ok uri → Confined (if prependPath then basePath url else ['/']) uri := by
  obtain ⟨hpath, hauthority⟩ := Target.parse_path htarget
  have hbase : (basePath url).head? = some '/' ∧ '?' ∉ basePath url ∧ '#' ∉ basePath url := by
    unfold basePath
    split_ifs with hempty
    · decide
    · refine ⟨(url.rooted hauthority).resolve_left fun h => hempty ?_, url.no_query⟩
      rw [h]
      rfl
  obtain ⟨query, hsplit⟩ := splitQuery_targetPath url
  unfold buildUpstreamUri
  dsimp only
  split
  · next error _ => exact ⟨_, rfl, fun uri h => nomatch h⟩
  · next right hright =>
    cases prependPath with
    | true =>
      rw [← hpath] at hsplit
      obtain ⟨text, hjoin, hconfined⟩ :=
        confined_of_join hsplit hbase.1 hbase.2.1 hbase.2.2 hright
      rw [if_pos rfl, if_pos rfl, hjoin]
      exact ⟨_, rfl, fun uri huri => hconfined uri (Result.mapError_eq_ok huri)⟩
    | false =>
      have hroot : splitQuery ['/'] = (['/'], none) := splitQuery_of_not_mem (by decide)
      obtain ⟨text, hjoin, hconfined⟩ :=
        confined_of_join hroot rfl (by decide) (by decide) hright
      rw [if_neg Bool.false_ne_true, if_neg Bool.false_ne_true, hjoin]
      exact ⟨_, rfl, fun uri huri => hconfined uri (Result.mapError_eq_ok huri)⟩

/-- A URL of a host without a port, from what follows the authority. -/
def plainUrl (host rest : String) (hslash : '/' ∉ host.toList)
    (hbracket : host.toList.head? ≠ some '[') : Url where
  scheme := "http"
  hostStr := some host
  port := none
  portOrKnownDefault := some 80
  hostAndPort := host
  path := String.ofList (Whatwg.pathname rest.toList)
  query := (splitQuery (rest.toList.takeWhile (· ≠ '#'))).2.map String.ofList
  no_slash := hslash
  bracketed inner h := by
    rw [Option.some.inj h, String.toList_ofList] at hbracket
    exact absurd rfl hbracket
  known_port := rfl
  rooted _ := .inr (by rw [String.toList_ofList]; rfl)
  no_query := by
    rw [String.toList_ofList]
    exact Whatwg.not_mem_pathname _

/-- Parsers of the URLs and of the texts that the program makes. -/
def plainParsers : UriParsers where
  parseUrl text :=
    if "http://base.invalid".toList <+: text.toList then
      .ok (plainUrl "base.invalid" (String.ofList (text.toList.drop "http://base.invalid".length))
        (by decide) (by decide))
    else .error "relative URL without a base"
  parseUri text :=
    if text.toList.head? = some '/' then
      .ok ⟨none, none, some text, String.ofList (text.toList.takeWhile fun c => c ≠ '?' && c ≠ '#')⟩
    else .error "invalid uri character"
  rooted rest url _ h := by
    split_ifs at h
    rw [← Except.ok.inj h]
    exact congrArg List.head? String.toList_ofList
  noDots rest url _ h := by
    split_ifs at h
    rw [← Except.ok.inj h]
    change Whatwg.NoDots (String.ofList (Whatwg.pathname _)).toList
    rw [String.toList_ofList]
    exact Whatwg.noDots_pathname _
  originForm text uri hhead h := by
    rw [if_pos hhead] at h
    rw [← Except.ok.inj h]
    exact ⟨rfl, rfl, String.toList_ofList⟩

def basedUrl : Url := plainUrl "127.0.0.1" "/base" (by decide) (by decide)

theorem upstream_uri_confined_climbing :
    ∃ result, buildUpstreamUri plainParsers
        ⟨.parse "/user", .tcp "127.0.0.1" 80 "127.0.0.1" "/base" false⟩
        ⟨none, none, some "/user/%2e%2e/../x", "/user/%2e%2e/../x"⟩ false true = some result ∧
      ∀ uri, result = .ok uri → Confined (basePath basedUrl) uri :=
  upstream_uri_confined plainParsers (fun _ => false) basedUrl _ rfl _ _ false true

example : buildUpstreamUri plainParsers
    ⟨.parse "/user", .tcp "127.0.0.1" 80 "127.0.0.1" "/base" false⟩
    ⟨none, none, some "/user/%2e%2e/../x?y", "/user/%2e%2e/../x"⟩ false true =
      some (.ok ⟨none, none, some "/base/x?y", "/base/x"⟩) := rfl

end Upstream

end ChpProxy
