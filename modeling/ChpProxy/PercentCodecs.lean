import ChpProxy.Errors.Request
import ChpProxy.Store.Records
import ChpProxy.Store.Sidecar.Endpoint
import ChpProxy.Upstream.Uri

/-! The two encoders and the decoder of escaped texts, and what they protect: the endpoints of the
sidecar and the request for a custom error page. -/
namespace ChpProxy

open SidecarStore (encodeSegment isSegmentLiteral routePath routeSegments routeSuffixes)
open Errors (encodeUriComponent customErrorRequest isInert)

/-- The decoder inverts both encoders and refuses exactly the texts that are not well escaped or do
not stand for UTF-8. Keys are single segments without dots, endpoints are distinct, and no original
URI changes the request line around its value. -/
theorem percent_codecs_inverse_and_inert (store : SidecarStore) (base : String)
    (hjoin : SidecarStore.JoinsTo store.join base) (parse : String → Option Url)
    (hparse : Errors.ParsesQueries parse) (isIpv6 : String → Bool) :
    (∀ s : String, Api.percentDecode (encodeSegment s).toList = some s ∧
      Api.percentDecode (encodeUriComponent s).toList = some s) ∧
    (∀ s : String, Percent.Spelled isSegmentLiteral (encodeSegment s).toList) ∧
    (∀ key : RouteKey, Whatwg.isDot (encodeSegment key.asStr).toList = false ∧
      ∀ suffix ∈ routeSuffixes,
        store.routeEndpoint key suffix = .ok (base ++ routePath key suffix) ∧
        (routePath key suffix).toList.splitOn '/' = routeSegments key suffix) ∧
    (∀ key key' : RouteKey, ∀ suffix ∈ routeSuffixes, ∀ suffix' ∈ routeSuffixes,
      store.routeEndpoint key suffix = store.routeEndpoint key' suffix' →
        key = key' ∧ suffix = suffix') ∧
    (∀ s : String, (encodeUriComponent s).toList.all isInert = true) ∧
    (∀ (target : String) (status : ℕ),
      (∀ uri, customErrorRequest parse isIpv6 target status uri = none) ∨
      ∃ before rest : String, ∀ uri, ∃ value : String,
        customErrorRequest parse isIpv6 target status uri =
          some ("GET " ++ (before ++ value) ++ (" HTTP/1.1\r\n" ++ rest)) ∧
        value.toList.all isInert = true ∧
        if '#' ∈ target.toList then value = "" else Api.percentDecode value.toList = some uri) ∧
    ∀ (input : List Char) (s : String), Api.percentDecode input = some s ↔
      Percent.WellEscaped input ∧ Percent.unescape input = Utf8.encode s.toList := by
  refine ⟨?_, SidecarStore.spelled_encodeSegment, ?_, ?_, ?_,
    Errors.customErrorRequest_eq hparse isIpv6, fun _ _ => Api.percentDecode_eq_some_iff⟩
  · intro s
    exact ⟨SidecarStore.percentDecode_encodeSegment s, Errors.percentDecode_encodeUriComponent s⟩
  · intro key
    refine ⟨SidecarStore.isDot_encodeSegment key, fun suffix hsuffix => ?_⟩
    exact ⟨SidecarStore.routeEndpoint_eq hjoin key hsuffix,
      SidecarStore.splitOn_routePath key hsuffix⟩
  · intro key key' suffix hsuffix suffix' hsuffix' h
    rw [SidecarStore.routeEndpoint_eq hjoin key hsuffix,
      SidecarStore.routeEndpoint_eq hjoin key' hsuffix'] at h
    exact SidecarStore.routePath_injective hsuffix hsuffix'
      (String.append_right_inj base |>.mp (Except.ok.inj h))
  · intro s
    rw [encodeUriComponent, String.toList_ofList]
    exact Errors.all_isInert_encode (fun _ h => h) _

/-! A sidecar and an error target. -/

def sidecarBase : String := "http://sidecar:9000/"

def joiningSidecar : SidecarStore :=
  { plainSidecar with join := fun relative => some (sidecarBase ++ relative) }

def errorsOrigin : List Char := "http://errors/".toList

/-- The URL of what follows the host `errors`. -/
def errorsUrl (rest : List Char) : Url :=
  { Upstream.plainUrl "errors" (String.ofList rest) (by decide) (by decide) with
    query := (Upstream.splitQuery (rest.takeWhile (· ≠ '#'))).2.map fun query =>
      String.ofList (Errors.escapeQuery "http" query) }

def parseErrorsHost (text : String) : Option Url :=
  if errorsOrigin <+: text.toList then some (errorsUrl (text.toList.drop "http://errors".length))
  else none

theorem parseErrorsHost_eq_some {text : String} {rest : List Char}
    (h : text.toList = errorsOrigin ++ rest) :
    parseErrorsHost text = some (errorsUrl ('/' :: rest)) := by
  unfold parseErrorsHost
  rw [h, if_pos (List.prefix_append _ _)]
  rfl

theorem parseErrorsHost_append {head value : String} (hquery : '?' ∈ head.toList)
    (h : ¬errorsOrigin <+: head.toList) : parseErrorsHost (head ++ value) = none := by
  refine if_neg ?_
  intro horigin
  rw [String.toList_append] at horigin
  rcases List.prefix_or_prefix_of_prefix horigin (List.prefix_append _ _) with hbefore | hwithin
  · exact h hbefore
  · exact absurd (hwithin.subset hquery) (by decide)

theorem takeWhile_append_of_mem {p : Char → Bool} {s : List Char} {c : Char} (hc : c ∈ s)
    (hp : p c = false) (t : List Char) : (s ++ t).takeWhile p = s.takeWhile p := by
  induction s with
  | nil => cases hc
  | cons d s ih =>
    rw [List.cons_append, List.takeWhile_cons, List.takeWhile_cons]
    split_ifs with hd
    · rcases List.mem_cons.mp hc with rfl | hc
      · rw [hp] at hd
        cases hd
      · rw [ih hc]
    · rfl

theorem pathname_append {rest : List Char} (h : '?' ∈ rest) (value : List Char) :
    Whatwg.pathname (rest ++ value) = Whatwg.pathname rest := by
  unfold Whatwg.pathname Whatwg.segments
  rw [takeWhile_append_of_mem h (by decide)]

theorem escapeQuery_append (scheme : String) (s t : List Char) :
    Errors.escapeQuery scheme (s ++ t) =
      Errors.escapeQuery scheme s ++ Errors.escapeQuery scheme t := by
  unfold Errors.escapeQuery
  split_ifs
  · exact List.flatMap_append
  · rfl

theorem takeWhile_eq_self_of_not_mem {s : List Char} (h : '#' ∉ s) :
    s.takeWhile (· ≠ '#') = s := by
  rw [List.takeWhile_eq_self_iff]
  intro c hc
  rw [decide_eq_true_eq]
  rintro rfl
  exact h hc

theorem errorsUrl_query {rest path query : List Char} (hhash : '#' ∉ rest)
    (hsplit : rest = path ++ '?' :: query) (hpath : '?' ∉ path) :
    (errorsUrl rest).query = some (String.ofList (Errors.escapeQuery "http" query)) := by
  change (Upstream.splitQuery (rest.takeWhile (· ≠ '#'))).2.map _ = _
  rw [takeWhile_eq_self_of_not_mem hhash, hsplit, Upstream.splitQuery_append hpath]
  rfl

theorem errorsUrl_append {rest value : List Char} (hquery : '?' ∈ rest) :
    errorsUrl (rest ++ value) =
      { errorsUrl rest with query := (errorsUrl (rest ++ value)).query } := by
  have hpath : String.ofList (Whatwg.pathname (String.ofList (rest ++ value)).toList) =
      String.ofList (Whatwg.pathname (String.ofList rest).toList) := by
    rw [String.toList_ofList, String.toList_ofList, pathname_append hquery]
  unfold errorsUrl Upstream.plainUrl
  simp only [hpath]

theorem origin_cases {head : String} (hsuffix : "?url=".toList <:+ head.toList) :
    (∀ value, parseErrorsHost (head ++ value) = none) ∨
      ∃ rest, head.toList = errorsOrigin ++ rest ∧ '?' ∈ '/' :: rest := by
  have hquery : '?' ∈ head.toList := hsuffix.subset (by decide)
  by_cases horigin : errorsOrigin <+: head.toList
  · obtain ⟨rest, hrest⟩ := horigin
    refine .inr ⟨rest, hrest.symm, List.mem_cons_of_mem _ ?_⟩
    rw [← hrest] at hquery
    exact (List.mem_append.mp hquery).resolve_left (by decide)
  · exact .inl fun _ => parseErrorsHost_append hquery horigin

theorem hash_mem_iff {head : String} {rest : List Char} (h : head.toList = errorsOrigin ++ rest) :
    '#' ∈ head.toList ↔ '#' ∈ '/' :: rest := by
  rw [h, List.mem_append, List.mem_cons, or_iff_right (by decide), or_iff_right (by decide)]

theorem parsesQueries_parseErrorsHost : Errors.ParsesQueries parseErrorsHost where
  hasQuery head url hurl hsuffix hhash := by
    rcases origin_cases hsuffix with hnone | ⟨rest, hrest, hquery⟩
    · have hhead := hnone ""
      rw [String.append_empty, hurl] at hhead
      cases hhead
    · rw [parseErrorsHost_eq_some hrest] at hurl
      obtain ⟨path, query, hsplit, hpath⟩ := List.eq_append_cons_of_mem hquery
      rw [← Option.some.inj hurl, errorsUrl_query (mt (hash_mem_iff hrest).mpr hhash) hsplit hpath]
      exact Option.some_ne_none _
  extend head value hsuffix hhash hvalue := by
    rcases origin_cases hsuffix with hnone | ⟨rest, hrest, hquery⟩
    · have hhead := hnone ""
      rw [String.append_empty] at hhead
      rw [hnone, hhead]
      rfl
    · have happend : (head ++ value).toList = errorsOrigin ++ (rest ++ value.toList) := by
        rw [String.toList_append, hrest, List.append_assoc]
      have hhash' : '#' ∉ '/' :: rest := mt (hash_mem_iff hrest).mpr hhash
      have hhashValue : '#' ∉ ('/' :: rest) ++ value.toList := by
        rw [List.mem_append, not_or]
        refine ⟨hhash', fun hmem => ?_⟩
        exact absurd (List.all_eq_true.mp hvalue _ hmem) (by decide)
      obtain ⟨path, query, hsplit, hpath⟩ := List.eq_append_cons_of_mem hquery
      have hsplitValue : ('/' :: rest) ++ value.toList = path ++ '?' :: (query ++ value.toList) := by
        rw [hsplit, List.append_assoc, List.cons_append]
      rw [parseErrorsHost_eq_some happend, parseErrorsHost_eq_some hrest, Option.map_some,
        ← List.cons_append, errorsUrl_append hquery, errorsUrl_query hhashValue hsplitValue hpath,
        Errors.extendQuery, errorsUrl_query hhash' hsplit hpath, escapeQuery_append,
        String.ofList_append]
      rfl
  fragment head value hsuffix hhash hvalue := by
    rcases origin_cases hsuffix with hnone | ⟨rest, hrest, hquery⟩
    · have hhead := hnone ""
      rw [String.append_empty] at hhead
      rw [hnone, hhead]
    · have happend : (head ++ value).toList = errorsOrigin ++ (rest ++ value.toList) := by
        rw [String.toList_append, hrest, List.append_assoc]
      have hsame : (errorsUrl (('/' :: rest) ++ value.toList)).query =
          (errorsUrl ('/' :: rest)).query := by
        change (Upstream.splitQuery (List.takeWhile _ (('/' :: rest) ++ value.toList))).2.map _ = _
        rw [takeWhile_append_of_mem ((hash_mem_iff hrest).mp hhash) (by decide)]
        rfl
      rw [parseErrorsHost_eq_some happend, parseErrorsHost_eq_some hrest, ← List.cons_append,
        errorsUrl_append hquery, hsame]

theorem percent_codecs_inert_errors_host :
    SidecarStore.JoinsTo joiningSidecar.join sidecarBase ∧ Errors.ParsesQueries parseErrorsHost ∧
      (∀ key key' : RouteKey, ∀ suffix ∈ routeSuffixes, ∀ suffix' ∈ routeSuffixes,
        joiningSidecar.routeEndpoint key suffix = joiningSidecar.routeEndpoint key' suffix' →
          key = key' ∧ suffix = suffix') ∧
      customErrorRequest parseErrorsHost (fun _ => false) "http://errors/" 503 "/a'b c\r\nX: y" =
        some "GET /503?url=%2Fa%27b%20c%0D%0AX%3A%20y HTTP/1.1\r\nHost: errors\r\nConnection: close\r\n\r\n" := by
  have hjoin : SidecarStore.JoinsTo joiningSidecar.join sidecarBase := fun _ _ => rfl
  obtain ⟨-, -, -, hdistinct, -⟩ := percent_codecs_inverse_and_inert joiningSidecar sidecarBase hjoin
    parseErrorsHost parsesQueries_parseErrorsHost fun _ => false
  exact ⟨hjoin, parsesQueries_parseErrorsHost, hdistinct, by decide +kernel⟩

end ChpProxy
