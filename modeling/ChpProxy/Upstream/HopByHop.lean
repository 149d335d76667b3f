import ChpProxy.Upstream.Policy

/-! No header that ends at the proxy goes on to the upstream server: neither the hop-by-hop headers
nor what a `Connection` header names, unless the policy writes it itself. -/
namespace ChpProxy.Upstream

variable {http : Http} {inbound out : HeaderMap} {target : Target} {options : ProxyOptions}
  {origin : Option HeaderValue} {custom : List (HeaderName × HeaderValue)} {n : HeaderName}

/-- A request for a WebSocket: `value` is its first `Upgrade` header. -/
def RequestsWebsocket (http : Http) (headers : HeaderMap) (value : HeaderValue) : Prop :=
  headers.get? "upgrade" = some value ∧
    (∃ text, http.toStr value = some text ∧
      Text.eqIgnoreAsciiCase text.toList "websocket".toList = true) ∧
    ∃ token ∈ connectionTokens http headers,
      Text.eqIgnoreAsciiCase token.toList "upgrade".toList = true

/-- The values that the policy writes for a header itself. -/
inductive Writes (http : Http) (inbound : HeaderMap) (target : Target) (options : ProxyOptions) :
    HeaderName → List HeaderValue → Prop where
  | forwardedHost {host : HeaderValue} : options.xForward = true →
    inbound.get? "host" = some host → Writes http inbound target options "x-forwarded-host" [host]
  | originHost {host : HeaderValue} : options.changeOrigin = true →
    http.fromStr target.authority = some host → Writes http inbound target options "host" [host]
  | custom {name text : String} {n : HeaderName} {value : HeaderValue} :
    options.customHeaders[name]? = some text → http.fromBytes name = some n →
    http.fromStr text = some value →
    ¬NamedByToken http (customConnection http options) n →
    Writes http inbound target options n [value]

theorem isWebsocketUpgrade_iff {value : HeaderValue} (h : inbound.get? "upgrade" = some value) :
    isWebsocketUpgrade http inbound = true ↔
      (∃ text, http.toStr value = some text ∧
        Text.eqIgnoreAsciiCase text.toList "websocket".toList = true) ∧
      ∃ token ∈ connectionTokens http inbound,
        Text.eqIgnoreAsciiCase token.toList "upgrade".toList = true := by
  unfold isWebsocketUpgrade
  dsimp only
  rw [h, Option.bind_some, Bool.and_eq_true, List.any_eq_true]
  refine and_congr ?_ Iff.rfl
  cases http.toStr value with
  | none => simp
  | some text => simp

theorem requestsWebsocket_iff {value : HeaderValue} :
    (if isWebsocketUpgrade http inbound then inbound.get? "upgrade" else none) = some value ↔
      RequestsWebsocket http inbound value := by
  constructor
  · intro h
    split_ifs at h with hupgrade
    exact ⟨h, (isWebsocketUpgrade_iff h).mp hupgrade⟩
  · rintro ⟨hget, hrequest⟩
    rw [if_pos ((isWebsocketUpgrade_iff hget).mpr hrequest), hget]

theorem getAll_scrub_connection :
    (scrub http inbound origin custom options).getAll "connection" =
      (if isWebsocketUpgrade http inbound then inbound.get? "upgrade" else none).elim []
        fun _ => [http.fromStatic "upgrade"] := by
  unfold scrub
  dsimp only
  rw [getAll_elim_websocket, getAll_connection_removeHopByHop]
  rfl

theorem getAll_scrub_upgrade :
    (scrub http inbound origin custom options).getAll "upgrade" =
      (if isWebsocketUpgrade http inbound then inbound.get? "upgrade" else none).elim []
        fun value => [value] := by
  unfold scrub
  dsimp only
  rw [getAll_elim_websocket, getAll_upgrade_removeHopByHop]
  rfl

theorem getAll_scrub_hop (hn : n ∈ hopByHop) :
    (scrub http inbound origin custom options).getAll n = [] := by
  have hconn : n ≠ "connection" := by
    rintro rfl
    exact absurd hn (by decide)
  have hup : n ≠ "upgrade" := by
    rintro rfl
    exact absurd hn (by decide)
  unfold scrub
  dsimp only
  rw [getAll_elim_websocket_of_ne hconn hup]
  exact getAll_hop_removeHopByHop hn _

theorem originHost_eq_ok {host : HeaderValue}
    (h : originHost http target options = .ok (some host)) :
    options.changeOrigin = true ∧ http.fromStr target.authority = some host := by
  unfold originHost at h
  split_ifs at h with hchange
  · cases hparse : http.fromStr target.authority with
    | none => simp [hparse] at h
    | some parsed =>
      have heq : parsed = host := by simpa [hparse] using h
      exact ⟨hchange, by rw [heq]⟩
  · cases h

theorem getAll_writeHosts_of_nil {headers : HeaderMap} (hnil : headers.getAll n = [])
    (horigin : originHost http target options = .ok origin) :
    (writeHosts headers (inbound.get? "host") origin options).getAll n = [] ∨
      Writes http inbound target options n
        ((writeHosts headers (inbound.get? "host") origin options).getAll n) := by
  by_cases hhost : n = "host" ∧ origin ≠ none
  · obtain ⟨rfl, hsome⟩ := hhost
    obtain ⟨host, rfl⟩ := Option.ne_none_iff_exists'.mp hsome
    obtain ⟨hchange, hparse⟩ := originHost_eq_ok horigin
    right
    unfold writeHosts
    simp only [Option.elim_some, MultiMap.getAll_insert, if_true]
    exact .originHost hchange hparse
  · have horigin' : n ≠ "host" ∨ origin = none := by
      rwa [not_and_or, not_not] at hhost
    by_cases hfwd : n = "x-forwarded-host"
    · subst hfwd
      unfold writeHosts
      dsimp only
      rw [getAll_elim_insert (by decide)]
      split_ifs with hx
      · cases hget : inbound.get? "host" with
        | none => exact .inl hnil
        | some host =>
          right
          simp only [Option.elim_some, MultiMap.getAll_insert, if_true]
          exact .forwardedHost (Bool.and_eq_true _ _ ▸ hx).1 hget
      · exact .inl hnil
    · left
      rw [getAll_writeHosts hfwd horigin', hnil]

/-- A header that a token of the client's `Connection` names is one that the policy writes. -/
theorem getAll_scrub_of_named (hhop : n ∉ hopByHop) (hconn : n ≠ "connection")
    (hup : n ≠ "upgrade") (horigin : originHost http target options = .ok origin)
    (hcustom : customHeaders http options = .ok custom) (hnamed : NamedByToken http inbound n) :
    (scrub http inbound origin custom options).getAll n = [] ∨
      Writes http inbound target options n
        ((scrub http inbound origin custom options).getAll n) := by
  obtain ⟨websocket, hscrub⟩ := getAll_scrub_eq hhop hconn hup inbound
  rw [hscrub]
  split_ifs with hconf
  · exact .inl rfl
  · rw [MultiMap.getAll_insertAll]
    cases hlast : (custom.filter (·.1 = n)).getLast? with
    | some p =>
      obtain ⟨hp, hname⟩ := List.mem_filter.mp (List.mem_of_getLast? hlast)
      obtain rfl := of_decide_eq_true hname
      obtain ⟨name, text, hget, hparse, hvalue⟩ := customHeader_of_mem hcustom hp
      refine .inr (.custom hget hparse hvalue ?_)
      rw [customConnection, hcustom]
      exact fun h => hconf (mem_namedByConnection.mpr h)
    | none =>
      refine getAll_writeHosts_of_nil ?_ horigin
      rw [getAll_removeHopByHop hhop hconn hup, if_pos (mem_namedByConnection.mpr hnamed)]

/-- No hop-by-hop header leaves the policy. It sends `Connection` and `Upgrade` for a WebSocket
alone, nothing that the configured `Connection` header names, and of what the client's names only
what it writes itself. -/
theorem hop_by_hop_scrubbed
    (hok : applyRequestHeaders http inbound target options = .ok out) :
    (∀ n ∈ hopByHop, out.getAll n = []) ∧
    (∀ value, RequestsWebsocket http inbound value →
      out.getAll "connection" = [http.fromStatic "upgrade"] ∧ out.getAll "upgrade" = [value]) ∧
    ((∀ value, ¬RequestsWebsocket http inbound value) →
      out.getAll "connection" = [] ∧ out.getAll "upgrade" = []) ∧
    ∀ n, n ≠ "connection" → n ≠ "upgrade" →
      (NamedByToken http (customConnection http options) n → out.getAll n = []) ∧
      (NamedByToken http inbound n →
        out.getAll n = [] ∨ Writes http inbound target options n (out.getAll n)) := by
  obtain ⟨origin, custom, horigin, hcustom, rfl⟩ := applyRequestHeaders_eq_ok hok
  refine ⟨fun n hn => getAll_scrub_hop hn, fun value hvalue => ?_, fun hnone => ?_,
    fun n hconn hup => ⟨fun hnamed => ?_, fun hnamed => ?_⟩⟩
  · rw [getAll_scrub_connection, getAll_scrub_upgrade, requestsWebsocket_iff.mpr hvalue]
    exact ⟨rfl, rfl⟩
  · have hupgrade : (if isWebsocketUpgrade http inbound then inbound.get? "upgrade" else none) =
        none := by
      rw [Option.eq_none_iff_forall_ne_some]
      exact fun value h => hnone value (requestsWebsocket_iff.mp h)
    rw [getAll_scrub_connection, getAll_scrub_upgrade, hupgrade]
    exact ⟨rfl, rfl⟩
  · by_cases hhop : n ∈ hopByHop
    · exact getAll_scrub_hop hhop
    · obtain ⟨websocket, hscrub⟩ := getAll_scrub_eq hhop hconn hup inbound
      rw [customConnection, hcustom] at hnamed
      rw [hscrub, if_pos (mem_namedByConnection.mpr hnamed)]
  · by_cases hhop : n ∈ hopByHop
    · exact .inl (getAll_scrub_hop hhop)
    · exact getAll_scrub_of_named hhop hconn hup horigin hcustom hnamed

/-- A WebSocket request with two headers that end at the proxy. -/
def upgrading : HeaderMap :=
  received [("host", "a"), ("connection", "Upgrade, x-a"), ("upgrade", "websocket"), ("x-a", "b"),
    ("keep-alive", "5")]

theorem hop_by_hop_scrubbed_upgrading : ∃ out,
    applyRequestHeaders .ascii upgrading (.tcp "t" 80 "t" "/" false) defaults = .ok out ∧
    out.getAll "keep-alive" = [] ∧ out.getAll "connection" = [Http.ofText "upgrade"] ∧
    out.getAll "upgrade" = [Http.ofText "websocket"] := by
  refine Exists.imp (fun out hok => ⟨hok, ?_⟩) ⟨_, rfl⟩
  obtain ⟨hhop, hupgrade, -⟩ := hop_by_hop_scrubbed hok
  refine ⟨hhop _ (by decide), hupgrade (Http.ofText "websocket") ⟨rfl, ?_, ?_⟩⟩
  · exact ⟨"websocket", by decide, by decide⟩
  · exact ⟨"Upgrade", by decide, by decide⟩

/-- Two configured headers whose names differ in case alone. -/
def twoConnections : ProxyOptions :=
  ⟨true, false, .ofList [("Connection", "x-a"), ("connection", "close")]⟩

theorem not_isCustom_twoConnections : ¬IsCustom .ascii twoConnections "x-a" := by
  rintro ⟨name, value, hget, hparse⟩
  have hmem := Std.ExtTreeMap.mem_toList_iff_getElem?_eq_some.mpr hget
  have hlist : twoConnections.customHeaders.toList =
      [("Connection", "x-a"), ("connection", "close")] := rfl
  rw [hlist] at hmem
  rcases List.mem_pair.mp hmem with heq | heq
  · obtain ⟨rfl, rfl⟩ := Prod.mk.inj heq
    exact absurd hparse (by decide)
  · obtain ⟨rfl, rfl⟩ := Prod.mk.inj heq
    exact absurd hparse (by decide)

/-- The later of two configured `Connection` headers replaces the other, whose token then has no
effect. -/
theorem overridden_connection_ignored : ∃ out,
    applyRequestHeaders .ascii (received [("host", "a"), ("x-a", "b")])
      (.tcp "t" 80 "t" "/" false) twoConnections = .ok out ∧
    twoConnections.customHeaders["Connection"]? = some "x-a" ∧
    Http.ascii.fromBytes "Connection" = some "connection" ∧
    NamedByToken .ascii (received [("connection", "x-a")]) "x-a" ∧
    ¬IsCustom .ascii twoConnections "x-a" ∧ out.getAll "x-a" = [Http.ofText "b"] :=
  ⟨_, rfl, rfl, by decide, by decide, not_isCustom_twoConnections, by decide⟩

end ChpProxy.Upstream
