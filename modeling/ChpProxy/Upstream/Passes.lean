import ChpProxy.Lib.Result
import ChpProxy.Upstream.Headers

/-! What each header pass leaves of a header. A header is lost only if a token of `Connection` names
it, and the forwarded headers end with what the proxy saw. -/
namespace ChpProxy.Upstream

variable {http : Http} {headers headers' : HeaderMap} {n : HeaderName} {websocket : Bool}

theorem namedByConnection_congr
    (h : headers.getAll "connection" = headers'.getAll "connection") (websocket : Bool) :
    namedByConnection http headers websocket = namedByConnection http headers' websocket := by
  unfold namedByConnection connectionTokens
  rw [h]

theorem mem_namedByConnection :
    n ∈ namedByConnection http headers false ↔
      ∃ token ∈ connectionTokens http headers, http.fromBytes token = some n := by
  simp [namedByConnection]

/-- Sparing the token of a WebSocket upgrade spares the `Upgrade` header alone. -/
theorem mem_namedByConnection_of_ne (hn : n ≠ "upgrade") (websocket : Bool) :
    n ∈ namedByConnection http headers websocket ↔ n ∈ namedByConnection http headers false := by
  cases websocket with
  | false => rfl
  | true =>
    rw [mem_namedByConnection]
    simp only [namedByConnection, List.mem_filterMap, List.mem_filter]
    constructor
    · rintro ⟨token, ⟨htoken, -⟩, hparse⟩
      exact ⟨token, htoken, hparse⟩
    · rintro ⟨token, htoken, hparse⟩
      refine ⟨token, ⟨htoken, ?_⟩, hparse⟩
      have hlower := http.fromBytes_lower token n hparse
      cases hcase : Text.eqIgnoreAsciiCase token.toList "upgrade".toList with
      | false => rfl
      | true =>
        have heq : token.toList.map Char.toLower = "upgrade".toList.map Char.toLower := by
          simpa [Text.eqIgnoreAsciiCase] using hcase
        rw [heq] at hlower
        exact absurd (String.toList_injective hlower) hn

theorem not_mem_namedByConnection_of_nil (h : headers.getAll "connection" = []) (n : HeaderName) :
    n ∉ namedByConnection http headers false := by
  simp [namedByConnection, connectionTokens, h]

/-- The `Connection` header of an upgrade names the `Upgrade` header alone. -/
theorem not_mem_namedByConnection_of_upgrade
    (h : headers.getAll "connection" = [http.fromStatic "upgrade"]) (hn : n ≠ "upgrade") :
    n ∉ namedByConnection http headers false := by
  rw [mem_namedByConnection]
  rintro ⟨token, htoken, hparse⟩
  have hstr : http.toStr (http.fromStatic "upgrade") = some "upgrade" :=
    http.toStr_fromStatic (by decide)
  have htokens : connectionTokens http headers = ["upgrade"] := by
    simp only [connectionTokens, h, List.filterMap_cons, hstr, List.filterMap_nil]
    decide
  rw [htokens] at htoken
  obtain rfl := List.mem_singleton.mp htoken
  have hlower := http.fromBytes_lower _ n hparse
  exact hn (String.toList_injective hlower)

theorem getAll_removeHopByHop (hhop : n ∉ hopByHop) (hconn : n ≠ "connection")
    (hup : n ≠ "upgrade") (headers : HeaderMap) (websocket : Bool) :
    (removeHopByHop http headers websocket).getAll n =
      if n ∈ namedByConnection http headers false then [] else headers.getAll n := by
  have hpass : ((headers.removeAll (namedByConnection http headers websocket)).removeAll
      hopByHop).getAll n =
        if n ∈ namedByConnection http headers false then [] else headers.getAll n := by
    rw [MultiMap.getAll_removeAll, if_neg hhop, MultiMap.getAll_removeAll,
      if_congr (mem_namedByConnection_of_ne hup websocket) rfl rfl]
  unfold removeHopByHop
  cases websocket with
  | true =>
    simp only [if_true]
    rw [MultiMap.getAll_insert, if_neg hconn, hpass]
  | false =>
    simp only [Bool.false_eq_true, if_false]
    rw [MultiMap.getAll_remove, if_neg hup, MultiMap.getAll_remove, if_neg hconn, hpass]

theorem getAll_hop_removeHopByHop (hhop : n ∈ hopByHop) (headers : HeaderMap) :
    (removeHopByHop http headers false).getAll n = [] := by
  unfold removeHopByHop
  simp only [Bool.false_eq_true, if_false]
  rw [MultiMap.getAll_remove, MultiMap.getAll_remove, MultiMap.getAll_removeAll, if_pos hhop,
    ite_self, ite_self]

theorem getAll_connection_removeHopByHop (headers : HeaderMap) (websocket : Bool) :
    (removeHopByHop http headers websocket).getAll "connection" =
      if websocket then [http.fromStatic "upgrade"] else [] := by
  unfold removeHopByHop
  cases websocket with
  | true => simp [MultiMap.getAll_insert]
  | false => simp [MultiMap.getAll_remove]

theorem getAll_upgrade_removeHopByHop (headers : HeaderMap) :
    (removeHopByHop http headers false).getAll "upgrade" = [] := by
  simp [removeHopByHop, MultiMap.getAll_remove]

/-- The headers as configured, without any inbound header. -/
def configured (custom : List (HeaderName × HeaderValue)) : HeaderMap :=
  MultiMap.empty.insertAll custom

theorem mem_named_insertAll {base : HeaderMap} {custom : List (HeaderName × HeaderValue)}
    (hbase : base.getAll "connection" = if websocket then [http.fromStatic "upgrade"] else [])
    (hn : n ≠ "upgrade") :
    n ∈ namedByConnection http (base.insertAll custom) false ↔
      n ∈ namedByConnection http (configured custom) false := by
  have hconf := MultiMap.getAll_insertAll MultiMap.empty custom ("connection" : HeaderName)
  have hmap := MultiMap.getAll_insertAll base custom "connection"
  cases hlast : (custom.filter (·.1 = "connection")).getLast? with
  | some p =>
    rw [hlast] at hconf hmap
    rw [namedByConnection_congr (hmap.trans hconf.symm)]
    rfl
  | none =>
    rw [hlast] at hconf hmap
    have hleft : n ∉ namedByConnection http (base.insertAll custom) false := by
      cases websocket with
      | true => exact not_mem_namedByConnection_of_upgrade (hmap.trans hbase) hn
      | false => exact not_mem_namedByConnection_of_nil (hmap.trans hbase) n
    have hright : n ∉ namedByConnection http (configured custom) false :=
      not_mem_namedByConnection_of_nil hconf n
    exact iff_of_false hleft hright

theorem getAll_insertAll_of_not_mem {custom : List (HeaderName × HeaderValue)}
    (hn : ∀ p ∈ custom, p.1 ≠ n) (headers : HeaderMap) :
    (headers.insertAll custom).getAll n = headers.getAll n := by
  have hnone : custom.filter (·.1 = n) = [] := by
    rw [List.filter_eq_nil_iff]
    intro p hp
    simpa using hn p hp
  rw [MultiMap.getAll_insertAll, hnone]
  rfl

theorem getAll_elim_insert {name : HeaderName} (hn : n ≠ name) (value : Option HeaderValue)
    (headers : HeaderMap) :
    (value.elim headers (headers.insert name)).getAll n = headers.getAll n := by
  cases value with
  | none => rfl
  | some v =>
    change (headers.insert name v).getAll n = _
    rw [MultiMap.getAll_insert, if_neg hn]

theorem getAll_writeHosts {originalHost originHost : Option HeaderValue} {options : ProxyOptions}
    (hfwd : n ≠ "x-forwarded-host") (hhost : n ≠ "host" ∨ originHost = none) (headers : HeaderMap) :
    (writeHosts headers originalHost originHost options).getAll n = headers.getAll n := by
  have horigin : ∀ headers : HeaderMap,
      (originHost.elim headers (headers.insert "host")).getAll n = headers.getAll n := by
    intro headers
    rcases hhost with hne | rfl
    · exact getAll_elim_insert hne originHost headers
    · rfl
  unfold writeHosts
  dsimp only
  rw [horigin]
  split_ifs
  · exact getAll_elim_insert hfwd originalHost headers
  · rfl

theorem getAll_elim_websocket (upgrade : Option HeaderValue) (headers : HeaderMap)
    (n : HeaderName) :
    (upgrade.elim headers fun u =>
      (headers.insert "connection" (http.fromStatic "upgrade")).insert "upgrade" u).getAll n =
        upgrade.elim (headers.getAll n) fun u =>
          if n = "upgrade" then [u]
          else if n = "connection" then [http.fromStatic "upgrade"] else headers.getAll n := by
  cases upgrade with
  | none => rfl
  | some u => simp only [Option.elim_some, MultiMap.getAll_insert]

theorem getAll_elim_websocket_of_ne (hconn : n ≠ "connection") (hup : n ≠ "upgrade")
    (upgrade : Option HeaderValue) (headers : HeaderMap) :
    (upgrade.elim headers fun u =>
      (headers.insert "connection" (http.fromStatic "upgrade")).insert "upgrade" u).getAll n =
        headers.getAll n := by
  rw [getAll_elim_websocket]
  cases upgrade with
  | none => rfl
  | some u => rw [Option.elim_some, if_neg hup, if_neg hconn]

/-- The second scrub goes by the configured `Connection` header, whatever the policy wrote before
it; the `Connection` and `Upgrade` headers come after it. -/
theorem getAll_scrub_eq {originHost : Option HeaderValue} {custom : List (HeaderName × HeaderValue)}
    {options : ProxyOptions} (hhop : n ∉ hopByHop) (hconn : n ≠ "connection") (hup : n ≠ "upgrade")
    (headers : HeaderMap) : ∃ websocket, (scrub http headers originHost custom options).getAll n =
      if n ∈ namedByConnection http (configured custom) false then [] else
        ((writeHosts (removeHopByHop http headers websocket) (headers.get? "host") originHost
          options).insertAll custom).getAll n := by
  unfold scrub
  dsimp only
  generalize (if isWebsocketUpgrade http headers = true then headers.get? "upgrade" else none) =
    upgrade
  refine ⟨upgrade.isSome, ?_⟩
  have hbase : (writeHosts (removeHopByHop http headers upgrade.isSome) (headers.get? "host")
      originHost options).getAll "connection" =
        if upgrade.isSome then [http.fromStatic "upgrade"] else [] := by
    rw [getAll_writeHosts (by decide) (.inl (by decide)), getAll_connection_removeHopByHop]
  rw [getAll_elim_websocket_of_ne hconn hup, getAll_removeHopByHop hhop hconn hup,
    if_congr (mem_named_insertAll hbase hup) rfl rfl]

/-- What the whole policy leaves of a header it does not write itself. -/
theorem getAll_scrub {originHost : Option HeaderValue} {custom : List (HeaderName × HeaderValue)}
    {options : ProxyOptions} (hhop : n ∉ hopByHop) (hconn : n ≠ "connection") (hup : n ≠ "upgrade")
    (hfwd : n ≠ "x-forwarded-host") (hhost : n ≠ "host" ∨ originHost = none)
    (hcustom : ∀ p ∈ custom, p.1 ≠ n) (headers : HeaderMap) :
    (scrub http headers originHost custom options).getAll n =
      if n ∈ namedByConnection http headers false ∨
        n ∈ namedByConnection http (configured custom) false then [] else headers.getAll n := by
  obtain ⟨websocket, hscrub⟩ := getAll_scrub_eq hhop hconn hup headers
  rw [hscrub, getAll_insertAll_of_not_mem hcustom, getAll_writeHosts hfwd hhost,
    getAll_removeHopByHop hhop hconn hup]
  by_cases hin : n ∈ namedByConnection http headers false
  · simp [hin]
  · simp [hin]

theorem customHeader_of_mem {options : ProxyOptions} {custom : List (HeaderName × HeaderValue)}
    (h : customHeaders http options = .ok custom) {p : HeaderName × HeaderValue} (hp : p ∈ custom) :
    ∃ name value, options.customHeaders[name]? = some value ∧ http.fromBytes name = some p.1 ∧
      http.fromStr value = some p.2 := by
  obtain ⟨⟨name, value⟩, hmem, hparse⟩ := Result.mem_of_mapM_eq_ok h hp
  refine ⟨name, value, Std.ExtTreeMap.mem_toList_iff_getElem?_eq_some.mp hmem, ?_⟩
  unfold customHeader at hparse
  split at hparse
  · cases hparse
  · next parsedName hname =>
    split at hparse
    · cases hparse
    · next parsedValue hvalue =>
      obtain rfl := Except.ok.inj hparse
      exact ⟨hname, hvalue⟩

theorem customHeaders_eq_ok {options : ProxyOptions} {custom : List (HeaderName × HeaderValue)}
    (h : customHeaders http options = .ok custom) {p : HeaderName × HeaderValue} (hp : p ∈ custom) :
    ∃ name value, options.customHeaders[name]? = some value ∧ http.fromBytes name = some p.1 := by
  obtain ⟨name, value, hmem, hname, -⟩ := customHeader_of_mem h hp
  exact ⟨name, value, hmem, hname⟩

theorem applyRequestHeaders_eq_ok {target : Target} {options : ProxyOptions}
    (h : applyRequestHeaders http headers target options = .ok headers') :
    ∃ origin custom, originHost http target options = .ok origin ∧
      customHeaders http options = .ok custom ∧
      headers' = scrub http headers origin custom options := by
  obtain ⟨origin, horigin, h⟩ := Result.bind_eq_ok h
  obtain ⟨custom, hcustom, h⟩ := Result.bind_eq_ok h
  exact ⟨origin, custom, horigin, hcustom, (Except.ok.inj h).symm⟩

theorem forwardedValue_eq_ok {name : HeaderName} {value : String} {p : HeaderName × HeaderValue}
    (h : forwardedValue http headers name value = .ok p) :
    p.1 = name ∧ ∃ parts : List String,
      http.fromStr (String.ofList (Text.join ',' ((parts ++ [value]).map String.toList))) =
        some p.2 := by
  unfold forwardedValue at h
  split at h
  · cases h
  · next parts hparts =>
    split at h
    · cases h
    · next v hv =>
      obtain rfl := Except.ok.inj h
      exact ⟨rfl, parts, hv⟩

theorem applyForwardedHeaders_cases {context : ForwardedContext} {options : ProxyOptions}
    (h : applyForwardedHeaders http headers context options = .ok headers')
    (hx : options.xForward = true) :
    ∃ parsed host, (forwarded context).mapM (fun p => forwardedValue http headers p.1 p.2) =
      .ok parsed ∧ headers' = Option.elim host (headers.insertAll parsed)
        ((headers.insertAll parsed).insert "x-forwarded-host") := by
  unfold applyForwardedHeaders at h
  rw [hx] at h
  obtain ⟨parsed, hparsed, h⟩ := Result.bind_eq_ok h
  exact ⟨parsed, _, hparsed, (Except.ok.inj h).symm⟩

theorem getAll_applyForwardedHeaders {context : ForwardedContext} {options : ProxyOptions}
    (h : applyForwardedHeaders http headers context options = .ok headers')
    (hn : n ≠ "x-forwarded-host") (hfwd : ∀ p ∈ forwarded context, p.1 ≠ n) :
    headers'.getAll n = headers.getAll n := by
  cases hx : options.xForward with
  | false =>
    unfold applyForwardedHeaders at h
    rw [hx] at h
    rw [← Except.ok.inj h]
  | true =>
    obtain ⟨parsed, host, hparsed, rfl⟩ := applyForwardedHeaders_cases h hx
    have hne : ∀ p ∈ parsed, p.1 ≠ n := by
      intro p hp
      obtain ⟨q, hq, hvalue⟩ := Result.mem_of_mapM_eq_ok hparsed hp
      rw [(forwardedValue_eq_ok hvalue).1]
      exact hfwd q hq
    rw [getAll_elim_insert hn, getAll_insertAll_of_not_mem hne]

/-- Each forwarded header has one value, and it ends with what the proxy saw. -/
theorem forwarded_of_applyForwardedHeaders {context : ForwardedContext} {options : ProxyOptions}
    (h : applyForwardedHeaders http headers context options = .ok headers')
    (hx : options.xForward = true) {name : HeaderName} {value : String}
    (hmem : (name, value) ∈ forwarded context) :
    ∃ v, headers'.getAll name = [v] ∧ ∃ parts : List String,
      http.fromStr (String.ofList (Text.join ',' ((parts ++ [value]).map String.toList))) =
        some v := by
  obtain ⟨parsed, host, hparsed, rfl⟩ := applyForwardedHeaders_cases h hx
  have hall := Result.mapM_eq_ok hparsed
  obtain ⟨p₁, r₁, h₁, hall₁, hr₁⟩ := List.forall₂_cons_left_iff.mp hall
  obtain ⟨p₂, r₂, h₂, hall₂, hr₂⟩ := List.forall₂_cons_left_iff.mp hall₁
  obtain ⟨p₃, r₃, h₃, hall₃, hr₃⟩ := List.forall₂_cons_left_iff.mp hall₂
  have hlist : parsed = [p₁, p₂, p₃] := by
    rw [hr₁, hr₂, hr₃, List.forall₂_nil_left_iff.mp hall₃]
  obtain ⟨hn₁, hv₁⟩ := forwardedValue_eq_ok h₁
  obtain ⟨hn₂, hv₂⟩ := forwardedValue_eq_ok h₂
  obtain ⟨hn₃, hv₃⟩ := forwardedValue_eq_ok h₃
  have hget : ∀ m : HeaderName, m ≠ "x-forwarded-host" →
      (host.elim (headers.insertAll parsed)
        ((headers.insertAll parsed).insert "x-forwarded-host")).getAll m =
        (([p₁, p₂, p₃].filter (·.1 = m)).getLast?).elim (headers.getAll m) fun p => [p.2] := by
    intro m hm
    rw [getAll_elim_insert hm, MultiMap.getAll_insertAll, hlist]
  simp only [forwarded, List.mem_cons, Prod.mk.injEq, List.not_mem_nil, or_false] at hmem
  rcases hmem with ⟨rfl, rfl⟩ | ⟨rfl, rfl⟩ | ⟨rfl, rfl⟩
  · exact ⟨p₁.2, by rw [hget _ (by decide)]; simp [hn₁, hn₂, hn₃], hv₁⟩
  · exact ⟨p₂.2, by rw [hget _ (by decide)]; simp [hn₁, hn₂, hn₃], hv₂⟩
  · exact ⟨p₃.2, by rw [hget _ (by decide)]; simp [hn₁, hn₂, hn₃], hv₃⟩

/-- The request sent upstream has of every header the first value that the policy leaves. -/
theorem getAll_replaceRequestHeaders (request headers : HeaderMap) (n : HeaderName) :
    (replaceRequestHeaders request headers).getAll n = (headers.getAll n).take 1 := by
  have hempty : (request.removeAll request.keys).getAll n = [] := by
    rw [MultiMap.getAll_removeAll]
    split_ifs with hn
    · rfl
    · rw [MultiMap.getAll, (request.bucket?_eq_none_iff n).mpr hn]
      rfl
  rw [replaceRequestHeaders, MultiMap.getAll_appendAll, hempty, List.nil_append,
    MultiMap.filter_named]

end ChpProxy.Upstream
