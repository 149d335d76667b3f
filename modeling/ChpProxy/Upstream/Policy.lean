import ChpProxy.Upstream.Passes

/-! Which headers reach the upstream server: those of the client that the policy should leave
alone, and those that the proxy writes itself. -/
namespace ChpProxy

namespace Upstream

variable {http : Http} {inbound headers out : HeaderMap} {context : ForwardedContext}
  {target : Target} {options : ProxyOptions} {n : HeaderName}

/-- A header that the proxy may write to tell where a request came from. -/
def IsForwarded (n : HeaderName) : Prop := "x-forwarded-".toList <+: n.toList

instance (n : HeaderName) : Decidable (IsForwarded n) := inferInstanceAs (Decidable (_ <+: _))

def IsCustom (http : Http) (options : ProxyOptions) (n : HeaderName) : Prop :=
  ∃ name value, options.customHeaders[name]? = some value ∧ http.fromBytes name = some n

def NamedByToken (http : Http) (headers : HeaderMap) (n : HeaderName) : Prop :=
  ∃ token ∈ connectionTokens http headers, http.fromBytes token = some n

instance (headers : HeaderMap) (n : HeaderName) : Decidable (NamedByToken http headers n) :=
  inferInstanceAs (Decidable (∃ token ∈ connectionTokens http headers, _))

theorem isForwarded_of_mem {p : HeaderName × String} (hp : p ∈ forwarded context) :
    IsForwarded p.1 := by
  simp only [forwarded, List.mem_cons, List.not_mem_nil, or_false] at hp
  rcases hp with rfl | rfl | rfl
  · show IsForwarded "x-forwarded-for"
    decide
  · show IsForwarded "x-forwarded-port"
    decide
  · show IsForwarded "x-forwarded-proto"
    decide

theorem ne_of_mem_forwarded (hn : ¬IsForwarded n) {p : HeaderName × String}
    (hp : p ∈ forwarded context) : p.1 ≠ n := by
  rintro rfl
  exact hn (isForwarded_of_mem hp)

theorem getAll_passes {custom : List (HeaderName × HeaderValue)} {origin : Option HeaderValue}
    (hforward : applyForwardedHeaders http inbound context options = .ok headers)
    (hcustom : customHeaders http options = .ok custom) (hhop : n ∉ hopByHop)
    (hconn : n ≠ "connection") (hup : n ≠ "upgrade") (hfwd : n ≠ "x-forwarded-host")
    (hhost : n ≠ "host" ∨ origin = none) (hne : ¬IsCustom http options n) :
    (scrub http headers origin custom options).getAll n =
      if NamedByToken http inbound n ∨ NamedByToken http (configured custom) n then []
      else headers.getAll n := by
  have hconnection : headers.getAll "connection" = inbound.getAll "connection" :=
    getAll_applyForwardedHeaders hforward (by decide)
      fun p hp => ne_of_mem_forwarded (by decide) hp
  have hcustom' : ∀ p ∈ custom, p.1 ≠ n := by
    rintro p hp rfl
    exact hne (customHeaders_eq_ok hcustom hp)
  rw [getAll_scrub hhop hconn hup hfwd hhost hcustom', namedByConnection_congr hconnection,
    if_congr (or_congr mem_namedByConnection mem_namedByConnection) rfl rfl]
  rfl

/-- The `Connection` header among the configured ones. -/
def customConnection (http : Http) (options : ProxyOptions) : HeaderMap :=
  match customHeaders http options with
  | .ok custom => configured custom
  | .error _ => MultiMap.empty

/-- A header that the policy should leave alone reaches the upstream server with all its values if
and only if it has at most one, and no token of a configured `Connection` header names it. -/
theorem upstream_header_preserved_iff {bodyEmpty : Bool}
    (hok : upstreamRequestFilter http inbound context target options bodyEmpty = .ok out)
    (hhop : n ∉ hopByHop) (hconn : n ≠ "connection") (hup : n ≠ "upgrade")
    (htoken : ¬NamedByToken http inbound n) (hhost : n ≠ "host") (hfwd : ¬IsForwarded n)
    (hcustom : ¬IsCustom http options n) :
    out.getAll n = inbound.getAll n ↔ (inbound.getAll n).length ≤ 1 ∧
      (inbound.getAll n = [] ∨ ¬NamedByToken http (customConnection http options) n) := by
  unfold upstreamRequestFilter at hok
  split at hok
  · cases hok
  · next headers hforward =>
    split at hok
    · cases hok
    · next headers' hrequest =>
      obtain ⟨origin, custom, -, hparsed, rfl⟩ := applyRequestHeaders_eq_ok hrequest
      have hout : out.getAll n = ((scrub http headers origin custom options).getAll n).take 1 := by
        have hte : n ≠ "transfer-encoding" := by
          rintro rfl
          exact hhop (by decide)
        dsimp only at hok
        split_ifs at hok
        · rw [← Except.ok.inj hok, MultiMap.getAll_insert, if_neg hte, getAll_replaceRequestHeaders]
        · rw [← Except.ok.inj hok, getAll_replaceRequestHeaders]
      have hxhost : n ≠ "x-forwarded-host" := by
        rintro rfl
        exact hfwd (by decide)
      have hconf : customConnection http options = configured custom := by
        simp [customConnection, hparsed]
      rw [hout, getAll_passes hforward hparsed hhop hconn hup hxhost (.inl hhost) hcustom, hconf,
        getAll_applyForwardedHeaders hforward hxhost fun p hp => ne_of_mem_forwarded hfwd hp]
      by_cases hnamed : NamedByToken http (configured custom) n
      · rw [if_pos (.inr hnamed)]
        constructor
        · intro heq
          have hnil : inbound.getAll n = [] := heq.symm
          exact ⟨by rw [hnil]; decide, .inl hnil⟩
        · rintro ⟨-, hnil | hnot⟩
          · rw [hnil]
            rfl
          · exact absurd hnamed hnot
      · rw [if_neg (not_or.mpr ⟨htoken, hnamed⟩)]
        constructor
        · intro heq
          have hlen := congrArg List.length heq
          rw [List.length_take] at hlen
          exact ⟨by omega, .inr hnamed⟩
        · rintro ⟨hlen, -⟩
          exact List.take_of_length_le hlen

/-- The header lines of a request, in order. -/
def received (lines : List (HeaderName × String)) : HeaderMap :=
  MultiMap.empty.appendAll (lines.map fun p => (p.1, Http.ofText p.2))

def defaults : ProxyOptions := ⟨true, false, ∅⟩

theorem not_isCustom_defaults (http : Http) (n : HeaderName) : ¬IsCustom http defaults n := by
  rintro ⟨name, value, hvalue, -⟩
  simp [defaults] at hvalue

theorem upstream_header_preserved_once : ∃ out,
    upstreamRequestFilter .ascii (received [("host", "a"), ("accept", "b")])
      ⟨"1.2.3.4", 80, "http"⟩ (.tcp "t" 80 "t" "/" false) defaults true = .ok out ∧
    out.getAll "accept" = (received [("host", "a"), ("accept", "b")]).getAll "accept" := by
  refine Exists.imp (fun out hok => ⟨hok, ?_⟩) ⟨_, rfl⟩
  exact (upstream_header_preserved_iff hok (by decide) (by decide) (by decide) (by decide)
    (by decide) (by decide) (not_isCustom_defaults _ _)).mpr ⟨by decide, .inr (by decide)⟩

/-- Of two lines of one header the upstream server gets the first. -/
theorem upstream_repeated_header_lost : ∃ out,
    upstreamRequestFilter .ascii (received [("host", "a"), ("accept", "b"), ("accept", "c")])
      ⟨"1.2.3.4", 80, "http"⟩ (.tcp "t" 80 "t" "/" false) defaults true = .ok out ∧
    (received [("host", "a"), ("accept", "b"), ("accept", "c")]).getAll "accept" =
      [Http.ofText "b", Http.ofText "c"] ∧
    out.getAll "accept" = [Http.ofText "b"] := ⟨_, rfl, by decide, by decide⟩

/-- The last comma-separated element of a header that has one value. -/
def lastElement (headers : HeaderMap) (n : HeaderName) : Option String :=
  match headers.getAll n with
  | [value] => (Utf8.decode (Text.afterLast 0x2c value)).map String.ofList
  | _ => none

theorem lastElement_forwarded
    (hforward : applyForwardedHeaders http inbound context options = .ok headers)
    (hx : options.xForward = true) (hclient : ',' ∉ context.clientAddress.toList)
    (hprotocol : ',' ∉ context.protocol.toList) {p : HeaderName × String}
    (hp : p ∈ forwarded context) (hout : out.getAll p.1 = headers.getAll p.1) :
    lastElement out p.1 = some p.2 := by
  obtain ⟨v, hget, parts, hstr⟩ := forwarded_of_applyForwardedHeaders hforward hx hp
  have hcomma : ',' ∉ p.2.toList := by
    simp only [forwarded, List.mem_cons, List.not_mem_nil, or_false] at hp
    rcases hp with rfl | rfl | rfl
    · exact hclient
    · exact Text.not_mem_repr (by decide) _
    · exact hprotocol
  have hlast : Text.afterLast 0x2c v = Utf8.encode p.2.toList := by
    have hfree : (0x2c : UInt8) ∉ Utf8.encode p.2.toList := fun h =>
      hcomma (Utf8.mem_of_mem_encode (by decide) h)
    rw [http.fromStr_octets _ v hstr, String.toList_ofList, List.map_append]
    rcases Text.join_concat ',' (parts.map String.toList) p.2.toList with honly | ⟨before, hjoin⟩
    · rw [List.map_singleton, honly, Text.afterLast_of_not_mem hfree]
    · rw [List.map_singleton, hjoin, Utf8.encode_append, Utf8.encode_cons,
        Utf8.utf8EncodeChar_of_ascii (by decide)]
      exact (Text.afterLast_append _ _ _).trans (Text.afterLast_of_not_mem hfree)
  rw [lastElement, hout, hget]
  dsimp only
  rw [hlast, Utf8.decode_encode, Option.map_some, String.ofList_toList]

/-- The proxy's own headers and the `Host` header reach the upstream server if and only if no token
of the client's `Connection` header names one of them. -/
theorem forwarded_headers_survive_iff (hx : options.xForward = true)
    (horigin : options.changeOrigin = false)
    (hcustom : ∀ n, IsCustom http options n → n ≠ "host" ∧ n ≠ "connection" ∧ ¬IsForwarded n)
    (hclient : ',' ∉ context.clientAddress.toList) (hprotocol : ',' ∉ context.protocol.toList)
    (hforward : applyForwardedHeaders http inbound context options = .ok headers)
    (hrequest : applyRequestHeaders http headers target options = .ok out) :
    ((∀ p ∈ forwarded context, lastElement out p.1 = some p.2) ∧
      (inbound.contains "host" → out.getAll "host" = inbound.getAll "host")) ↔
    (∀ p ∈ forwarded context, ¬NamedByToken http inbound p.1) ∧
      (inbound.contains "host" → ¬NamedByToken http inbound "host") := by
  obtain ⟨origin, custom, hhost, hparsed, rfl⟩ := applyRequestHeaders_eq_ok hrequest
  obtain rfl : none = origin := by
    simp only [originHost, horigin] at hhost
    exact Except.ok.inj hhost
  -- no configured header is a Connection header, so the second scrub names nothing
  have hconf : ∀ n, ¬NamedByToken http (configured custom) n := by
    intro n hn
    have hnil : (configured custom).getAll "connection" = [] := by
      refine getAll_insertAll_of_not_mem (fun p hp he => ?_) MultiMap.empty
      exact (hcustom _ (customHeaders_eq_ok hparsed hp)).2.1 he
    exact not_mem_namedByConnection_of_nil hnil n (mem_namedByConnection.mpr hn)
  have hpass : ∀ n, n ∉ hopByHop → n ≠ "connection" → n ≠ "upgrade" → n ≠ "x-forwarded-host" →
      ¬IsCustom http options n → (scrub http headers none custom options).getAll n =
        if NamedByToken http inbound n then [] else headers.getAll n := by
    intro n hhop hconn hup hfwd hne
    rw [getAll_passes hforward hparsed hhop hconn hup hfwd (.inr rfl) hne]
    simp [hconf n]
  have hforwarded : ∀ p ∈ forwarded context, (scrub http headers none custom options).getAll p.1 =
      if NamedByToken http inbound p.1 then [] else headers.getAll p.1 := by
    intro p hp
    have hne : ¬IsCustom http options p.1 := fun hc => (hcustom _ hc).2.2 (isForwarded_of_mem hp)
    simp only [forwarded, List.mem_cons, List.not_mem_nil, or_false] at hp
    rcases hp with rfl | rfl | rfl
    · exact hpass "x-forwarded-for" (by decide) (by decide) (by decide) (by decide) hne
    · exact hpass "x-forwarded-port" (by decide) (by decide) (by decide) (by decide) hne
    · exact hpass "x-forwarded-proto" (by decide) (by decide) (by decide) (by decide) hne
  have hhostOut : (scrub http headers none custom options).getAll "host" =
      if NamedByToken http inbound "host" then [] else inbound.getAll "host" := by
    rw [hpass "host" (by decide) (by decide) (by decide) (by decide) fun hc => (hcustom _ hc).1 rfl,
      getAll_applyForwardedHeaders hforward (by decide)
        fun p hp => ne_of_mem_forwarded (by decide) hp]
  constructor
  · rintro ⟨hlast, hkept⟩
    refine ⟨fun p hp hnamed => ?_, fun hhas hnamed => ?_⟩
    · have hp' := hlast p hp
      rw [lastElement, hforwarded p hp, if_pos hnamed] at hp'
      cases hp'
    · have hnil := hkept hhas
      rw [hhostOut, if_pos hnamed] at hnil
      rw [MultiMap.contains_eq, ← hnil] at hhas
      cases hhas
  · rintro ⟨hfree, hhostFree⟩
    refine ⟨fun p hp => ?_, fun hhas => ?_⟩
    · refine lastElement_forwarded hforward hx hclient hprotocol hp ?_
      rw [hforwarded p hp, if_neg (hfree p hp)]
    · rw [hhostOut, if_neg (hhostFree hhas)]

theorem forwarded_headers_survive_close : ∃ headers out,
    (applyForwardedHeaders .ascii (received [("host", "a"), ("connection", "close")])
      ⟨"1.2.3.4", 80, "http"⟩ defaults = .ok headers ∧
    applyRequestHeaders .ascii headers (.tcp "t" 80 "t" "/" false) defaults = .ok out) ∧
    lastElement out "x-forwarded-for" = some "1.2.3.4" := by
  refine Exists.imp (fun headers => Exists.imp fun out h => ⟨h, ?_⟩) ⟨_, _, rfl, rfl⟩
  have hsurvive := (forwarded_headers_survive_iff rfl rfl
    (fun n hn => absurd hn (not_isCustom_defaults _ n)) (by decide) (by decide) h.1 h.2).mpr
      ⟨by decide, by decide⟩
  exact hsurvive.1 ("x-forwarded-for", "1.2.3.4") (by decide)

/-- A client that lists the proxy's headers in `Connection` takes them out of its own request. -/
theorem client_strips_forwarded_headers : ∃ headers out,
    applyForwardedHeaders .ascii
      (received [("host", "a"), ("connection", "x-forwarded-for, host")])
      ⟨"1.2.3.4", 80, "http"⟩ defaults = .ok headers ∧
    applyRequestHeaders .ascii headers (.tcp "t" 80 "t" "/" false) defaults = .ok out ∧
    headers.getAll "x-forwarded-for" = [Http.ofText "1.2.3.4"] ∧
    out.getAll "x-forwarded-for" = [] ∧ out.getAll "host" = [] :=
  ⟨_, _, rfl, rfl, by decide, by decide, by decide⟩

end Upstream

end ChpProxy
