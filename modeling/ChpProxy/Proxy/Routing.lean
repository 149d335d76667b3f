import ChpProxy.Proxy.Step
import ChpProxy.Registry.Routing

/-! Where a request goes: to the target of a route that was published, with the longest matching
key, at some moment since the request arrived. -/
namespace ChpProxy

namespace Proxy

variable {σ : Type}

/-- The host that a request is routed by: what its first `Host` header has before the colon, or the
word `undefined` where there is none to be read. -/
inductive RoutedBy (http : Http) (headers : HeaderMap) : List Char → Prop
  | named {value : HeaderValue} {text : String} {host rest : List Char}
      (hvalue : (headers.getAll "host").head? = some value) (htext : http.toStr value = some text)
      (hhost : text.toList = host ++ rest) (hcolon : ':' ∉ host)
      (hrest : rest = [] ∨ rest.head? = some ':') : RoutedBy http headers host
  | undefined (h : ∀ value ∈ (headers.getAll "host").head?, http.toStr value = none) :
    RoutedBy http headers "undefined".toList

/-- The path that a request asks for: that of its URI with the escapes resolved, below the host
where the proxy routes by hosts. -/
def AsksFor (libraries : Libraries) (options : Options) (session : Session) (path : String) :
    Prop :=
  Percent.WellEscaped session.uri.path.toList ∧
  ∃ decoded, Percent.unescape session.uri.path.toList = Utf8.encode decoded ∧
    (options.hostRouting = false ∧ path.toList = decoded ∨
      options.hostRouting = true ∧ ∃ host, RoutedBy libraries.http session.headers host ∧
        path.toList = '/' :: host ++ decoded)

/-- The route has the longest key for the request in a table of the states `D`, and its target is
where the stored URL points at. -/
def Resolved (libraries : Libraries) (options : Options) (D : Registry σ → Prop) (session : Session)
    (route : UpstreamRoute) : Prop :=
  ∃ path u data url, AsksFor libraries options session path ∧
    D u ∧ u.routes.byKey[route.key]? = some data ∧ Longest u.routes.byKey path route.key ∧
    libraries.parsers.parseUrl data.target = .ok url ∧
    url.PointsAt libraries.isIpv6 route.target

/-- No key matches the request in a table of the states `D`, or the registry is sealed in one. -/
def Missed (libraries : Libraries) (options : Options) (D : Registry σ → Prop) (session : Session) :
    Prop :=
  ∃ path, AsksFor libraries options session path ∧
    ((∃ u, D u ∧ ∀ key, ¬Longest u.routes.byKey path key) ∨
      ∃ u, D u ∧ u.mutations.isIndeterminate = true)

/-- What an effect of a request rests on. -/
def Effect.Grounded (libraries : Libraries) (options : Options) (D : Registry σ → Prop)
    (x : Exchange) : Effect → Prop
  | .send target uri _ => ∃ key, x.ctx.upstreamRoute = some ⟨key, target⟩ ∧
    Upstream.buildUpstreamUri libraries.parsers ⟨key, target⟩ x.session.uri options.includePrefix
      options.prependPath = some (.ok uri)
  | .activity key => x.ctx.resolvedRouteKey = some key
  | .answer response => response.status = 404 → Missed libraries options D x.session
  | _ => True

/-- The path that is looked up, before there is a route. -/
def Phase.path? : Phase → Option String
  | .resolving path | .loading path => some path
  | _ => none

/-- The phases in which the route is not known. -/
def Phase.unrouted : Phase → Bool
  | .arrived | .admitted | .resolving _ | .loading _ => true
  | _ => false

/-- The phases in which nothing is left to look up or to answer. -/
def Phase.settled : Phase → Bool
  | .proxying | .failed _ | .over _ | .logged _ | .dropped => true
  | _ => false

/-- The effects that say nothing about a route. -/
def Effect.silent : Effect → Bool
  | .activity _ | .send _ _ _ | .answer _ => false
  | _ => true

structure Routed (libraries : Libraries) (options : Options) (D : Registry σ → Prop)
    (x : Exchange) : Prop where
  unrouted : x.phase.unrouted = true → x.ctx.upstreamRoute = none
  path : ∀ path, x.phase.path? = some path → x.ctx.originalUri = x.session.uri ∧
    AsksFor libraries options x.session path
  key : x.ctx.resolvedRouteKey = x.ctx.upstreamRoute.map (·.key)
  route : ∀ route, x.ctx.upstreamRoute = some route → x.ctx.originalUri = x.session.uri ∧
    Resolved libraries options D x.session route
  missed : x.ctx.errorClassification = some .routeMiss → Missed libraries options D x.session
  answering : ∀ answer failure, x.phase = .answering answer failure → answer.status = 404 →
    Missed libraries options D x.session
  log : ∀ e ∈ x.log, e.Grounded libraries options D x

section

variable {libraries : Libraries} {options : Options} {registry : Registry σ}
  {D D' : Registry σ → Prop} {x x' : Exchange} {event : Event} {session : Session}

theorem routedBy_routingHost (libraries : Libraries) (headers : HeaderMap) :
    RoutedBy libraries.http headers (routingHost libraries (headers.get? "host")).toList := by
  rw [Upstream.get?_eq_head?]
  unfold routingHost
  cases hvalue : (headers.getAll "host").head? with
  | none =>
    exact .undefined fun value hmem => by cases hvalue.symm.trans hmem
  | some value =>
    rw [Option.bind_some]
    cases htext : libraries.http.toStr value with
    | none =>
      refine .undefined fun value' hmem => ?_
      obtain rfl := Option.some.inj (hvalue.symm.trans hmem)
      exact htext
    | some text =>
      obtain ⟨rest, hhost, hrest, hcolon⟩ := Text.exists_cut ':' text.toList
      rw [String.toList_ofList]
      exact .named hvalue htext hhost hcolon hrest

theorem asksFor_of_lookupPath {path : String}
    (h : lookupPath libraries options session (session.headers.get? "host") = some path) :
    AsksFor libraries options session path := by
  obtain ⟨decoded, hdecoded, hpath⟩ := Option.map_eq_some_iff.mp h
  obtain ⟨hescaped, hbytes⟩ := Api.percentDecode_eq_some_iff.mp hdecoded
  refine ⟨hescaped, decoded.toList, hbytes, ?_⟩
  by_cases hrouting : options.hostRouting = true
  · rw [if_pos hrouting] at hpath
    refine .inr ⟨hrouting, _, routedBy_routingHost libraries session.headers, ?_⟩
    rw [← hpath]
    simp
  · rw [if_neg hrouting] at hpath
    exact .inl ⟨by simpa using hrouting, by rw [hpath]⟩

theorem pointsAt_of_parseTarget {text : String} {target : Target}
    (h : parseTarget libraries text = some target) :
    ∃ url, libraries.parsers.parseUrl text = .ok url ∧ url.PointsAt libraries.isIpv6 target := by
  unfold parseTarget at h
  split at h
  · cases h
  · next url hurl =>
    refine ⟨url, hurl, Target.pointsAt_of_parse ?_⟩
    cases hparse : Target.parse libraries.isIpv6 url with
    | error e =>
      rw [hparse] at h
      cases h
    | ok target' =>
      rw [hparse] at h
      obtain rfl := Option.some.inj h
      rfl

theorem Resolved.mono (hD : ∀ u, D u → D' u) {route : UpstreamRoute}
    (h : Resolved libraries options D session route) :
    Resolved libraries options D' session route := by
  obtain ⟨path, u, data, url, hpath, hu, h⟩ := h
  exact ⟨path, u, data, url, hpath, hD u hu, h⟩

theorem Missed.mono (hD : ∀ u, D u → D' u) (h : Missed libraries options D session) :
    Missed libraries options D' session := by
  obtain ⟨path, hpath, ⟨u, hu, h⟩ | ⟨u, hu, h⟩⟩ := h
  · exact ⟨path, hpath, .inl ⟨u, hD u hu, h⟩⟩
  · exact ⟨path, hpath, .inr ⟨u, hD u hu, h⟩⟩

theorem Effect.Grounded.mono (hD : ∀ u, D u → D' u) {e : Effect}
    (h : e.Grounded libraries options D x) (hsession : x'.session = x.session)
    (hroute : x'.ctx.upstreamRoute = x.ctx.upstreamRoute)
    (hkey : x'.ctx.resolvedRouteKey = x.ctx.resolvedRouteKey) :
    e.Grounded libraries options D' x' := by
  cases e with
  | send target uri headers =>
    unfold Effect.Grounded at h ⊢
    rw [hsession, hroute]
    exact h
  | activity key => exact hkey.trans h
  | answer answer => exact fun hs => hsession ▸ (h hs).mono hD
  | _ => trivial

theorem Routed.mono (hD : ∀ u, D u → D' u) (h : Routed libraries options D x) :
    Routed libraries options D' x where
  unrouted := h.unrouted
  path := h.path
  key := h.key
  route route hr := ⟨(h.route route hr).1, (h.route route hr).2.mono hD⟩
  missed hm := (h.missed hm).mono hD
  answering answer failure hp hs := (h.answering answer failure hp hs).mono hD
  log e he := (h.log e he).mono hD rfl rfl rfl

theorem Routed.keep (h : Routed libraries options D x) (hsession : x'.session = x.session)
    (hroute : x'.ctx.upstreamRoute = x.ctx.upstreamRoute)
    (hkey : x'.ctx.resolvedRouteKey = x.ctx.resolvedRouteKey)
    (huri : x'.ctx.originalUri = x.ctx.originalUri ∨ x'.ctx.originalUri = x.session.uri)
    (hunrouted : x'.phase.unrouted = true → x.phase.unrouted = true)
    (hpath : ∀ path, x'.phase.path? = some path → x'.ctx.originalUri = x.session.uri ∧
      AsksFor libraries options x.session path)
    (hmissed : x'.ctx.errorClassification = some .routeMiss →
      Missed libraries options D x.session)
    (hanswering : ∀ answer failure, x'.phase = .answering answer failure → answer.status = 404 →
      Missed libraries options D x.session)
    (hlog : ∀ e ∈ x'.log, e ∈ x.log ∨ e.Grounded libraries options D x') :
    Routed libraries options D x' where
  unrouted hp := hroute.trans (h.unrouted (hunrouted hp))
  path path hp := by
    rw [hsession]
    exact hpath path hp
  key := by rw [hkey, hroute, h.key]
  route route hr := by
    obtain ⟨horiginal, hresolved⟩ := h.route route (hroute.symm.trans hr)
    rw [hsession]
    refine ⟨?_, hresolved⟩
    rcases huri with hsame | hnew
    · exact hsame.trans horiginal
    · exact hnew
  missed hm := hsession ▸ hmissed hm
  answering answer failure hp hs := hsession ▸ hanswering answer failure hp hs
  log e he := by
    rcases hlog e he with hold | hnew
    · exact (h.log e hold).mono (fun _ hu => hu) hsession hroute hkey
    · exact hnew

theorem Routed.settle (h : Routed libraries options D x) (hsession : x'.session = x.session)
    (hroute : x'.ctx.upstreamRoute = x.ctx.upstreamRoute)
    (hkey : x'.ctx.resolvedRouteKey = x.ctx.resolvedRouteKey)
    (huri : x'.ctx.originalUri = x.ctx.originalUri ∨ x'.ctx.originalUri = x.session.uri)
    (hsettled : x'.phase.settled = true)
    (hmissed : x'.ctx.errorClassification = some .routeMiss →
      Missed libraries options D x.session)
    (hlog : ∀ e ∈ x'.log, e ∈ x.log ∨ e.Grounded libraries options D x') :
    Routed libraries options D x' := by
  cases hp : x'.phase with
  | arrived | admitted | resolving | loading | answering =>
    rw [hp] at hsettled
    cases hsettled
  | _ =>
    refine h.keep hsession hroute hkey huri (fun hq => ?_) (fun path hq => ?_) hmissed
      (fun _ _ hq => ?_) hlog
    · rw [hp] at hq
      cases hq
    · rw [hp] at hq
      cases hq
    · cases hp.symm.trans hq

@[simp] theorem silent_findTarget : Effect.findTarget.silent = true := rfl

@[simp] theorem silent_proxyRequest (status : ℕ) : (Effect.proxyRequest status).silent = true := rfl

@[simp] theorem silent_respond (status : ℕ) (headers : HeaderMap) :
    (Effect.respond status headers).silent = true := rfl

@[simp] theorem silent_countRequest (session : Session) :
    (Exchange.countRequest session).silent = true := by
  unfold Exchange.countRequest
  split_ifs <;> rfl

theorem grounded_append {effects : List Effect} (h : ∀ e ∈ effects, e.silent = true) :
    ∀ e ∈ x.log ++ effects, e ∈ x.log ∨ e.Grounded libraries options D x' := by
  intro e he
  rcases List.mem_append.mp he with hold | hnew
  · exact .inl hold
  · have hsilent := h e hnew
    right
    cases e with
    | activity | send | answer => cases hsilent
    | _ => trivial

theorem Routed.routeMiss (h : Routed libraries options D x)
    (hmissed : Missed libraries options D x.session) : Routed libraries options D (routeMiss x) :=
  h.keep rfl rfl rfl (.inl rfl) (fun hp => by cases hp) (fun path hp => by cases hp)
    (fun _ => hmissed) (fun _ _ _ _ => hmissed) (grounded_append (by simp))

theorem routeMiss_of_classify {error : Error} (h : (classify x error).status = 404) :
    x.ctx.errorClassification = some .routeMiss := by
  unfold classify at h
  cases hclass : x.ctx.errorClassification with
  | none =>
    rw [hclass] at h
    simp only [Option.getD_none] at h
    split_ifs at h <;> cases h
  | some c =>
    rw [hclass] at h
    cases c with
    | routeMiss => rfl
    | unavailableUpstream => cases h
    | internal => cases h

theorem Routed.publishClaimed (h : Routed libraries options D x) {claim : Bool × RequestContext}
    (hroute : claim.2.upstreamRoute = x.ctx.upstreamRoute)
    (hkey : claim.2.resolvedRouteKey = x.ctx.resolvedRouteKey)
    (huri : claim.2.originalUri = x.ctx.originalUri)
    (hclass : claim.2.errorClassification = x.ctx.errorClassification) :
    Routed libraries options D (publishClaimed x claim) := by
  refine h.keep rfl hroute hkey (.inl huri) id (fun path hp => ?_) (fun hm => ?_) h.answering ?_
  · exact ⟨huri.trans (h.path path hp).1, (h.path path hp).2⟩
  · exact h.missed (hclass.symm.trans hm)
  · intro e he
    rcases List.mem_append.mp he with hold | hnew
    · exact .inl hold
    · right
      split_ifs at hnew
      · obtain ⟨key, hk, rfl⟩ : ∃ key, claim.2.resolvedRouteKey = some key ∧ e = .activity key := by
          simpa [RequestContext.publishActivity, eq_comm] using hnew
        exact hk
      · cases hnew

theorem Routed.writeAnswer (h : Routed libraries options D x) {answer : Answer}
    {failure : Option Error} (hp : x.phase = .answering answer failure) :
    ∀ e ∈ (writeAnswer x answer).log, e ∈ x.log ∨ e.Grounded libraries options D x := by
  intro e he
  rcases List.mem_append.mp he with hold | hnew
  · exact .inl hold
  · obtain rfl := List.mem_singleton.mp hnew
    exact .inr (h.answering answer failure hp)

theorem Routed.writeFailed (h : Routed libraries options D x) {answer : Answer}
    {failure : Option Error} (hp : x.phase = .answering answer failure) (headerWritten : Bool)
    (error : Error) :
    Routed libraries options D (writeFailed x answer failure headerWritten error) := by
  obtain ⟨hsession, hctx, hlog⟩ : (Proxy.writeFailed x answer failure headerWritten error).session =
        x.session ∧ (Proxy.writeFailed x answer failure headerWritten error).ctx = x.ctx ∧
      ∀ e ∈ (Proxy.writeFailed x answer failure headerWritten error).log,
        e ∈ x.log ∨ e.Grounded libraries options D x := by
    cases headerWritten with
    | true => exact ⟨rfl, rfl, h.writeAnswer hp⟩
    | false => exact ⟨rfl, rfl, fun e he => .inl he⟩
  have hsettled : (Proxy.writeFailed x answer failure headerWritten error).phase.settled = true := by
    cases failure <;> rfl
  refine h.settle hsession (congrArg _ hctx) (congrArg _ hctx) (.inl (congrArg _ hctx)) hsettled
    (fun hc => ?_) fun e he => ?_
  · exact h.missed ((congrArg RequestContext.errorClassification hctx).symm.trans hc)
  · exact (hlog e he).imp_right fun hg =>
      hg.mono (fun _ hu => hu) hsession (congrArg _ hctx) (congrArg _ hctx)

theorem Routed.found (h : Routed libraries options D x) (hnone : x.ctx.upstreamRoute = none)
    (huri : x.ctx.originalUri = x.session.uri) {route : UpstreamRoute}
    (hroute : Resolved libraries options D x.session route) :
    Routed libraries options D
      { x.record [.findTarget] with
        ctx :=
          { x.ctx with resolvedRouteKey := some route.key, upstreamRoute := some route }
        phase := .proxying } := by
  refine ⟨(fun hq => by cases hq), (fun _ hq => by cases hq), rfl, fun route' hr => ?_, h.missed,
    (fun _ _ hq => by cases hq), fun e he => ?_⟩
  · obtain rfl := Option.some.inj hr
    exact ⟨huri, hroute⟩
  · rcases List.mem_append.mp he with hold | hnew
    · have hgrounded := h.log e hold
      cases e with
      | send target uri headers =>
        obtain ⟨key, hsome, -⟩ := hgrounded
        cases hnone.symm.trans hsome
      | activity key =>
        have hkey := h.key
        rw [hnone] at hkey
        cases hkey.symm.trans hgrounded
      | answer answer => exact hgrounded
      | _ => trivial
    · obtain rfl := List.mem_singleton.mp hnew
      trivial

theorem claim_rest (ctx : RequestContext) (claim : Bool × RequestContext)
    (h : claim = ctx.claimRequestActivity ∨
      (∃ websocket, claim = ctx.claimResponseActivity websocket) ∨
      ∃ successful websocket, claim = ctx.claimHttpCompletionActivity successful websocket) :
    claim.2.upstreamRoute = ctx.upstreamRoute ∧ claim.2.resolvedRouteKey = ctx.resolvedRouteKey ∧
      claim.2.originalUri = ctx.originalUri ∧
      claim.2.errorClassification = ctx.errorClassification := by
  rcases h with rfl | ⟨websocket, rfl⟩ | ⟨successful, websocket, rfl⟩
  · exact ⟨rfl, rfl, rfl, rfl⟩
  · unfold RequestContext.claimResponseActivity
    split_ifs <;> exact ⟨rfl, rfl, rfl, rfl⟩
  · unfold RequestContext.claimHttpCompletionActivity
    split_ifs <;> exact ⟨rfl, rfl, rfl, rfl⟩

/-- Every step of a request, taken over a registry whose matcher fits its routes. -/
theorem Routed.move (h : Routed libraries options D x) (hnow : D registry)
    (hbuilt : registry.snapshot.snapshot.Built)
    (hm : Move libraries options registry x event x') : Routed libraries options D x' := by
  cases hm with
  | accept hp =>
    exact h.keep rfl rfl rfl (.inl rfl) (fun _ => by rw [hp]; rfl) (fun _ hq => by cases hq)
      h.missed (fun _ _ hq => by cases hq) fun e he => .inl he
  | refuse hp | sealed hp _ =>
    refine h.keep rfl rfl rfl (.inl rfl) (fun hq => by cases hq) (fun _ hq => by cases hq) h.missed
      (fun answer failure hq hs => ?_) (grounded_append (by simp))
    cases hq
    cases hs
  | health ctx hctx hp _ =>
    subst hctx
    refine h.keep rfl rfl rfl (.inr rfl) (fun hq => by cases hq) (fun _ hq => by cases hq) h.missed
      (fun answer failure hq hs => ?_) fun e he => .inl he
    cases hq
    cases hs
  | undecodable ctx hctx hp _ =>
    subst hctx
    refine h.settle rfl rfl rfl (.inr rfl) rfl (fun hc => by cases hc) ?_
    rw [List.append_assoc]
    exact grounded_append (by simp)
  | lookup ctx path hctx hp _ hpath =>
    subst hctx
    refine h.keep rfl rfl rfl (.inr rfl) (fun _ => by rw [hp]; rfl) (fun path' hq => ?_) h.missed
      (fun _ _ hq => by cases hq) (grounded_append (by simp))
    obtain rfl := Option.some.inj hq
    exact ⟨rfl, asksFor_of_lookupPath hpath⟩
  | sealedLate path hp hi =>
    exact h.routeMiss ⟨path, (h.path path (by rw [hp]; rfl)).2, .inr ⟨registry, hnow, hi⟩⟩
  | load path hp =>
    refine h.keep rfl rfl rfl (.inl rfl) (fun _ => by rw [hp]; rfl) (fun path' hq => ?_) h.missed
      (fun _ _ hq => by cases hq) fun e he => .inl he
    obtain rfl := Option.some.inj hq
    exact h.path path (by rw [hp]; rfl)
  | miss path hp hnone =>
    exact h.routeMiss ⟨path, (h.path path (by rw [hp]; rfl)).2,
      .inl ⟨registry, hnow, hbuilt.not_longest_of_resolve hnone⟩⟩
  | invalidTarget path hp =>
    exact h.settle rfl rfl rfl (.inl rfl) rfl (fun hc => by cases hc)
      (grounded_append (by simp))
  | route path matched target hp hmatched htarget =>
    obtain ⟨hdata, hlongest⟩ := hbuilt.longest_of_resolve hmatched
    obtain ⟨huri, hpath⟩ := h.path path (by rw [hp]; rfl)
    obtain ⟨url, hurl, hpoints⟩ := pointsAt_of_parseTarget htarget
    have hresolved : Resolved libraries options D x.session ⟨matched.key, target⟩ :=
      ⟨path, registry, matched.data, url, hpath, hnow, hdata, hlongest, hurl, hpoints⟩
    exact h.found (h.unrouted (by rw [hp]; rfl)) huri hresolved
  | written answer failure hp =>
    refine h.settle rfl rfl rfl (.inl rfl) rfl h.missed fun e he => ?_
    exact (h.writeAnswer hp e he).imp_right fun hg => hg.mono (fun _ hu => hu) rfl rfl rfl
  | writeFailed answer failure headerWritten error hp => exact h.writeFailed hp headerWritten error
  | internal event hp _ =>
    exact h.settle rfl rfl rfl (.inl rfl) rfl (fun hc => by cases hc) fun e he => .inl he
  | unchanged event hp _ => exact h
  | unavailable event phase hp hphase _ =>
    have hsettled : phase.settled = true := by
      rcases hphase with rfl | ⟨e, rfl⟩ <;> rfl
    exact h.settle rfl rfl rfl (.inl rfl) hsettled (fun hc => by cases hc) fun e he => .inl he
  | send inbound headers _ _ _ route uri hp hroute huri =>
    refine h.keep rfl rfl rfl (.inl rfl) id h.path h.missed h.answering fun e he => ?_
    rcases List.mem_append.mp he with hold | hnew
    · exact .inl hold
    · obtain rfl := List.mem_singleton.mp hnew
      refine .inr ⟨route.key, hroute, ?_⟩
      rw [(h.route route hroute).1] at huri
      exact huri
  | respond status headers headers' counted hp hc =>
    refine h.keep rfl rfl rfl (.inl rfl) id h.path h.missed h.answering (grounded_append ?_)
    rcases hc with rfl | rfl <;> simp
  | writeResponse status hp =>
    exact h.keep rfl rfl rfl (.inl rfl) id h.path h.missed h.answering fun e he => .inl he
  | requestData hp =>
    obtain ⟨hroute, hkey, huri, hclass⟩ := claim_rest x.ctx _ (.inl rfl)
    exact h.publishClaimed hroute hkey huri hclass
  | responseData hp =>
    obtain ⟨hroute, hkey, huri, hclass⟩ := claim_rest x.ctx _ (.inr (.inl ⟨_, rfl⟩))
    exact h.publishClaimed hroute hkey huri hclass
  | giveUp error hp | complete hp | failSilently error hp | dropped event hp _ =>
    exact h.settle rfl rfl rfl (.inl rfl) rfl h.missed fun e he => .inl he
  | failAnswered error answer hp _ hstatus =>
    refine h.keep rfl rfl rfl (.inl rfl) (fun hq => by cases hq) (fun _ hq => by cases hq) h.missed
      (fun answer' failure hq hs => ?_) (grounded_append (by simp))
    cases hq
    rw [hstatus] at hs
    exact h.missed (routeMiss_of_classify hs)
  | logging error hp =>
    obtain ⟨hroute, hkey, huri, hclass⟩ := claim_rest x.ctx _ (.inr (.inr ⟨_, _, rfl⟩))
    have hpublished := h.publishClaimed hroute hkey huri hclass
    exact hpublished.settle rfl rfl rfl (.inl rfl) rfl hpublished.missed fun e he => .inl he

end

theorem routed_arrived (libraries : Libraries) (options : Options) (D : Registry σ → Prop)
    (session : Session) :
    Routed libraries options D ⟨session, .default, .arrived, none, []⟩ where
  unrouted _ := rfl
  path _ hq := by cases hq
  key := rfl
  route _ hr := by cases hr
  missed hc := by cases hc
  answering _ _ hq := by cases hq
  log _ he := by cases he

end Proxy

namespace DataPlane

variable {σ ι : Type} {S : Store σ ι} {libraries : Proxy.Libraries} {options : Proxy.Options}
  {s₀ t : DataPlane σ} {as : List (Action ι)}

/-- The registry is in state `u` at some moment of the run at which request `r` has arrived. -/
def Since (S : Store σ ι) (libraries : Proxy.Libraries) (options : Proxy.Options)
    (s₀ : DataPlane σ) (as : List (Action ι)) (r : ℕ) (u : Registry σ) : Prop :=
  ∃ bs cs v, as = bs ++ cs ∧ run S libraries options s₀ bs = some v ∧ r < v.exchanges.length ∧
    v.registry = u

theorem Since.longer {r : ℕ} {u : Registry σ} (h : Since S libraries options s₀ as r u)
    (bs : List (Action ι)) : Since S libraries options s₀ (as ++ bs) r u := by
  obtain ⟨cs, ds, v, rfl, hv⟩ := h
  exact ⟨cs, ds ++ bs, v, List.append_assoc .., hv⟩

/-- The registry runs as it does without requests. -/
theorem registry_run (h : run S libraries options s₀ as = some t) :
    ∃ bs, Registry.run S s₀.registry bs = some t.registry := by
  refine Transition.run_projects (f := DataPlane.registry) (fun u a u' hstep => ?_) h
  cases step_cases hstep with
  | registry a registry hr => exact .inr ⟨a, hr⟩
  | request session => exact .inl rfl
  | event r x x' event hx hm => exact .inl rfl

theorem routed_run {registry : Registry σ} {choice : ι} {store : σ}
    (hload : Registry.load S choice store = .ok registry)
    (h : run S libraries options ⟨registry, []⟩ as = some t) {r : ℕ} {x : Proxy.Exchange}
    (hx : t.exchanges[r]? = some x) :
    Proxy.Routed libraries options (Since S libraries options ⟨registry, []⟩ as r) x := by
  refine exchange_history (P := fun as x =>
    Proxy.Routed libraries options (Since S libraries options ⟨registry, []⟩ as r) x)
    rfl ?_ ?_ ?_ h hx
  · exact fun as u session _ _ => Proxy.routed_arrived libraries options _ session
  · intro as u x event x' hu hx hrouted hm
    obtain ⟨bs, hbs⟩ := registry_run hu
    have hnow : Since S libraries options ⟨registry, []⟩ as r u.registry :=
      ⟨as, [], u, (List.append_nil as).symm, hu, (List.getElem?_eq_some_iff.mp hx).1, rfl⟩
    exact (hrouted.mono fun v hv => hv.longer _).move (hnow.longer _)
      (Registry.built_run hload hbs) hm
  · exact fun as a x _ hrouted => hrouted.mono fun v hv => hv.longer _

def plainLibraries : Proxy.Libraries :=
  ⟨.ascii, Upstream.plainParsers, Upstream.plainEditors, fun _ => false, fun _ => none⟩

def plainOptions : Proxy.Options where
  xForward := true
  changeOrigin := false
  customHeaders := ∅
  autoRewrite := false
  protocolRewrite := none
  prependPath := true
  includePrefix := true
  hostRouting := false
  secure := false

/-- `GET /`, where the root has a route. -/
def rootRequest : Proxy.Session := ⟨⟨none, none, some "/", "/"⟩, .empty, false⟩

def rootTable : RouteMap := (∅ : RouteMap).insert (.parse "/") ⟨"http://base.invalid/", 0, ∅⟩

def forwarding : List (Action DateTime) :=
  [.request rootRequest, .event 0 (.tryAdmit true), .event 0 .consistencyStatus,
    .event 0 .isIndeterminate, .event 0 .loadSnapshot, .event 0 (.upstreamPeer .peer),
    .event 0 (.upstreamRequestFilter .empty none none true)]

def hostOptions : Proxy.Options := { plainOptions with hostRouting := true }

/-- `GET /%62` at the host `a`. -/
def hostedRequest : Proxy.Session :=
  ⟨⟨none, none, some "/%62", "/%62"⟩, MultiMap.empty.insert "host" (Http.ofText "a:80"), false⟩

def hostedTable : RouteMap := rootTable.insert (.parse "/a/b") ⟨"http://base.invalid/a", 0, ∅⟩

def hosted : List (Action DateTime) := .request hostedRequest :: forwarding.tail

end DataPlane

end ChpProxy
