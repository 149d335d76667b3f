import ChpProxy.Proxy.Machine

/-! What one step of a request can do. -/
namespace ChpProxy

namespace Proxy

variable {σ : Type}

/-- The events that the history of a request is later asked for. -/
def Event.tracked : Event → Bool
  | .writeResponse _ | .requestBodyFilter true | .upstreamResponseBodyFilter true | .logging => true
  | _ => false

/-- The steps of a request, by their outcome. -/
inductive Move (libraries : Libraries) (options : Options) (registry : Registry σ) (x : Exchange) :
    Event → Exchange → Prop
  | accept (hp : x.phase = .arrived) : Move libraries options registry x (.tryAdmit true)
      { x with ctx := { x.ctx with trafficAdmission := true }, phase := .admitted }
  | refuse (hp : x.phase = .arrived) :
      Move libraries options registry x (.tryAdmit false) x.unavailable
  | sealed (hp : x.phase = .admitted) (hi : registry.mutations.isIndeterminate = true) :
      Move libraries options registry x .consistencyStatus x.unavailable
  | health (ctx : RequestContext)
      (hctx : ctx = { x.ctx with
        originalUri := x.session.uri, originalHost := x.session.headers.get? "host" })
      (hp : x.phase = .admitted) (hh : originalText x.session.uri = healthPath) :
      Move libraries options registry x .consistencyStatus
        { x with ctx := ctx, phase := .answering .health none }
  | undecodable (ctx : RequestContext)
      (hctx : ctx = { x.ctx with
        originalUri := x.session.uri, originalHost := x.session.headers.get? "host" })
      (hp : x.phase = .admitted) (hh : originalText x.session.uri ≠ healthPath) :
      Move libraries options registry x .consistencyStatus
        { x with
          ctx := ctx.internalError.1
          phase := .failed ctx.internalError.2
          log := x.log ++ [Exchange.countRequest x.session] ++ [.findTarget] }
  | lookup (ctx : RequestContext) (path : String)
      (hctx : ctx = { x.ctx with
        originalUri := x.session.uri, originalHost := x.session.headers.get? "host" })
      (hp : x.phase = .admitted) (hh : originalText x.session.uri ≠ healthPath)
      (hpath : lookupPath libraries options x.session (x.session.headers.get? "host") = some path) :
      Move libraries options registry x .consistencyStatus
        { x with
          ctx := ctx
          phase := .resolving path
          log := x.log ++ [Exchange.countRequest x.session] }
  | sealedLate (path : String) (hp : x.phase = .resolving path)
      (hi : registry.mutations.isIndeterminate = true) :
      Move libraries options registry x .isIndeterminate (routeMiss x)
  | load (path : String) (hp : x.phase = .resolving path) :
      Move libraries options registry x .isIndeterminate { x with phase := .loading path }
  | miss (path : String) (hp : x.phase = .loading path)
      (hm : registry.snapshot.snapshot.resolve path = none) :
      Move libraries options registry x .loadSnapshot (routeMiss x)
  | invalidTarget (path : String) (hp : x.phase = .loading path) :
      Move libraries options registry x .loadSnapshot (x.record [.findTarget]).failInternal
  | route (path : String) (matched : RouteMatch) (target : Target) (hp : x.phase = .loading path)
      (hm : registry.snapshot.snapshot.resolve path = some matched)
      (ht : parseTarget libraries matched.data.target = some target) :
      Move libraries options registry x .loadSnapshot
        { x.record [.findTarget] with
          ctx :=
            { x.ctx with
              resolvedRouteKey := some matched.key
              upstreamRoute := some ⟨matched.key, target⟩ }
          phase := .proxying }
  | written (answer : Answer) (failure : Option Error) (hp : x.phase = .answering answer failure) :
      Move libraries options registry x .written
        { writeAnswer x answer with phase := .over failure }
  | writeFailed (answer : Answer) (failure : Option Error) (headerWritten : Bool) (error : Error)
      (hp : x.phase = .answering answer failure) :
      Move libraries options registry x (.writeFailed headerWritten error)
        (writeFailed x answer failure headerWritten error)
  | internal (event : Event) (hp : x.phase = .proxying) (he : event.tracked = false) :
      Move libraries options registry x event x.failInternal
  | unchanged (event : Event) (hp : x.phase = .proxying) (he : event.tracked = false) :
      Move libraries options registry x event x
  | unavailable (event : Event) (phase : Phase) (hp : x.phase = .proxying)
      (hphase : phase = .proxying ∨ ∃ error, phase = .failed error)
      (he : event.tracked = false) :
      Move libraries options registry x event
        { x with
          ctx := { x.ctx with errorClassification := some .unavailableUpstream }
          phase := phase }
  | send (inbound headers : HeaderMap) (clientAddress : Option String) (serverPort : Option UInt16)
      (bodyEmpty : Bool) (route : UpstreamRoute) (uri : Uri) (hp : x.phase = .proxying)
      (hroute : x.ctx.upstreamRoute = some route)
      (huri : Upstream.buildUpstreamUri libraries.parsers route x.ctx.originalUri
        options.includePrefix options.prependPath = some (.ok uri)) :
      Move libraries options registry x
        (.upstreamRequestFilter inbound clientAddress serverPort bodyEmpty)
        (x.record [.send route.target uri headers])
  | respond (status : ℕ) (headers headers' : HeaderMap) (counted : List Effect)
      (hp : x.phase = .proxying) (hc : counted = [] ∨ counted = [.proxyRequest status]) :
      Move libraries options registry x (.upstreamResponseFilter status headers)
        (x.record (.respond status headers' :: counted))
  | writeResponse (status : ℕ) (hp : x.phase = .proxying) :
      Move libraries options registry x (.writeResponse status)
        { x with responseWritten := some status }
  | requestData (hp : x.phase = .proxying) :
      Move libraries options registry x (.requestBodyFilter true)
        (publishClaimed x x.ctx.claimRequestActivity)
  | responseData (hp : x.phase = .proxying) :
      Move libraries options registry x (.upstreamResponseBodyFilter true)
        (publishClaimed x (x.ctx.claimResponseActivity x.session.isUpgradeReq))
  | giveUp (error : Error) (hp : x.phase = .proxying) :
      Move libraries options registry x (.giveUp error) { x with phase := .failed error }
  | complete (hp : x.phase = .proxying) :
      Move libraries options registry x .complete { x with phase := .over none }
  | failSilently (error : Error) (hp : x.phase = .failed error) :
      Move libraries options registry x .failToProxy { x with phase := .over (some error) }
  | failAnswered (error : Error) (answer : Answer) (hp : x.phase = .failed error)
      (hw : x.responseWritten = none) (ha : answer.status = (classify x error).status) :
      Move libraries options registry x .failToProxy
        { x.record [.proxyRequest (classify x error).status] with
          phase := .answering answer (some error) }
  | logging (error : Option Error) (hp : x.phase = .over error) :
      Move libraries options registry x .logging (logging x error)
  | dropped (event : Event) (hp : x.phase ≠ .dropped) (he : event.tracked = false) :
      Move libraries options registry x event
        { x with ctx := x.ctx.releaseTrafficAdmission, phase := .dropped }

variable {libraries : Libraries} {options : Options} {registry : Registry σ} {x x' : Exchange}
  {event : Event}

theorem move_checkConsistency (hp : x.phase = .admitted) :
    Move libraries options registry x .consistencyStatus
      (checkConsistency libraries options registry x) := by
  unfold checkConsistency
  dsimp only
  split_ifs with hi hh
  · exact .sealed hp hi
  · exact .health _ rfl hp hh
  · split
    · exact .undecodable _ rfl hp hh
    · next path hpath => exact .lookup _ path rfl hp hh hpath

theorem move_loadSnapshot {path : String} (hp : x.phase = .loading path) :
    Move libraries options registry x .loadSnapshot (loadSnapshot libraries registry x path) := by
  unfold loadSnapshot
  split
  · next hm => exact .miss path hp hm
  · next matched hm =>
    dsimp only
    split
    · exact .invalidTarget path hp
    · next target ht => exact .route path matched target hp hm ht

theorem move_upstreamPeer (hp : x.phase = .proxying) (result : PeerResult) :
    Move libraries options registry x (.upstreamPeer result) (upstreamPeer x result) := by
  unfold upstreamPeer
  split
  · exact .internal _ hp rfl
  · cases result with
    | peer => exact .unchanged _ hp rfl
    | unavailable => exact .unavailable _ _ hp (.inr ⟨_, rfl⟩) rfl
    | invalid => exact .internal _ hp rfl

theorem move_upstreamRequestFilter (hp : x.phase = .proxying) (inbound : HeaderMap)
    (clientAddress : Option String) (serverPort : Option UInt16) (bodyEmpty : Bool) :
    Move libraries options registry x
      (.upstreamRequestFilter inbound clientAddress serverPort bodyEmpty)
      (upstreamRequestFilter libraries options x inbound clientAddress serverPort bodyEmpty) := by
  unfold upstreamRequestFilter
  split
  · exact .internal _ hp rfl
  · next route hroute =>
    split
    · exact .dropped _ (by simp [hp]) rfl
    · exact .internal _ hp rfl
    · next uri huri =>
      dsimp only
      split
      · exact .internal _ hp rfl
      · exact .send _ _ _ _ _ route uri hp hroute huri

theorem move_upstreamResponseFilter (hp : x.phase = .proxying) (status : ℕ) (headers : HeaderMap) :
    Move libraries options registry x (.upstreamResponseFilter status headers)
      (upstreamResponseFilter libraries options x status headers) := by
  unfold upstreamResponseFilter
  split
  · exact .internal _ hp rfl
  · split
    · exact .internal _ hp rfl
    · refine .respond status headers _ _ hp ?_
      split_ifs
      · exact .inr rfl
      · exact .inl rfl

theorem move_failToProxy {error : Error} (hp : x.phase = .failed error) :
    Move libraries options registry x .failToProxy (failToProxy x error) := by
  unfold failToProxy
  split_ifs with hsilent hupgrade
  · exact .failSilently error hp
  all_goals
    have hnone : x.responseWritten = none := by
      cases hw : x.responseWritten with
      | none => rfl
      | some status => simp [hw] at hsilent
    exact .failAnswered error _ hp hnone rfl

/-- The step function does nothing that the relation does not name. -/
theorem stepExchange_cases (h : stepExchange libraries options registry x event = some x') :
    Move libraries options registry x event x' := by
  unfold stepExchange at h
  split at h
  · next admitted hp =>
    obtain rfl := Option.some.inj h
    cases admitted with
    | true => exact .accept hp
    | false => exact .refuse hp
  · next hp =>
    obtain rfl := Option.some.inj h
    exact move_checkConsistency hp
  · next path hp =>
    obtain rfl := Option.some.inj h
    unfold testSeal
    split_ifs with hi
    · exact .sealedLate path hp hi
    · exact .load path hp
  · next path hp =>
    obtain rfl := Option.some.inj h
    exact move_loadSnapshot hp
  · next answer failure hp =>
    obtain rfl := Option.some.inj h
    exact .written answer failure hp
  · next headerWritten error answer failure hp =>
    obtain rfl := Option.some.inj h
    exact .writeFailed answer failure headerWritten error hp
  · next result hp =>
    obtain rfl := Option.some.inj h
    exact move_upstreamPeer hp result
  · next hp =>
    obtain rfl := Option.some.inj h
    exact move_upstreamRequestFilter hp _ _ _ _
  · next hp =>
    obtain rfl := Option.some.inj h
    exact move_upstreamResponseFilter hp _ _
  · next status hp =>
    obtain rfl := Option.some.inj h
    exact .writeResponse status hp
  · next hasData hp =>
    obtain rfl := Option.some.inj h
    cases hasData with
    | true => exact .requestData hp
    | false => exact .unchanged _ hp rfl
  · next hasData hp =>
    obtain rfl := Option.some.inj h
    cases hasData with
    | true => exact .responseData hp
    | false => exact .unchanged _ hp rfl
  · next hp =>
    obtain rfl := Option.some.inj h
    unfold failToConnect
    exact .unavailable _ x.phase hp (.inl hp) rfl
  · next error hp =>
    obtain rfl := Option.some.inj h
    unfold errorWhileProxy failToConnect
    split_ifs
    · exact .unavailable _ x.phase hp (.inl hp) rfl
    · exact .unchanged _ hp rfl
  · next error hp =>
    obtain rfl := Option.some.inj h
    exact .giveUp error hp
  · next hp =>
    obtain rfl := Option.some.inj h
    exact .complete hp
  · next error hp =>
    obtain rfl := Option.some.inj h
    exact move_failToProxy hp
  · next error hp =>
    obtain rfl := Option.some.inj h
    exact .logging error hp
  · cases h
  · next hp =>
    obtain rfl := Option.some.inj h
    exact .dropped _ hp rfl
  · cases h

end Proxy

namespace DataPlane

variable {σ ι : Type}

inductive Step (S : Store σ ι) (libraries : Proxy.Libraries) (options : Proxy.Options)
    (s : DataPlane σ) : Action ι → DataPlane σ → Prop
  | registry (a : ChpProxy.Action ι) (registry : Registry σ)
      (h : Registry.step S s.registry a = some registry) :
      Step S libraries options s (.registry a) { s with registry := registry }
  | request (session : Proxy.Session) : Step S libraries options s (.request session)
      { s with exchanges := s.exchanges ++ [⟨session, .default, .arrived, none, []⟩] }
  | event (r : ℕ) (x x' : Proxy.Exchange) (event : Proxy.Event) (hx : s.exchanges[r]? = some x)
      (hm : Proxy.Move libraries options s.registry x event x') :
      Step S libraries options s (.event r event) { s with exchanges := s.exchanges.set r x' }

variable {S : Store σ ι} {libraries : Proxy.Libraries} {options : Proxy.Options}
  {s s₀ t : DataPlane σ} {a : Action ι} {as : List (Action ι)}

theorem step_cases (h : step S libraries options s a = some t) :
    Step S libraries options s a t := by
  cases a with
  | registry a =>
    obtain ⟨registry, hr, rfl⟩ := Option.map_eq_some_iff.mp h
    exact .registry a registry hr
  | request session =>
    obtain rfl := Option.some.inj h
    exact .request session
  | event r event =>
    obtain ⟨x, hx, h⟩ := Option.bind_eq_some_iff.mp h
    obtain ⟨x', hx', rfl⟩ := Option.map_eq_some_iff.mp h
    exact .event r x x' event hx (Proxy.stepExchange_cases hx')

/-- An invariant of one request and of the run so far: it holds when the request arrives, its own
steps keep it, and so does everything else. -/
theorem exchange_history {r : ℕ} {P : List (Action ι) → Proxy.Exchange → Prop}
    (hstart : s₀.exchanges = [])
    (hnew : ∀ as u session, run S libraries options s₀ as = some u → u.exchanges.length = r →
      P (as ++ [.request session]) ⟨session, .default, .arrived, none, []⟩)
    (hmove : ∀ as u x event x', run S libraries options s₀ as = some u →
      u.exchanges[r]? = some x → P as x → Proxy.Move libraries options u.registry x event x' →
      P (as ++ [.event r event]) x')
    (hother : ∀ as a x, (∀ event, a ≠ .event r event) → P as x → P (as ++ [a]) x)
    (h : run S libraries options s₀ as = some t) {x : Proxy.Exchange}
    (hx : t.exchanges[r]? = some x) : P as x := by
  refine Transition.run_history (P := fun as u => ∀ x, u.exchanges[r]? = some x → P as x)
    (fun x hx => ?_) ?_ h x hx
  · rw [hstart] at hx
    cases hx
  · intro as u a u' hu ih hstep x hx
    cases step_cases hstep with
    | registry a registry _ => exact hother as _ x (by simp) (ih x hx)
    | request session =>
      rcases Nat.lt_or_ge r u.exchanges.length with hlt | hge
      · rw [List.getElem?_append_left hlt] at hx
        exact hother as _ x (by simp) (ih x hx)
      · rw [List.getElem?_append_right hge, List.getElem?_singleton] at hx
        split_ifs at hx with hlen
        obtain rfl := Option.some.inj hx
        exact hnew as u session hu (by omega)
    | event r' y y' event hy hm =>
      by_cases hr : r' = r
      · subst hr
        have hlt : r' < u.exchanges.length := (List.getElem?_eq_some_iff.mp hy).1
        rw [List.getElem?_set_self hlt] at hx
        obtain rfl := Option.some.inj hx
        exact hmove as u y event y' hu hy (ih y hy) hm
      · rw [List.getElem?_set_ne hr] at hx
        refine hother as _ x (fun event' heq => ?_) (ih x hx)
        cases heq
        exact hr rfl

end DataPlane

end ChpProxy
