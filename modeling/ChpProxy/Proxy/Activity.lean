import ChpProxy.Proxy.Routing

/-! How often a request counts as activity of its route: once for what the client sends, or for its
successful completion, and once more for what comes back to a request that asks for an upgrade. The
code looks at what the request asks for, not at what became of it. -/
namespace ChpProxy

namespace Proxy

def Effect.activity? : Effect → Option RouteKey
  | .activity key => some key
  | _ => none

def Exchange.activities (x : Exchange) : List RouteKey := x.log.filterMap Effect.activity?

/-- The request is about to be logged as a success, and did not ask for an upgrade. -/
def Exchange.Completes (x : Exchange) : Prop :=
  x.phase = .over none ∧ (∃ status, x.responseWritten = some status ∧ status < 300) ∧
    x.session.isUpgradeReq = false

namespace RequestContext

def marks (ctx : RequestContext) : ℕ :=
  ctx.requestActivityPublished.toNat + ctx.responseActivityPublished.toNat

/-- The resolved key, as often as the context has a mark. -/
def marked (ctx : RequestContext) : List RouteKey :=
  (ctx.resolvedRouteKey.map (List.replicate ctx.marks)).getD []

end RequestContext

/-- The marks of a context tell what was recorded. -/
structure Marked (request response : Prop) (x : Exchange) : Prop where
  request : x.ctx.requestActivityPublished = true ↔ request
  response : x.ctx.responseActivityPublished = true ↔ x.session.isUpgradeReq = true ∧ response
  fresh : x.phase.unrouted = true →
    x.ctx.requestActivityPublished = false ∧ x.ctx.responseActivityPublished = false
  log : x.activities = x.ctx.marked

section

variable {σ : Type} {libraries : Libraries} {options : Options} {registry : Registry σ}
  {x x' : Exchange} {event : Event} {request response : Prop}

theorem activities_record (x : Exchange) (effects : List Effect) :
    (x.record effects).activities = x.activities ++ effects.filterMap Effect.activity? :=
  List.filterMap_append ..

theorem Marked.keep (h : Marked request response x) (hsession : x'.session = x.session)
    (hkey : x'.ctx.resolvedRouteKey = x.ctx.resolvedRouteKey)
    (hrequest : x'.ctx.requestActivityPublished = x.ctx.requestActivityPublished)
    (hresponse : x'.ctx.responseActivityPublished = x.ctx.responseActivityPublished)
    (hunrouted : x'.phase.unrouted = true → x.phase.unrouted = true)
    (hlog : x'.activities = x.activities) : Marked request response x' where
  request := by rw [hrequest, h.request]
  response := by rw [hresponse, hsession, h.response]
  fresh hp := by
    rw [hrequest, hresponse]
    exact h.fresh (hunrouted hp)
  log := by
    unfold RequestContext.marked RequestContext.marks
    rw [hlog, hkey, hrequest, hresponse]
    exact h.log

theorem filterMap_countRequest (session : Session) (effects : List Effect) :
    (Exchange.countRequest session :: effects).filterMap Effect.activity? =
      effects.filterMap Effect.activity? := by
  refine List.filterMap_cons_none ?_
  unfold Exchange.countRequest
  split_ifs <;> rfl

theorem Marked.move (h : Marked request response x)
    (hm : Move libraries options registry x event x')
    (hdata : event ≠ .requestBodyFilter true ∧ event ≠ .upstreamResponseBodyFilter true)
    (hlogging : event ≠ .logging) : Marked request response x' := by
  have hquiet : ∀ effects : List Effect, effects.filterMap Effect.activity? = [] →
      (x.record effects).activities = x.activities := by
    intro effects heffects
    rw [activities_record, heffects, List.append_nil]
  cases hm with
  | accept hp => exact h.keep rfl rfl rfl rfl (fun _ => by rw [hp]; rfl) rfl
  | refuse hp | sealed hp _ =>
    exact h.keep rfl rfl rfl rfl (fun hq => by cases hq) (hquiet _ (filterMap_countRequest _ _))
  | health ctx hctx hp _ =>
    subst hctx
    exact h.keep rfl rfl rfl rfl (fun hq => by cases hq) rfl
  | undecodable ctx hctx hp _ =>
    subst hctx
    refine h.keep rfl rfl rfl rfl (fun hq => by cases hq) ?_
    rw [List.append_assoc]
    exact hquiet _ (filterMap_countRequest _ _)
  | lookup ctx path hctx hp _ _ =>
    subst hctx
    exact h.keep rfl rfl rfl rfl (fun _ => by rw [hp]; rfl)
      (hquiet _ (filterMap_countRequest _ _))
  | sealedLate path hp _ | miss path hp _ | invalidTarget path hp =>
    exact h.keep rfl rfl rfl rfl (fun hq => by cases hq) (hquiet _ rfl)
  | load path hp => exact h.keep rfl rfl rfl rfl (fun _ => by rw [hp]; rfl) rfl
  | route path matched target hp _ _ =>
    obtain ⟨hrequest, hresponse⟩ := h.fresh (by rw [hp]; rfl)
    refine ⟨h.request, h.response, (fun hq => by cases hq), ?_⟩
    have hnone : x.activities = [] := by
      rw [h.log, RequestContext.marked, RequestContext.marks, hrequest, hresponse]
      cases x.ctx.resolvedRouteKey <;> rfl
    refine (hquiet [.findTarget] rfl).trans (hnone.trans ?_)
    simp [RequestContext.marked, RequestContext.marks, hrequest, hresponse]
  | written answer failure hp => exact h.keep rfl rfl rfl rfl (fun hq => by cases hq) (hquiet _ rfl)
  | writeFailed answer failure headerWritten error hp =>
    have hunrouted : (writeFailed x answer failure headerWritten error).phase.unrouted = false := by
      cases failure <;> rfl
    cases headerWritten with
    | true =>
      exact h.keep rfl rfl rfl rfl (fun hq => by cases hunrouted.symm.trans hq) (hquiet _ rfl)
    | false => exact h.keep rfl rfl rfl rfl (fun hq => by cases hunrouted.symm.trans hq) rfl
  | internal event hp _ => exact h.keep rfl rfl rfl rfl (fun hq => by cases hq) rfl
  | unchanged event hp _ => exact h
  | unavailable event phase hp hphase _ =>
    refine h.keep rfl rfl rfl rfl (fun hq => ?_) rfl
    rcases hphase with rfl | ⟨e, rfl⟩ <;> cases hq
  | send inbound headers _ _ _ route uri hp _ _ => exact h.keep rfl rfl rfl rfl id (hquiet _ rfl)
  | respond status headers headers' counted hp hc =>
    refine h.keep rfl rfl rfl rfl id (hquiet _ ?_)
    rcases hc with rfl | rfl <;> rfl
  | writeResponse status hp => exact h.keep rfl rfl rfl rfl id rfl
  | requestData hp => exact absurd rfl hdata.1
  | responseData hp => exact absurd rfl hdata.2
  | giveUp error hp | complete hp | failSilently error hp | dropped event hp _ =>
    exact h.keep rfl rfl rfl rfl (fun hq => by cases hq) rfl
  | failAnswered error answer hp _ _ =>
    exact h.keep rfl rfl rfl rfl (fun hq => by cases hq) (hquiet _ rfl)
  | logging error hp => exact absurd rfl hlogging

theorem activities_publishClaimed (hlog : x.activities = x.ctx.marked)
    {claim : Bool × RequestContext} (hkey : claim.2.resolvedRouteKey = x.ctx.resolvedRouteKey)
    (hmarks : claim.2.marks = x.ctx.marks + claim.1.toNat) :
    (publishClaimed x claim).activities = claim.2.marked := by
  refine (activities_record x _).trans ?_
  rw [hlog, RequestContext.marked, RequestContext.marked, hmarks, hkey]
  cases hc : claim.1 with
  | false => simp
  | true =>
    cases hk : x.ctx.resolvedRouteKey with
    | none => simp [RequestContext.publishActivity, hkey, hk]
    | some key =>
      simp [RequestContext.publishActivity, hkey, hk, Effect.activity?, List.replicate_succ']

theorem marks_claimRequestActivity (ctx : RequestContext) :
    ctx.claimRequestActivity.2.marks = ctx.marks + ctx.claimRequestActivity.1.toNat := by
  unfold RequestContext.claimRequestActivity RequestContext.marks
  cases ctx.requestActivityPublished <;> simp [Nat.add_comm]

theorem Marked.claimRequest (h : Marked request response x) (hrouted : x.phase.unrouted = false)
    {occurred : Prop} (hnew : occurred) :
    Marked (request ∨ occurred) response (publishClaimed x x.ctx.claimRequestActivity) where
  request := ⟨fun _ => .inr hnew, fun _ => rfl⟩
  response := h.response
  fresh hp := by cases hrouted.symm.trans hp
  log := activities_publishClaimed h.log rfl (marks_claimRequestActivity x.ctx)

theorem publishClaimed_unclaimed (x : Exchange) : publishClaimed x (false, x.ctx) = x := by
  simp [publishClaimed, Exchange.record]

theorem Marked.claimResponse (h : Marked request response x) (hrouted : x.phase.unrouted = false)
    {occurred : Prop} (hnew : occurred) :
    Marked request (response ∨ occurred)
      (publishClaimed x (x.ctx.claimResponseActivity x.session.isUpgradeReq)) := by
  unfold RequestContext.claimResponseActivity
  split_ifs with hupgrade
  · refine ⟨h.request, ⟨fun _ => ⟨hupgrade, .inr hnew⟩, fun _ => rfl⟩,
      (fun hp => by cases hrouted.symm.trans hp), activities_publishClaimed h.log rfl ?_⟩
    unfold RequestContext.marks
    cases x.ctx.responseActivityPublished <;> rfl
  · rw [publishClaimed_unclaimed]
    refine ⟨h.request, h.response.trans ?_, h.fresh, h.log⟩
    simp [hupgrade]

/-- The logging callback counts a completed request unless it has counted already. -/
theorem Marked.logging (h : Marked request response x) {error : Option Error}
    (hp : x.phase = .over error) :
    Marked (request ∨ x.Completes) response (logging x error) := by
  have hrouted : x.phase.unrouted = false := by
    rw [hp]
    rfl
  have hclaimed : Marked (request ∨ x.Completes) response (publishClaimed x
      (x.ctx.claimHttpCompletionActivity (error.isNone && x.responseWritten.any (· < 300))
        x.session.isUpgradeReq)) := by
    have hiff : x.Completes ↔ (error.isNone && x.responseWritten.any (· < 300) &&
        !x.session.isUpgradeReq) = true := by
      unfold Exchange.Completes
      rw [hp]
      cases error <;> cases x.responseWritten <;> simp
    unfold RequestContext.claimHttpCompletionActivity
    split_ifs with hdone
    · exact h.claimRequest hrouted (hiff.mpr hdone)
    · rw [publishClaimed_unclaimed]
      refine ⟨h.request.trans ?_, h.response, h.fresh, h.log⟩
      rw [hiff]
      simp [hdone]
  exact hclaimed.keep rfl rfl rfl rfl (fun hq => by cases hq) rfl

end

end Proxy

namespace DataPlane

variable {σ ι : Type} {S : Store σ ι} {libraries : Proxy.Libraries} {options : Proxy.Options}
  {s₀ t u : DataPlane σ} {as : List (Action ι)} {a : Action ι} {r : ℕ} {x : Proxy.Exchange}

/-- The run logs request `r` as a success, and it did not ask for an upgrade. -/
def Completed (S : Store σ ι) (libraries : Proxy.Libraries) (options : Proxy.Options)
    (s₀ : DataPlane σ) (as : List (Action ι)) (r : ℕ) : Prop :=
  ∃ bs cs u x, as = bs ++ .event r .logging :: cs ∧ run S libraries options s₀ bs = some u ∧
    u.exchanges[r]? = some x ∧ x.Completes

theorem split_concat {b : Action ι} {bs cs : List (Action ι)} (h : as ++ [a] = bs ++ b :: cs) :
    a = b ∧ as = bs ∨ ∃ ds, as = bs ++ b :: ds := by
  rcases List.eq_nil_or_concat cs with rfl | ⟨ds, c, rfl⟩
  · obtain ⟨has, ha⟩ := List.append_inj' h rfl
    exact .inl ⟨(List.cons.inj ha).1, has⟩
  · rw [List.concat_eq_append, ← List.cons_append, ← List.append_assoc] at h
    exact .inr ⟨ds, (List.append_inj' h rfl).1⟩

theorem completed_concat (h : run S libraries options s₀ as = some u)
    (hx : u.exchanges[r]? = some x) :
    Completed S libraries options s₀ (as ++ [a]) r ↔
      Completed S libraries options s₀ as r ∨ a = .event r .logging ∧ x.Completes := by
  constructor
  · rintro ⟨bs, cs, v, y, heq, hv, hy, hdone⟩
    rcases split_concat heq with ⟨rfl, rfl⟩ | ⟨ds, rfl⟩
    · obtain rfl := Option.some.inj (h.symm.trans hv)
      obtain rfl := Option.some.inj (hx.symm.trans hy)
      exact .inr ⟨rfl, hdone⟩
    · exact .inl ⟨bs, ds, v, y, rfl, hv, hy, hdone⟩
  · rintro (⟨bs, cs, v, y, rfl, hv, hy, hdone⟩ | ⟨rfl, hdone⟩)
    · exact ⟨bs, cs ++ [a], v, y, by simp, hv, hy, hdone⟩
    · exact ⟨as, [], u, x, rfl, h, hx, hdone⟩

theorem completed_concat_of_ne (ha : a ≠ .event r .logging) :
    Completed S libraries options s₀ (as ++ [a]) r ↔ Completed S libraries options s₀ as r := by
  constructor
  · rintro ⟨bs, cs, v, y, heq, h⟩
    rcases split_concat heq with ⟨rfl, -⟩ | ⟨ds, rfl⟩
    · exact absurd rfl ha
    · exact ⟨bs, ds, v, y, rfl, h⟩
  · rintro ⟨bs, cs, v, y, rfl, h⟩
    exact ⟨bs, cs ++ [a], v, y, by simp, h⟩

theorem arrived_of_event (h : run S libraries options s₀ as = some t) {event : Proxy.Event}
    (he : .event r event ∈ as) : r < t.exchanges.length := by
  refine Transition.run_history
    (P := fun as u => .event r event ∈ as → r < u.exchanges.length) (fun he => by cases he) ?_ h he
  intro as u a u' _ ih hstep he
  have hlength : u.exchanges.length ≤ u'.exchanges.length := by
    cases step_cases hstep with
    | registry a registry _ => exact le_rfl
    | request session => simp
    | event r' y y' event' _ _ => simp
  rcases List.mem_append.mp he with hold | hnew
  · exact lt_of_lt_of_le (ih hold) hlength
  · obtain rfl := List.mem_singleton.mp hnew
    cases step_cases hstep with
    | event _ y y' _ hy _ =>
      rw [List.length_set]
      exact (List.getElem?_eq_some_iff.mp hy).1

/-- What counts as activity of request `r` in a run. -/
def RequestActivity (S : Store σ ι) (libraries : Proxy.Libraries) (options : Proxy.Options)
    (s₀ : DataPlane σ) (as : List (Action ι)) (r : ℕ) : Prop :=
  .event r (.requestBodyFilter true) ∈ as ∨ Completed S libraries options s₀ as r

theorem marked_run (hstart : s₀.exchanges = []) (h : run S libraries options s₀ as = some t)
    (hx : t.exchanges[r]? = some x) :
    Proxy.Marked (RequestActivity S libraries options s₀ as r)
      (.event r (.upstreamResponseBodyFilter true) ∈ as) x := by
  refine exchange_history (P := fun as x =>
    Proxy.Marked (RequestActivity S libraries options s₀ as r)
      (.event r (.upstreamResponseBodyFilter true) ∈ as) x) hstart ?_ ?_ ?_ h hx
  · intro as u session hu hlength
    have hnone : ∀ event, Action.event r event ∉ as := fun event he =>
      absurd (arrived_of_event hu he) (by omega)
    have hincomplete : ¬Completed S libraries options s₀ as r := by
      rintro ⟨bs, cs, v, y, rfl, -⟩
      exact hnone .logging (by simp)
    refine ⟨?_, ?_, fun _ => ⟨rfl, rfl⟩, rfl⟩
    · unfold RequestActivity
      rw [completed_concat_of_ne (by simp)]
      simp [hnone, hincomplete, Proxy.RequestContext.default]
    · simp [hnone, Proxy.RequestContext.default]
  · intro as u x event x' hu hx hmarked hm
    unfold RequestActivity
    rw [completed_concat hu hx]
    by_cases hlogging : event = .logging
    · subst hlogging
      cases hm with
      | logging error hp => simpa [or_assoc, RequestActivity] using hmarked.logging hp
      | internal _ _ he | unchanged _ _ he | unavailable _ _ _ _ he | dropped _ _ he => cases he
    · by_cases hrequest : event = .requestBodyFilter true
      · subst hrequest
        cases hm with
        | requestData hp =>
          have hclaimed := hmarked.claimRequest (by rw [hp]; rfl) trivial
          simpa [RequestActivity] using hclaimed
        | internal _ _ he | unchanged _ _ he | unavailable _ _ _ _ he | dropped _ _ he => cases he
      · by_cases hresponse : event = .upstreamResponseBodyFilter true
        · subst hresponse
          cases hm with
          | responseData hp =>
            have hclaimed := hmarked.claimResponse (by rw [hp]; rfl) trivial
            simpa [RequestActivity] using hclaimed
          | internal _ _ he | unchanged _ _ he | unavailable _ _ _ _ he | dropped _ _ he => cases he
        · have hkept := hmarked.move hm ⟨hrequest, hresponse⟩ hlogging
          have hne : (event = .logging) = False := eq_false hlogging
          have hne' : (.requestBodyFilter true = event) = False := eq_false (Ne.symm hrequest)
          have hne'' : (.upstreamResponseBodyFilter true = event) = False :=
            eq_false (Ne.symm hresponse)
          simpa [RequestActivity, hne, hne', hne''] using hkept
  · intro as a x ha hmarked
    unfold RequestActivity
    rw [completed_concat_of_ne (ha _)]
    have hne : ∀ event, Action.event r event ≠ a := fun event => Ne.symm (ha event)
    simpa [RequestActivity, hne] using hmarked

/-- In any order of callbacks, however often they see data and wherever the request is dropped, a
request whose route was found records activity for its key exactly once if the client sent data, or
if it does not ask for an upgrade and was completed with a status below 300, and exactly once more if
it asks for an upgrade and the upstream server sent data. Any other request records none. -/
theorem activity_recorded_exactly {registry : Registry σ}
    (h : run S libraries options ⟨registry, []⟩ as = some t) (hx : t.exchanges[r]? = some x) :
    ∃ request response : Bool,
      (request = true ↔ .event r (.requestBodyFilter true) ∈ as ∨
        Completed S libraries options ⟨registry, []⟩ as r) ∧
      (response = true ↔
        x.session.isUpgradeReq = true ∧ .event r (.upstreamResponseBodyFilter true) ∈ as) ∧
      x.activities = (x.ctx.resolvedRouteKey.map
        (List.replicate (request.toNat + response.toNat))).getD [] := by
  have hmarked := marked_run rfl h hx
  exact ⟨_, _, hmarked.request, hmarked.response, hmarked.log⟩

/-- The client sends its body in two parts, and the response is a success. -/
def uploading : List (Action DateTime) :=
  forwarding ++ [.event 0 (.requestBodyFilter true), .event 0 (.requestBodyFilter true),
    .event 0 (.writeResponse 200), .event 0 (.upstreamResponseBodyFilter true),
    .event 0 .complete, .event 0 .logging, .event 0 .drop]

theorem activity_recorded_exactly_upload : ∃ registry t x,
    (Registry.load MemoryStore.store 0 rootTable = .ok registry ∧
      run MemoryStore.store plainLibraries plainOptions ⟨registry, []⟩ uploading = some t ∧
      t.exchanges[0]? = some x ∧ x.ctx.resolvedRouteKey = some (.parse "/") ∧
      x.session.isUpgradeReq = false) ∧ x.activities = [.parse "/"] := by
  refine Exists.imp (fun registry => Exists.imp fun t => Exists.imp fun x h => ⟨h, ?_⟩)
    ⟨_, _, _, rfl, rfl, rfl, rfl, rfl⟩
  obtain ⟨-, hrun, hx, hkey, hplain⟩ := h
  obtain ⟨request, response, hrequest, hresponse, hactivities⟩ := activity_recorded_exactly hrun hx
  obtain rfl : request = true := hrequest.mpr (.inl (by simp [uploading]))
  obtain rfl : response = false := by
    rw [← Bool.not_eq_true, hresponse, hplain]
    simp
  rw [hactivities, hkey]
  rfl

end DataPlane

end ChpProxy
