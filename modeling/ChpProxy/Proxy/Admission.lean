import ChpProxy.Proxy.Routing
import ChpProxy.Traffic.Drain

/-! The data plane together with the lifecycle of its traffic: a request is served only while it
holds an admission, so that nothing is served once the traffic has drained. -/
namespace ChpProxy

namespace Proxy

/-- What is done only for a request that is served. -/
def Effect.serves : Effect → Bool
  | .findTarget | .activity _ | .send .. | .respond .. => true
  | _ => false

def Exchange.service (x : Exchange) : List Effect := x.log.filter Effect.serves

def Phase.serving : Phase → Bool
  | .admitted | .resolving _ | .loading _ | .proxying => true
  | _ => false

/-- The admission of a request is released for good. -/
def Phase.released : Phase → Bool
  | .logged _ | .dropped => true
  | _ => false

/-- A request without an admission is not served. -/
def Held (x : Exchange) : Prop :=
  x.ctx.trafficAdmission = true ∨
    x.phase.serving = false ∧ (x.phase.released = true ∨ x.ctx.resolvedRouteKey = none)

section

variable {σ : Type} {libraries : Libraries} {options : Options} {registry : Registry σ}
  {x x' : Exchange} {event : Event}

theorem Held.of_serving (h : Held x) (hp : x.phase.serving = true) :
    x.ctx.trafficAdmission = true := by
  rcases h with hheld | ⟨hidle, -⟩
  · exact hheld
  · cases hidle.symm.trans hp

theorem Held.keep (h : Held x) (hadmission : x'.ctx.trafficAdmission = x.ctx.trafficAdmission)
    (hkey : x'.ctx.resolvedRouteKey = x.ctx.resolvedRouteKey) (hidle : x'.phase.serving = false)
    (hreleased : x.phase.released = false) : Held x' := by
  rcases h with hheld | ⟨-, hdone | hnone⟩
  · exact .inl (hadmission.trans hheld)
  · cases hreleased.symm.trans hdone
  · exact .inr ⟨hidle, .inr (hkey.trans hnone)⟩

theorem Held.move (h : Held x) (hm : Move libraries options registry x event x') : Held x' := by
  -- From a served phase the admission is held, and every step but the last keeps it.
  have hserved : x.phase.serving = true → ∀ y : Exchange,
      y.ctx.trafficAdmission = x.ctx.trafficAdmission → Held y :=
    fun hp y hy => .inl (hy.trans (h.of_serving hp))
  cases hm with
  | accept hp => exact .inl rfl
  | refuse hp => exact h.keep rfl rfl rfl (by rw [hp]; rfl)
  | sealed hp _ => exact hserved (by rw [hp]; rfl) _ rfl
  | health ctx hctx hp _ | undecodable ctx hctx hp _ | lookup ctx path hctx hp _ _ =>
    subst hctx
    exact hserved (by rw [hp]; rfl) _ rfl
  | sealedLate path hp _ | load path hp | miss path hp _ | invalidTarget path hp
  | route path matched target hp _ _ => exact hserved (by rw [hp]; rfl) _ rfl
  | written answer failure hp => exact h.keep rfl rfl rfl (by rw [hp]; rfl)
  | writeFailed answer failure headerWritten error hp =>
    cases headerWritten with
    | true => exact h.keep rfl rfl (by cases failure <;> rfl) (by rw [hp]; rfl)
    | false => exact h.keep rfl rfl (by cases failure <;> rfl) (by rw [hp]; rfl)
  | internal event hp _ | unchanged event hp _ | unavailable event phase hp _ _
  | send inbound headers _ _ _ route uri hp _ _ | respond status headers headers' counted hp _
  | writeResponse status hp | requestData hp | giveUp error hp | complete hp =>
    exact hserved (by rw [hp]; rfl) _ rfl
  | responseData hp =>
    refine hserved (by rw [hp]; rfl) _ ?_
    unfold publishClaimed RequestContext.claimResponseActivity
    split_ifs <;> rfl
  | failSilently error hp | failAnswered error answer hp _ _ =>
    exact h.keep rfl rfl rfl (by rw [hp]; rfl)
  | logging error hp | dropped event hp _ => exact .inr ⟨rfl, .inl rfl⟩

theorem service_append {effects : List Effect} (hlog : x'.log = x.log ++ effects)
    (hquiet : effects.filter Effect.serves = []) : x'.service = x.service := by
  unfold Exchange.service
  rw [hlog, List.filter_append, hquiet, List.append_nil]

theorem serves_countRequest (session : Session) :
    (Exchange.countRequest session).serves = false := by
  unfold Exchange.countRequest
  split_ifs <;> rfl

/-- Nothing is done for a request without an admission. -/
theorem Held.service_move (h : Held x) (hnone : x.ctx.trafficAdmission = false)
    (hm : Move libraries options registry x event x') : x'.service = x.service := by
  have hserving : x.phase.serving = true → x'.service = x.service := by
    intro hp
    cases hnone.symm.trans (h.of_serving hp)
  have hnil : x.log = x.log ++ [] := (List.append_nil _).symm
  cases hm with
  | accept hp => exact service_append hnil rfl
  | refuse hp =>
    refine service_append rfl ?_
    rw [List.filter_cons_of_neg (by simp [serves_countRequest])]
    rfl
  | sealed hp _ | health _ _ hp _ | undecodable _ _ hp _ | lookup _ _ _ hp _ _
  | sealedLate _ hp _ | load _ hp | miss _ hp _ | invalidTarget _ hp | route _ _ _ hp _ _
  | internal _ hp _ | unchanged _ hp _ | unavailable _ _ hp _ _ | send _ _ _ _ _ _ _ hp _ _
  | respond _ _ _ _ hp _ | writeResponse _ hp | requestData hp | responseData hp
  | giveUp _ hp | complete hp => exact hserving (by rw [hp]; rfl)
  | written answer failure hp => exact service_append rfl rfl
  | writeFailed answer failure headerWritten error hp =>
    cases headerWritten with
    | true => exact service_append rfl rfl
    | false => exact service_append hnil rfl
  | failSilently error hp | dropped event hp _ => exact service_append hnil rfl
  | failAnswered error answer hp _ _ => exact service_append rfl rfl
  | logging error hp =>
    refine service_append rfl ?_
    have hkey : x.ctx.resolvedRouteKey = none := by
      rcases h with hheld | ⟨-, hreleased | hkey⟩
      · cases hnone.symm.trans hheld
      · rw [hp] at hreleased
        cases hreleased
      · exact hkey
    unfold RequestContext.claimHttpCompletionActivity RequestContext.claimRequestActivity
    split_ifs <;> simp [RequestContext.publishActivity, hkey]

/-- The admission of a request changes when it is admitted and when its context is released. -/
theorem Move.trafficAdmission (hm : Move libraries options registry x event x')
    (hnew : ∀ admitted, event ≠ .tryAdmit admitted) (hlogging : event ≠ .logging)
    (hdropped : x'.phase ≠ .dropped) : x'.ctx.trafficAdmission = x.ctx.trafficAdmission := by
  cases hm with
  | accept hp => exact absurd rfl (hnew true)
  | health ctx hctx _ _ | undecodable ctx hctx _ _ | lookup ctx _ hctx _ _ _ =>
    subst hctx
    rfl
  | writeFailed answer failure headerWritten error hp => cases headerWritten <;> rfl
  | responseData hp =>
    unfold publishClaimed RequestContext.claimResponseActivity
    split_ifs <;> rfl
  | logging error hp => exact absurd rfl hlogging
  | dropped event hp _ => exact absurd rfl hdropped
  | _ => rfl

theorem Move.trafficAdmission_dropped (hm : Move libraries options registry x event x')
    (hdropped : x'.phase = .dropped) : x'.ctx.trafficAdmission = false := by
  cases hm with
  | dropped event hp _ => rfl
  | unchanged event hp _ | send _ _ _ _ _ _ _ hp _ _ | respond _ _ _ _ hp _ | writeResponse _ hp
  | requestData hp | responseData hp => cases hp.symm.trans hdropped
  | unavailable event phase hp hphase _ =>
    obtain rfl : phase = .dropped := hdropped
    simp at hphase
  | writeFailed answer failure headerWritten error hp => cases failure <;> cases hdropped
  | _ => cases hdropped

theorem Move.trafficAdmission_logging (hm : Move libraries options registry x .logging x') :
    x'.ctx.trafficAdmission = false := by
  cases hm with
  | logging error hp => rfl
  | internal _ _ he | unchanged _ _ he | unavailable _ _ _ _ he | dropped _ _ he => cases he

theorem stepExchange_tryAdmit {admitted : Bool}
    (h : stepExchange libraries options registry x (.tryAdmit admitted) = some x') :
    x'.ctx.trafficAdmission = (admitted || x.ctx.trafficAdmission) := by
  unfold stepExchange at h
  cases hp : x.phase with
  | arrived =>
    rw [hp] at h
    obtain rfl := Option.some.inj h
    cases admitted <;> rfl
  | _ =>
    rw [hp] at h
    cases h

end

end Proxy

/-- A call of `try_admit` is in progress. -/
def RequestContext.admitting (ctx : RequestContext) : Bool :=
  match ctx.phase with
  | .entered | .incrementing | .confirming | .undoing _ => true
  | _ => false

/-- The public service: its traffic and its data plane. -/
structure PublicProxy (σ : Type) where
  traffic : Traffic
  plane : DataPlane σ

namespace PublicProxy

/-- `lifecycle` is one atomic operation on the traffic lifecycle. -/
inductive Action (ι : Type) where
  | registry (a : ChpProxy.Action ι)
  | request (session : Proxy.Session)
  | lifecycle (a : TrafficAction)
  | event (r : ℕ) (event : Proxy.Event)

/-- What `try_admit` returns to request `r`, if an operation makes it return. -/
def tryAdmit? (s t : Traffic) (r : ℕ) : Option Bool :=
  (s.requests[r]?).bind fun ctx => (t.requests[r]?).bind fun ctx' =>
    if ctx.admitting = true ∧ ctx'.phase = .handled then some ctx'.trafficAdmission else none

/-- The logging callback and the destructor of the context release the admission. -/
def releases (r : ℕ) : Proxy.Event → Proxy.Phase → Option TrafficAction
  | .logging, _ => some (.release r)
  | _, .dropped => some (.drop r)
  | _, _ => none

variable {σ ι : Type} (S : Store σ ι) (libraries : Proxy.Libraries) (options : Proxy.Options)

/-- An operation of a call of `try_admit` or `finish`. -/
def operate (s : PublicProxy σ) (r : ℕ) (a : TrafficAction) : Option (PublicProxy σ) :=
  (s.traffic.step a).bind fun traffic =>
    match tryAdmit? s.traffic traffic r with
    | none => some { s with traffic := traffic }
    | some admitted =>
      (s.plane.step S libraries options (.event r (.tryAdmit admitted))).map (⟨traffic, ·⟩)

def callback (s : PublicProxy σ) (r : ℕ) (event : Proxy.Event) : Option (PublicProxy σ) :=
  (s.plane.step S libraries options (.event r event)).bind fun plane =>
    match (plane.exchanges[r]?).bind fun x => releases r event x.phase with
    | none => some { s with plane := plane }
    | some a => (s.traffic.step a).map (⟨·, plane⟩)

def step (s : PublicProxy σ) : Action ι → Option (PublicProxy σ)
  | .registry a =>
    (s.plane.step S libraries options (.registry a)).map fun plane => { s with plane := plane }
  | .request session => (s.traffic.step .request).bind fun traffic =>
    (s.plane.step S libraries options (.request session)).map (⟨traffic, ·⟩)
  | .lifecycle a => match a with
    | .stopAccepting | .acknowledge =>
      (s.traffic.step a).map fun traffic => { s with traffic := traffic }
    | .tryAdmit r | .check r | .increment r | .confirm r | .finish r _ =>
      s.operate S libraries options r a
    | .request | .release _ | .drop _ => none
  | .event _ (.tryAdmit _) => none
  | .event r event => s.callback S libraries options r event

abbrev run : PublicProxy σ → List (Action ι) → Option (PublicProxy σ) :=
  Transition.run (step S libraries options)

def start (registry : Registry σ) : PublicProxy σ := ⟨.start, ⟨registry, []⟩⟩

end PublicProxy

namespace Traffic

variable {s s' : Traffic} {a : TrafficAction} {r : ℕ} {ctx : RequestContext}

/-- An operation of `try_admit` or `finish` gives its request an admission, and `try_admit` returns
true, or leaves the admission as it is. -/
theorem stepRequest_operation (ha : (∀ r, a ≠ .release r) ∧ ∀ r, a ≠ .drop r)
    (h : s.stepRequest r ctx a = some s') :
    ∃ ctx', s'.requests = s.requests.set r ctx' ∧
      (ctx'.trafficAdmission = ctx.trafficAdmission ∨
        ctx.admitting = true ∧ ctx' = ⟨true, .handled⟩) := by
  cases a with
  | tryAdmit _ =>
    simp only [stepRequest] at h
    split at h
    · split_ifs at h
      obtain rfl := Option.some.inj h
      exact ⟨_, rfl, .inl rfl⟩
    · cases h
  | check _ | increment _ =>
    simp only [stepRequest] at h
    split at h
    · obtain rfl := Option.some.inj h
      exact ⟨_, rfl, .inl rfl⟩
    · cases h
  | confirm _ =>
    simp only [stepRequest] at h
    split at h
    · next hp =>
      split_ifs at h
      · obtain rfl := Option.some.inj h
        exact ⟨_, rfl, .inr ⟨by simp [RequestContext.admitting, hp], rfl⟩⟩
      · obtain rfl := Option.some.inj h
        exact ⟨_, rfl, .inl rfl⟩
    · cases h
  | finish _ _ =>
    simp only [stepRequest] at h
    split at h
    · split at h <;> obtain rfl := Option.some.inj h <;> exact ⟨_, rfl, .inl rfl⟩
    · split at h <;> obtain rfl := Option.some.inj h <;> exact ⟨_, rfl, .inl rfl⟩
    · cases h
  | release _ => exact absurd rfl (ha.1 _)
  | drop _ => exact absurd rfl (ha.2 _)
  | request | stopAccepting | acknowledge => cases h

theorem stepRequest_release (ha : (∃ r, a = .release r) ∨ ∃ r, a = .drop r)
    (h : s.stepRequest r ctx a = some s') :
    ∃ ctx', s'.requests = s.requests.set r ctx' ∧ ctx'.trafficAdmission = false := by
  have htaken : ∀ dropping, s.releaseTrafficAdmission r ctx dropping = some s' →
      ∃ ctx', s'.requests = s.requests.set r ctx' ∧ ctx'.trafficAdmission = false := by
    intro dropping h
    unfold releaseTrafficAdmission at h
    split_ifs at h with hheld
    all_goals
      obtain rfl := Option.some.inj h
      refine ⟨_, rfl, ?_⟩
    · rfl
    all_goals simpa using hheld
  rcases ha with ⟨_, rfl⟩ | ⟨_, rfl⟩
  · simp only [stepRequest] at h
    split at h
    · exact htaken _ h
    · exact htaken _ h
    · cases h
  · simp only [stepRequest] at h
    split at h
    · exact htaken _ h
    · exact htaken _ h
    · cases h

end Traffic

namespace DataPlane

variable {σ ι : Type} {S : Store σ ι} {libraries : Proxy.Libraries} {options : Proxy.Options}
  {s t : DataPlane σ} {a : Action ι}

def service (s : DataPlane σ) (r : ℕ) : List Proxy.Effect :=
  (s.exchanges[r]?).elim [] (·.service)

theorem held_step (h : ∀ x ∈ s.exchanges, Proxy.Held x)
    (hs : s.step S libraries options a = some t) :
    ∀ x ∈ t.exchanges, Proxy.Held x := by
  cases step_cases hs with
  | registry a registry _ => exact h
  | request session =>
    intro x hx
    rcases List.mem_append.mp hx with hold | hnew
    · exact h x hold
    · obtain rfl := List.mem_singleton.mp hnew
      exact .inr ⟨rfl, .inr rfl⟩
  | event r x x' event hx hm =>
    intro y hy
    rcases List.mem_or_eq_of_mem_set hy with hold | rfl
    · exact h y hold
    · exact (h x (List.mem_of_getElem? hx)).move hm

/-- While no request holds an admission, none is served. -/
theorem service_step (h : ∀ x ∈ s.exchanges, Proxy.Held x)
    (hnone : ∀ x ∈ s.exchanges, x.ctx.trafficAdmission = false)
    (hs : s.step S libraries options a = some t) (r : ℕ) : t.service r = s.service r := by
  unfold service
  cases step_cases hs with
  | registry a registry _ => rfl
  | request session =>
    rcases Nat.lt_trichotomy r s.exchanges.length with hlt | rfl | hgt
    · rw [List.getElem?_append_left hlt]
    · rw [List.getElem?_append_right le_rfl, List.getElem?_eq_none le_rfl, Nat.sub_self]
      rfl
    · rw [List.getElem?_eq_none (by rw [List.length_append, List.length_singleton]; omega),
        List.getElem?_eq_none (by omega)]
  | event r' x x' event hx hm =>
    by_cases hr : r' = r
    · subst hr
      have hmem := List.mem_of_getElem? hx
      rw [List.getElem?_set_self (List.getElem?_eq_some_iff.mp hx).1, hx]
      exact (h x hmem).service_move (hnone x hmem) hm
    · rw [List.getElem?_set_ne hr]

end DataPlane

namespace PublicProxy

variable {σ ι : Type} {S : Store σ ι} {libraries : Proxy.Libraries} {options : Proxy.Options}
  {s s' t : PublicProxy σ} {a : Action ι} {as bs : List (Action ι)} {r : ℕ}

/-- The lifecycle and the contexts agree on who holds an admission. -/
def Agrees (s : PublicProxy σ) : Prop :=
  s.traffic.requests.map (·.trafficAdmission) = s.plane.exchanges.map (·.ctx.trafficAdmission)

theorem Agrees.set (h : s.Agrees) {ctx : RequestContext} {x : Proxy.Exchange} {traffic : Traffic}
    {plane : DataPlane σ} (htraffic : traffic.requests = s.traffic.requests.set r ctx)
    (hplane : plane.exchanges = s.plane.exchanges.set r x)
    (hsame : ctx.trafficAdmission = x.ctx.trafficAdmission) : Agrees ⟨traffic, plane⟩ := by
  unfold Agrees at h ⊢
  rw [htraffic, hplane, List.map_set, List.map_set, h, hsame]

theorem Agrees.at (h : s.Agrees) {ctx : RequestContext} {x : Proxy.Exchange}
    (hctx : s.traffic.requests[r]? = some ctx) (hx : s.plane.exchanges[r]? = some x) :
    ctx.trafficAdmission = x.ctx.trafficAdmission := by
  have heq := congrArg (·[r]?) h
  simp only [List.getElem?_map, hctx, hx, Option.map_some] at heq
  exact Option.some.inj heq

theorem event_cases {event : Proxy.Event} {u v : DataPlane σ}
    (h : u.step S libraries options (.event r event) = some v) :
    ∃ x x', u.exchanges[r]? = some x ∧ v.exchanges = u.exchanges.set r x' ∧
      v.exchanges[r]? = some x' ∧
      Proxy.stepExchange libraries options u.registry x event = some x' := by
  obtain ⟨x, hx, h⟩ := Option.bind_eq_some_iff.mp h
  obtain ⟨x', hx', rfl⟩ := Option.map_eq_some_iff.mp h
  exact ⟨x, x', hx, rfl, List.getElem?_set_self (List.getElem?_eq_some_iff.mp hx).1, hx'⟩

theorem agrees_operate (h : s.Agrees) {a : TrafficAction}
    (ha : (∀ r, a ≠ .release r) ∧ ∀ r, a ≠ .drop r)
    (hrequest : ∀ u : Traffic, u.step a = (u.requests[r]?).bind (u.stepRequest r · a))
    (hs : s.operate S libraries options r a = some s') : s'.Agrees := by
  obtain ⟨traffic, htraffic, hs⟩ := Option.bind_eq_some_iff.mp hs
  rw [hrequest] at htraffic
  obtain ⟨ctx, hctx, htraffic⟩ := Option.bind_eq_some_iff.mp htraffic
  obtain ⟨ctx', hset, hadmission⟩ := Traffic.stepRequest_operation ha htraffic
  have hctx' : traffic.requests[r]? = some ctx' := by
    rw [hset]
    exact List.getElem?_set_self (List.getElem?_eq_some_iff.mp hctx).1
  have hreturn : tryAdmit? s.traffic traffic r = if ctx.admitting = true ∧ ctx'.phase = .handled
      then some ctx'.trafficAdmission else none := by
    simp only [tryAdmit?, hctx, hctx', Option.bind_some]
  rw [hreturn] at hs
  split_ifs at hs with hreturned
  · obtain ⟨plane, hplane, rfl⟩ := Option.map_eq_some_iff.mp hs
    obtain ⟨x, x', hx, hexchanges, -, hmove⟩ := event_cases hplane
    refine h.set hset hexchanges ?_
    rw [Proxy.stepExchange_tryAdmit hmove, ← h.at hctx hx]
    rcases hadmission with hkept | ⟨-, rfl⟩
    · rw [hkept, Bool.or_self]
    · rfl
  · obtain rfl := Option.some.inj hs
    rcases hadmission with hkept | ⟨hadmitting, rfl⟩
    · unfold Agrees at h ⊢
      rw [hset, List.map_set, hkept, ← h]
      exact Census.set_self (by rw [List.getElem?_map, hctx]; rfl)
    · exact absurd ⟨hadmitting, rfl⟩ hreturned

theorem releases_cases {event : Proxy.Event} {phase : Proxy.Phase} {a : TrafficAction}
    (h : releases r event phase = some a) :
    event = .logging ∧ a = .release r ∨ phase = .dropped ∧ a = .drop r := by
  unfold releases at h
  split at h
  · exact .inl ⟨rfl, (Option.some.inj h).symm⟩
  · exact .inr ⟨rfl, (Option.some.inj h).symm⟩
  · cases h

theorem releases_eq_none {event : Proxy.Event} {phase : Proxy.Phase}
    (h : releases r event phase = none) : event ≠ .logging ∧ phase ≠ .dropped := by
  unfold releases at h
  split at h
  · cases h
  · cases h
  · next hlogging hdropped => exact ⟨hlogging, fun hp => hdropped hp⟩

theorem agrees_callback (h : s.Agrees) {event : Proxy.Event}
    (hnew : ∀ admitted, event ≠ .tryAdmit admitted)
    (hs : s.callback S libraries options r event = some s') : s'.Agrees := by
  obtain ⟨plane, hplane, hs⟩ := Option.bind_eq_some_iff.mp hs
  obtain ⟨x, x', hx, hexchanges, hx', hmove⟩ := event_cases hplane
  have hm := Proxy.stepExchange_cases hmove
  rw [hx', Option.bind_some] at hs
  split at hs
  · next hnone =>
    obtain rfl := Option.some.inj hs
    obtain ⟨hlogging, hdropped⟩ := releases_eq_none hnone
    have hkept := hm.trafficAdmission hnew hlogging hdropped
    unfold Agrees at h ⊢
    rw [hexchanges, List.map_set, hkept, h]
    exact (Census.set_self (by rw [List.getElem?_map, hx]; rfl)).symm
  · next a ha =>
    obtain ⟨traffic, htraffic, rfl⟩ := Option.map_eq_some_iff.mp hs
    have hreleased : x'.ctx.trafficAdmission = false := by
      rcases releases_cases ha with ⟨rfl, -⟩ | ⟨hdropped, -⟩
      · exact hm.trafficAdmission_logging
      · exact hm.trafficAdmission_dropped hdropped
    have hrequest : ∃ ctx, s.traffic.requests[r]? = some ctx ∧
        s.traffic.stepRequest r ctx a = some traffic := by
      rcases releases_cases ha with ⟨-, rfl⟩ | ⟨-, rfl⟩
      · exact Option.bind_eq_some_iff.mp htraffic
      · exact Option.bind_eq_some_iff.mp htraffic
    obtain ⟨ctx, hctx, hstep⟩ := hrequest
    obtain ⟨ctx', hset, hfalse⟩ := Traffic.stepRequest_release
      ((releases_cases ha).imp (fun h => ⟨r, h.2⟩) fun h => ⟨r, h.2⟩) hstep
    exact h.set hset hexchanges (hfalse.trans hreleased.symm)

inductive Step (S : Store σ ι) (libraries : Proxy.Libraries) (options : Proxy.Options)
    (s : PublicProxy σ) : Action ι → PublicProxy σ → Prop
  | registry (a : ChpProxy.Action ι) (registry : Registry σ)
      (h : Registry.step S s.plane.registry a = some registry) :
      Step S libraries options s (.registry a) ⟨s.traffic, { s.plane with registry := registry }⟩
  | request (session : Proxy.Session) : Step S libraries options s (.request session)
      ⟨{ s.traffic with requests := s.traffic.requests ++ [⟨false, .fresh⟩] },
        { s.plane with exchanges :=
            s.plane.exchanges ++ [⟨session, .default, .arrived, none, []⟩] }⟩
  | acceptance (a : TrafficAction) (traffic : Traffic) (h : s.traffic.step a = some traffic)
      (hrequests : traffic.requests = s.traffic.requests) :
      Step S libraries options s (.lifecycle a) ⟨traffic, s.plane⟩
  | operate (r : ℕ) (a : TrafficAction) (s' : PublicProxy σ)
      (ha : (∀ r, a ≠ .release r) ∧ ∀ r, a ≠ .drop r)
      (hrequest : ∀ u : Traffic, u.step a = (u.requests[r]?).bind (u.stepRequest r · a))
      (h : s.operate S libraries options r a = some s') :
      Step S libraries options s (.lifecycle a) s'
  | callback (r : ℕ) (event : Proxy.Event) (s' : PublicProxy σ)
      (hnew : ∀ admitted, event ≠ .tryAdmit admitted)
      (h : s.callback S libraries options r event = some s') :
      Step S libraries options s (.event r event) s'

theorem step_cases (h : step S libraries options s a = some s') :
    Step S libraries options s a s' := by
  cases a with
  | registry a =>
    obtain ⟨plane, hplane, rfl⟩ := Option.map_eq_some_iff.mp h
    obtain ⟨registry, hr, rfl⟩ := Option.map_eq_some_iff.mp hplane
    exact .registry a registry hr
  | request session =>
    obtain rfl := Option.some.inj h
    exact .request session
  | lifecycle a =>
    cases a with
    | stopAccepting =>
      obtain rfl := Option.some.inj h
      exact .acceptance _ _ rfl rfl
    | acknowledge =>
      obtain ⟨traffic, htraffic, rfl⟩ := Option.map_eq_some_iff.mp h
      refine .acceptance _ traffic htraffic ?_
      simp only [Traffic.step] at htraffic
      split_ifs at htraffic
      obtain rfl := Option.some.inj htraffic
      rfl
    | tryAdmit r | check r | increment r | confirm r | finish r _ =>
      exact .operate r _ s' ⟨by simp, by simp⟩ (fun _ => rfl) h
    | request | release r | drop r => cases h
  | event r event =>
    cases event with
    | tryAdmit admitted => cases h
    | _ => exact .callback r _ s' (by simp) h

theorem agrees_step (h : s.Agrees) (hs : step S libraries options s a = some s') : s'.Agrees := by
  cases step_cases hs with
  | registry a registry _ => exact h
  | request session =>
    unfold Agrees at h ⊢
    rw [List.map_append, List.map_append, h]
    rfl
  | acceptance a traffic _ hrequests =>
    unfold Agrees at h ⊢
    rw [hrequests, h]
  | operate r a _ ha hrequest ho => exact agrees_operate h ha hrequest ho
  | callback r event _ hnew hc => exact agrees_callback h hnew hc

/-- Each half of the proxy stays as it is, or takes a step of its own machine. -/
theorem step_projects (hs : step S libraries options s a = some s') :
    (s'.traffic = s.traffic ∨ ∃ b, s.traffic.step b = some s'.traffic) ∧
      (s'.plane = s.plane ∨ ∃ b, s.plane.step S libraries options b = some s'.plane) := by
  cases step_cases hs with
  | registry a registry hr => exact ⟨.inl rfl, .inr ⟨.registry a, by rw [DataPlane.step, hr]; rfl⟩⟩
  | request session => exact ⟨.inr ⟨.request, rfl⟩, .inr ⟨.request session, rfl⟩⟩
  | acceptance a traffic ht _ => exact ⟨.inr ⟨a, ht⟩, .inl rfl⟩
  | operate r a _ _ _ ho =>
    obtain ⟨traffic, ht, ho⟩ := Option.bind_eq_some_iff.mp ho
    split at ho
    · obtain rfl := Option.some.inj ho
      exact ⟨.inr ⟨a, ht⟩, .inl rfl⟩
    · obtain ⟨plane, hp, rfl⟩ := Option.map_eq_some_iff.mp ho
      exact ⟨.inr ⟨a, ht⟩, .inr ⟨_, hp⟩⟩
  | callback r event _ _ hc =>
    obtain ⟨plane, hp, hc⟩ := Option.bind_eq_some_iff.mp hc
    split at hc
    · obtain rfl := Option.some.inj hc
      exact ⟨.inl rfl, .inr ⟨_, hp⟩⟩
    · next b _ =>
      obtain ⟨traffic, ht, rfl⟩ := Option.map_eq_some_iff.mp hc
      exact ⟨.inr ⟨b, ht⟩, .inr ⟨_, hp⟩⟩

structure Coherent (s : PublicProxy σ) : Prop where
  agrees : s.Agrees
  held : ∀ x ∈ s.plane.exchanges, Proxy.Held x

theorem coherent_start (registry : Registry σ) : (start registry).Coherent :=
  ⟨rfl, fun _ hx => by cases hx⟩

theorem Coherent.step (h : s.Coherent) (hs : step S libraries options s a = some s') :
    s'.Coherent := by
  refine ⟨agrees_step h.agrees hs, ?_⟩
  rcases (step_projects hs).2 with hsame | ⟨b, hb⟩
  · rw [hsame]
    exact h.held
  · exact DataPlane.held_step h.held hb

theorem drained_step (h : s.traffic.Drained) (hs : step S libraries options s a = some s') :
    s'.traffic.Drained := by
  rcases (step_projects hs).1 with hsame | ⟨b, hb⟩
  · rw [hsame]
    exact h
  · exact h.step hb

/-- After the drain no context holds an admission. -/
theorem Coherent.released (h : s.Coherent) (hd : s.traffic.Drained) :
    ∀ x ∈ s.plane.exchanges, x.ctx.trafficAdmission = false := by
  intro x hx
  have hadmission : x.ctx.trafficAdmission ∈ s.traffic.requests.map (·.trafficAdmission) := by
    rw [h.agrees]
    exact List.mem_map_of_mem hx
  obtain ⟨ctx, hctx, heq⟩ := List.mem_map.mp hadmission
  obtain ⟨r, hr⟩ := List.mem_iff_getElem?.mp hctx
  have hnone : ctx.holdsToken = false := Census.eq_false_of_countP hd.tokens hr
  rw [← heq]
  exact (Bool.or_eq_false_iff.mp hnone).1

/-- In every interleaving of requests, callbacks, registry steps and atomic operations of the
traffic lifecycle, no context releases an admission twice. Once the listeners have stopped and the
counter is at zero, no request is in progress and nothing is served any more: no route is looked up,
nothing is sent to an upstream server or relayed from it, and no activity is recorded. -/
theorem drained_serves_nothing {registry : Registry σ}
    (h : run S libraries options (start registry) as = some s) :
    s.traffic.lifecycle.overReleases = 0 ∧
      (s.traffic.lifecycle.accepting = false → s.traffic.lifecycle.active = 0 →
        (∀ x ∈ s.plane.exchanges, x.phase.serving = false) ∧
        ∀ bs t, run S libraries options s bs = some t →
          ∀ r, t.plane.service r = s.plane.service r) := by
  have hcoherent : s.Coherent :=
    Transition.run_invariant (fun _ _ _ hu hs => hu.step hs) (coherent_start registry) h
  obtain ⟨ts, hts⟩ :=
    Transition.run_projects (f := traffic) (fun _ _ _ hs => (step_projects hs).1) h
  have hsound : s.traffic.Sound := Traffic.sound_run hts
  refine ⟨hsound.overReleases, fun hclosed hzero => ?_⟩
  have hdrained : s.traffic.Drained := ⟨hclosed, by have := hsound.active; omega⟩
  refine ⟨fun x hx => ?_, fun bs t ht r => ?_⟩
  · cases hserving : x.phase.serving with
    | false => rfl
    | true =>
      exact absurd ((hcoherent.held x hx).of_serving hserving)
        (by simp [hcoherent.released hdrained x hx])
  · refine Transition.run_relation (P := fun u => u.Coherent ∧ u.traffic.Drained)
      (R := fun u v : PublicProxy σ => v.plane.service r = u.plane.service r) (fun _ => rfl)
      (fun _ _ _ huv hvw => Eq.trans hvw huv) ?_ ?_ ⟨hcoherent, hdrained⟩ ht
    · exact fun u a v hu hs => ⟨hu.1.step hs, drained_step hu.2 hs⟩
    · intro u a v hu hs
      rcases (step_projects hs).2 with hsame | ⟨b, hb⟩
      · rw [hsame]
      · exact DataPlane.service_step hu.1.held (hu.1.released hu.2) hb r

/-- The listeners stop while a request is served; it is logged, and its context dropped. -/
def finishing : List (Action DateTime) :=
  [.request DataPlane.rootRequest, .lifecycle (.tryAdmit 0), .lifecycle (.check 0),
    .lifecycle (.increment 0), .lifecycle (.confirm 0), .event 0 .consistencyStatus,
    .event 0 .isIndeterminate, .lifecycle .stopAccepting, .event 0 .loadSnapshot,
    .event 0 (.upstreamPeer .peer), .event 0 (.upstreamRequestFilter .empty none none true),
    .event 0 (.writeResponse 200), .event 0 .complete, .event 0 .logging,
    .lifecycle (.finish 0 false), .lifecycle .acknowledge, .lifecycle (.finish 0 false),
    .event 0 .drop]

def refusing : List (Action DateTime) :=
  [.request DataPlane.rootRequest, .lifecycle (.tryAdmit 1), .lifecycle (.check 1),
    .event 1 .written, .event 1 .logging, .event 1 .drop]

theorem drained_serves_nothing_late : ∃ registry s t,
    (Registry.load MemoryStore.store 0 DataPlane.rootTable = .ok registry ∧
      run MemoryStore.store DataPlane.plainLibraries DataPlane.plainOptions (start registry)
        finishing = some s ∧
      s.traffic.lifecycle.accepting = false ∧ s.traffic.lifecycle.active = 0 ∧
      s.plane.service 0 ≠ [] ∧ s.plane.service 1 = [] ∧
      run MemoryStore.store DataPlane.plainLibraries DataPlane.plainOptions s refusing = some t) ∧
    s.traffic.lifecycle.overReleases = 0 ∧ t.plane.service 1 = [] := by
  refine Exists.imp (fun registry => Exists.imp fun s => Exists.imp fun t h => ⟨h, ?_⟩)
    ⟨_, _, _, rfl, rfl, rfl, rfl, List.cons_ne_nil _ _, rfl, rfl⟩
  obtain ⟨-, hrun, hclosed, hzero, -, hfresh, hlate⟩ := h
  obtain ⟨hover, hquiet⟩ := drained_serves_nothing hrun
  exact ⟨hover, ((hquiet hclosed hzero).2 refusing t hlate 1).trans hfresh⟩

end PublicProxy

end ChpProxy
