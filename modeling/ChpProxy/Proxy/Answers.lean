import ChpProxy.Proxy.Activity

/-! How a request is answered and counted: at most one answer of the proxy itself, none once a
response header was relayed, and one count as a web or websocket request. -/
namespace ChpProxy

namespace Proxy

def Effect.answer? : Effect → Option Answer
  | .answer response => some response
  | _ => none

def Effect.isCount : Effect → Bool
  | .wsRequest | .webRequest => true
  | _ => false

/-- The answers that the proxy has written itself. -/
def Exchange.answers (x : Exchange) : List Answer := x.log.filterMap Effect.answer?

def Exchange.counts (x : Exchange) : List Effect := x.log.filter Effect.isCount

/-- An answer is a health report, or its status was recorded. -/
def Exchange.Recorded (x : Exchange) (answer : Answer) : Prop :=
  answer = .health ∨ .proxyRequest answer.status ∈ x.log

/-- The phases in which nothing has been written to the client. -/
def Phase.silent : Phase → Bool
  | .arrived | .admitted | .resolving _ | .loading _ | .answering _ _ => true
  | _ => false

/-- The phases in which a request may not have been counted yet. -/
def Phase.idle : Phase → Bool
  | .arrived | .admitted | .dropped => true
  | _ => false

/-- What was written to the client; `relayed` says that Pingora has relayed a response header. -/
structure Replied (relayed : Prop) (x : Exchange) : Prop where
  written : relayed → x.responseWritten ≠ none
  silent : x.phase.silent = true → x.responseWritten = none
  announced : ∀ answer failure, x.phase = .answering answer failure → x.Recorded answer
  answers : x.answers = [] ∨ x.phase ≠ .proxying ∧ ¬relayed ∧ ∃ answer,
    x.answers = [answer] ∧ x.responseWritten = some answer.status ∧ x.Recorded answer

structure Counted (x : Exchange) : Prop where
  fresh : x.phase = .arrived ∨ x.phase = .admitted → x.log = []
  counts : x.counts = [Exchange.countRequest x.session] ∨
    x.counts = [] ∧ (originalText x.session.uri = healthPath ∨ x.phase.idle = true ∧ x.log = [])

section

variable {σ : Type} {libraries : Libraries} {options : Options} {registry : Registry σ}
  {x x' : Exchange} {event : Event} {relayed : Prop} {effects : List Effect}

theorem answers_append (hlog : x'.log = x.log ++ effects) :
    x'.answers = x.answers ++ effects.filterMap Effect.answer? := by
  unfold Exchange.answers
  rw [hlog, List.filterMap_append]

theorem counts_append (hlog : x'.log = x.log ++ effects) :
    x'.counts = x.counts ++ effects.filter Effect.isCount := by
  unfold Exchange.counts
  rw [hlog, List.filter_append]

theorem Exchange.Recorded.append {answer : Answer} (h : x.Recorded answer)
    (hlog : x'.log = x.log ++ effects) : x'.Recorded answer :=
  h.imp_right fun hmem => hlog ▸ List.mem_append_left _ hmem

theorem answers_countRequest (session : Session) (effects : List Effect) :
    (Exchange.countRequest session :: effects).filterMap Effect.answer? =
      effects.filterMap Effect.answer? := by
  refine List.filterMap_cons_none ?_
  unfold Exchange.countRequest
  split_ifs <;> rfl

theorem counts_countRequest (session : Session) (effects : List Effect) :
    (Exchange.countRequest session :: effects).filter Effect.isCount =
      Exchange.countRequest session :: effects.filter Effect.isCount := by
  refine List.filter_cons_of_pos ?_
  unfold Exchange.countRequest
  split_ifs <;> rfl

theorem answers_published (claimed : Bool) (ctx : RequestContext) :
    (if claimed then ctx.publishActivity else []).filterMap Effect.answer? = [] := by
  unfold RequestContext.publishActivity
  cases claimed <;> cases ctx.resolvedRouteKey <;> rfl

theorem counts_published (claimed : Bool) (ctx : RequestContext) :
    (if claimed then ctx.publishActivity else []).filter Effect.isCount = [] := by
  unfold RequestContext.publishActivity
  cases claimed <;> cases ctx.resolvedRouteKey <;> rfl

namespace Replied

theorem answers_eq_nil (h : Replied relayed x) (hw : x.responseWritten = none) :
    x.answers = [] := by
  rcases h.answers with hnil | ⟨-, -, answer, -, hsome, -⟩
  · exact hnil
  · cases hw.symm.trans hsome

theorem keep (h : Replied relayed x) (hlog : x'.log = x.log ++ effects)
    (hquiet : effects.filterMap Effect.answer? = [])
    (hwritten : x'.responseWritten = x.responseWritten)
    (hsilent : x'.phase.silent = true → x.responseWritten = none)
    (hannounced : ∀ answer failure, x'.phase = .answering answer failure → x'.Recorded answer)
    (hproxying : x'.phase = .proxying → x.phase = .proxying ∨ x.responseWritten = none) :
    Replied relayed x' := by
  have hanswers : x'.answers = x.answers := by
    rw [answers_append hlog, hquiet, List.append_nil]
  refine ⟨?_, ?_, hannounced, ?_⟩
  · rw [hwritten]
    exact h.written
  · rw [hwritten]
    exact hsilent
  · rw [hanswers, hwritten]
    rcases h.answers with hnil | ⟨hp, hrelayed, answer, hone, hsome, hrecorded⟩
    · exact .inl hnil
    · refine .inr ⟨fun hq => ?_, hrelayed, answer, hone, hsome, hrecorded.append hlog⟩
      rcases hproxying hq with hpx | hnone
      · exact hp hpx
      · cases hnone.symm.trans hsome

theorem write (h : Replied relayed x) {answer : Answer} {failure : Option Error}
    (hp : x.phase = .answering answer failure) {phase : Phase} (hsilent : phase.silent = false)
    (hproxying : phase ≠ .proxying) :
    Replied relayed { writeAnswer x answer with phase := phase } := by
  have hnone : x.responseWritten = none := h.silent (by rw [hp]; rfl)
  refine ⟨fun _ => Option.some_ne_none _, fun hq => ?_, fun answer' failure' hq => ?_,
    .inr ⟨hproxying, fun hr => h.written hr hnone, answer, ?_, rfl, ?_⟩⟩
  · cases hsilent.symm.trans hq
  · obtain rfl : phase = .answering answer' failure' := hq
    cases hsilent
  · refine (answers_append (x := x) rfl).trans ?_
    rw [h.answers_eq_nil hnone]
    rfl
  · exact (h.announced answer failure hp).append rfl

theorem relay (h : Replied relayed x) (hp : x.phase = .proxying) (status : ℕ) (occurred : Prop) :
    Replied (relayed ∨ occurred) { x with responseWritten := some status } := by
  refine ⟨fun _ => Option.some_ne_none _, fun hq => ?_, h.announced, .inl ?_⟩
  · rw [hp] at hq
    cases hq
  · rcases h.answers with hnil | ⟨hne, -⟩
    · exact hnil
    · exact absurd hp hne

theorem move (h : Replied relayed x) (hm : Move libraries options registry x event x')
    (hrelay : ∀ status, event ≠ .writeResponse status) : Replied relayed x' := by
  -- A phase that neither announces an answer nor waits for the upstream server.
  have hend : ∀ {y : Exchange} {effects : List Effect}, y.log = x.log ++ effects →
      effects.filterMap Effect.answer? = [] → y.responseWritten = x.responseWritten →
      y.phase.silent = false → y.phase ≠ .proxying → Replied relayed y := by
    intro y effects hlog hquiet hwritten hsilent hproxying
    refine h.keep hlog hquiet hwritten (fun hq => ?_) (fun answer failure hq => ?_)
      fun hq => absurd hq hproxying
    · cases hsilent.symm.trans hq
    · rw [hq] at hsilent
      cases hsilent
  -- An answer is announced while nothing has been written.
  have hannounce : ∀ {y : Exchange} {effects : List Effect} {answer : Answer}
      {failure : Option Error}, y.log = x.log ++ effects → effects.filterMap Effect.answer? = [] →
      y.responseWritten = x.responseWritten → y.phase = .answering answer failure →
      y.Recorded answer → x.responseWritten = none → Replied relayed y := by
    intro y effects answer failure hlog hquiet hwritten hp hrecorded hnone
    refine h.keep hlog hquiet hwritten (fun _ => hnone) (fun answer' failure' hq => ?_)
      fun hq => .inr hnone
    cases hp.symm.trans hq
    exact hrecorded
  have hnil : x.log = x.log ++ [] := (List.append_nil _).symm
  cases hm with
  | accept hp =>
    exact h.keep hnil rfl rfl (fun _ => h.silent (by rw [hp]; rfl)) (fun _ _ hq => by cases hq)
      fun hq => by cases hq
  | refuse hp | sealed hp _ =>
    exact hannounce rfl (answers_countRequest _ _) rfl rfl (.inr (by simp [Exchange.unavailable,
      Exchange.recordPublicFailure, Exchange.record, Answer.status])) (h.silent (by rw [hp]; rfl))
  | health ctx hctx hp _ => exact hannounce hnil rfl rfl rfl (.inl rfl) (h.silent (by rw [hp]; rfl))
  | undecodable ctx hctx hp _ =>
    exact hend (List.append_assoc ..) (answers_countRequest _ _) rfl rfl (by simp)
  | lookup ctx path hctx hp _ _ =>
    exact h.keep rfl (answers_countRequest _ _) rfl (fun _ => h.silent (by rw [hp]; rfl))
      (fun _ _ hq => by cases hq) fun hq => by cases hq
  | sealedLate path hp _ | miss path hp _ =>
    exact hannounce rfl rfl rfl rfl
      (.inr (by simp [routeMiss, Exchange.record, Answer.status])) (h.silent (by rw [hp]; rfl))
  | load path hp =>
    exact h.keep hnil rfl rfl (fun _ => h.silent (by rw [hp]; rfl)) (fun _ _ hq => by cases hq)
      fun hq => by cases hq
  | invalidTarget path hp => exact hend rfl rfl rfl rfl (by simp [Exchange.failInternal])
  | route path matched target hp _ _ =>
    exact h.keep rfl rfl rfl (fun hq => by cases hq) (fun _ _ hq => by cases hq)
      fun _ => .inr (h.silent (by rw [hp]; rfl))
  | written answer failure hp => exact h.write hp rfl (by simp)
  | writeFailed answer failure headerWritten error hp =>
    cases headerWritten with
    | true => exact h.write hp (by cases failure <;> rfl) (by cases failure <;> simp)
    | false =>
      exact hend hnil rfl rfl (by cases failure <;> rfl) (by cases failure <;> simp [writeFailed])
  | internal event hp _ => exact hend hnil rfl rfl rfl (by simp [Exchange.failInternal])
  | unchanged event hp _ => exact h
  | unavailable event phase hp hphase _ =>
    rcases hphase with rfl | ⟨error, rfl⟩
    · exact h.keep hnil rfl rfl (fun hq => by cases hq) (fun _ _ hq => by cases hq) fun _ => .inl hp
    · exact hend hnil rfl rfl rfl (by simp)
  | send inbound headers _ _ _ route uri hp _ _ =>
    exact h.keep rfl rfl rfl h.silent (fun _ _ hq => by cases hp.symm.trans hq) fun _ => .inl hp
  | respond status headers headers' counted hp hc =>
    refine h.keep rfl ?_ rfl h.silent (fun _ _ hq => by cases hp.symm.trans hq) fun _ => .inl hp
    rcases hc with rfl | rfl <;> rfl
  | writeResponse status hp => exact absurd rfl (hrelay status)
  | requestData hp | responseData hp =>
    refine h.keep rfl ?_ rfl h.silent (fun _ _ hq => by cases hp.symm.trans hq) fun _ => .inl hp
    exact answers_published _ _
  | giveUp error hp | complete hp | failSilently error hp | dropped event hp _ =>
    exact hend hnil rfl rfl rfl (by simp)
  | failAnswered error answer hp hnone hstatus =>
    exact hannounce rfl rfl rfl rfl (.inr (by simp [Exchange.record, hstatus])) hnone
  | logging error hp => exact hend rfl (answers_published _ _) rfl rfl (by simp [logging])

end Replied

namespace Counted

theorem keep (h : Counted x) (hidle : x.phase.idle = false) (hsession : x'.session = x.session)
    (hlog : x'.log = x.log ++ effects) (hquiet : effects.filter Effect.isCount = [])
    (hfresh : ¬(x'.phase = .arrived ∨ x'.phase = .admitted)) : Counted x' := by
  refine ⟨fun hp => absurd hp hfresh, ?_⟩
  rw [counts_append hlog, hquiet, List.append_nil, hsession]
  rcases h.counts with hone | ⟨hnone, hhealth | ⟨hidle', -⟩⟩
  · exact .inl hone
  · exact .inr ⟨hnone, .inl hhealth⟩
  · cases hidle.symm.trans hidle'

theorem start (h : Counted x) (hp : x.phase = .arrived ∨ x.phase = .admitted)
    (hsession : x'.session = x.session)
    (hlog : x'.log = x.log ++ Exchange.countRequest x.session :: effects)
    (hquiet : effects.filter Effect.isCount = [])
    (hfresh : ¬(x'.phase = .arrived ∨ x'.phase = .admitted)) : Counted x' := by
  refine ⟨fun hp => absurd hp hfresh, .inl ?_⟩
  rw [counts_append hlog, counts_countRequest, hquiet, hsession, Exchange.counts, h.fresh hp]
  rfl

theorem move (h : Counted x) (hm : Move libraries options registry x event x') : Counted x' := by
  have hnil : x.log = x.log ++ [] := (List.append_nil _).symm
  cases hm with
  | accept hp =>
    have hlog : x.log = [] := h.fresh (.inl hp)
    refine ⟨fun _ => hlog, .inr ⟨?_, .inr ⟨rfl, hlog⟩⟩⟩
    rw [Exchange.counts, hlog]
    rfl
  | refuse hp => exact h.start (.inl hp) rfl rfl rfl (by simp [Exchange.unavailable])
  | sealed hp _ => exact h.start (.inr hp) rfl rfl rfl (by simp [Exchange.unavailable])
  | health ctx hctx hp hh =>
    refine ⟨fun hq => by simp at hq, .inr ⟨?_, .inl hh⟩⟩
    rw [Exchange.counts, h.fresh (.inr hp)]
    rfl
  | undecodable ctx hctx hp _ =>
    exact h.start (.inr hp) rfl (List.append_assoc ..) rfl (by simp)
  | lookup ctx path hctx hp _ _ => exact h.start (.inr hp) rfl rfl rfl (by simp)
  | sealedLate path hp _ | miss path hp _ =>
    exact h.keep (by rw [hp]; rfl) rfl rfl rfl (by simp [routeMiss])
  | load path hp => exact h.keep (by rw [hp]; rfl) rfl hnil rfl (by simp)
  | invalidTarget path hp =>
    exact h.keep (by rw [hp]; rfl) rfl rfl rfl (by simp [Exchange.failInternal])
  | route path matched target hp _ _ => exact h.keep (by rw [hp]; rfl) rfl rfl rfl (by simp)
  | written answer failure hp => exact h.keep (by rw [hp]; rfl) rfl rfl rfl (by simp)
  | writeFailed answer failure headerWritten error hp =>
    cases headerWritten with
    | true => exact h.keep (by rw [hp]; rfl) rfl rfl rfl (by cases failure <;> simp [writeFailed])
    | false => exact h.keep (by rw [hp]; rfl) rfl hnil rfl (by cases failure <;> simp [writeFailed])
  | internal event hp _ =>
    exact h.keep (by rw [hp]; rfl) rfl hnil rfl (by simp [Exchange.failInternal])
  | unchanged event hp _ => exact h
  | unavailable event phase hp hphase _ =>
    exact h.keep (by rw [hp]; rfl) rfl hnil rfl
      (by rcases hphase with rfl | ⟨error, rfl⟩ <;> simp)
  | send inbound headers _ _ _ route uri hp _ _ =>
    exact h.keep (by rw [hp]; rfl) rfl rfl rfl (by simp [Exchange.record, hp])
  | respond status headers headers' counted hp hc =>
    refine h.keep (by rw [hp]; rfl) rfl rfl ?_ (by simp [Exchange.record, hp])
    rcases hc with rfl | rfl <;> rfl
  | writeResponse status hp => exact h.keep (by rw [hp]; rfl) rfl hnil rfl (by simp [hp])
  | requestData hp | responseData hp =>
    exact h.keep (by rw [hp]; rfl) rfl rfl (counts_published _ _)
      (by simp [publishClaimed, Exchange.record, hp])
  | giveUp error hp | complete hp | failSilently error hp =>
    exact h.keep (by rw [hp]; rfl) rfl hnil rfl (by simp)
  | failAnswered error answer hp _ _ => exact h.keep (by rw [hp]; rfl) rfl rfl rfl (by simp)
  | logging error hp =>
    exact h.keep (by rw [hp]; rfl) rfl rfl (counts_published _ _) (by simp [logging])
  | dropped event hp _ =>
    refine ⟨fun hq => by simp at hq, ?_⟩
    rcases h.counts with hone | ⟨hnone, hhealth | ⟨-, hlog⟩⟩
    · exact .inl hone
    · exact .inr ⟨hnone, .inl hhealth⟩
    · exact .inr ⟨hnone, .inr ⟨rfl, hlog⟩⟩

end Counted

end

end Proxy

namespace DataPlane

variable {σ ι : Type} {S : Store σ ι} {libraries : Proxy.Libraries} {options : Proxy.Options}
  {s₀ t : DataPlane σ} {as : List (Action ι)} {r : ℕ} {x : Proxy.Exchange}

theorem replied_run (hstart : s₀.exchanges = []) (h : run S libraries options s₀ as = some t)
    (hx : t.exchanges[r]? = some x) :
    Proxy.Replied (∃ status, .event r (.writeResponse status) ∈ as) x := by
  refine exchange_history
    (P := fun as x => Proxy.Replied (∃ status, .event r (.writeResponse status) ∈ as) x)
    hstart ?_ ?_ ?_ h hx
  · intro as u session hu hlength
    refine ⟨?_, fun _ => rfl, (fun _ _ hq => by cases hq), .inl rfl⟩
    rintro ⟨status, hmem⟩
    have hold : .event r (.writeResponse status) ∈ as := by simpa using hmem
    exact absurd (arrived_of_event hu hold) (by omega)
  · intro as u x event x' _ _ hreplied hm
    by_cases hrelay : ∃ status, event = .writeResponse status
    · obtain ⟨status, rfl⟩ := hrelay
      cases hm with
      | writeResponse _ hp =>
        simpa [exists_or] using hreplied.relay hp status True
      | internal _ _ he | unchanged _ _ he | unavailable _ _ _ _ he | dropped _ _ he => cases he
    · have hne : ∀ status, event ≠ .writeResponse status := fun status heq => hrelay ⟨status, heq⟩
      have hne' : ∀ status, .writeResponse status ≠ event := fun status => (hne status).symm
      simpa [hne'] using hreplied.move hm hne
  · intro as a x ha hreplied
    have hne : ∀ event, Action.event r event ≠ a := fun event => (ha event).symm
    simpa [hne] using hreplied

theorem counted_run (hstart : s₀.exchanges = []) (h : run S libraries options s₀ as = some t)
    (hx : t.exchanges[r]? = some x) : Proxy.Counted x :=
  exchange_history (P := fun _ x => Proxy.Counted x) hstart
    (fun _ _ _ _ _ => ⟨fun _ => rfl, .inr ⟨rfl, .inr ⟨rfl, rfl⟩⟩⟩)
    (fun _ _ _ _ _ _ _ hcounted hm => hcounted.move hm) (fun _ _ _ _ hcounted => hcounted) h hx

/-- In any order of callbacks, the proxy answers a request itself at most once, never when a
response header was relayed, and with a status that it has recorded, the report of its health
apart. A request is counted at most once, as a websocket request if and only if it asks for an
upgrade, and whatever is done for a request other than the health check is done for a counted
one. -/
theorem answered_and_counted_once {registry : Registry σ}
    (h : run S libraries options ⟨registry, []⟩ as = some t) (hx : t.exchanges[r]? = some x) :
    (x.answers = [] ∨ (∀ status, .event r (.writeResponse status) ∉ as) ∧
      ∃ answer, x.answers = [answer] ∧ (answer = .health ∨ .proxyRequest answer.status ∈ x.log)) ∧
    (x.counts = [if x.session.isUpgradeReq then .wsRequest else .webRequest] ∨ x.counts = [] ∧
      (x.log = [] ∨ Proxy.originalText x.session.uri = Proxy.healthPath)) := by
  have hreplied := replied_run rfl h hx
  have hcounted := counted_run rfl h hx
  refine ⟨hreplied.answers.imp_right ?_, hcounted.counts.imp_right ?_⟩
  · rintro ⟨-, hrelayed, answer, hone, -, hrecorded⟩
    exact ⟨fun status hmem => hrelayed ⟨status, hmem⟩, answer, hone, hrecorded⟩
  · rintro ⟨hnone, hhealth | ⟨-, hlog⟩⟩
    · exact ⟨hnone, .inr hhealth⟩
    · exact ⟨hnone, .inl hlog⟩

def unreachable : List (Action DateTime) :=
  forwarding ++ [.event 0 .failToConnect, .event 0 (.giveUp ⟨.upstream, .connectError⟩),
    .event 0 .failToProxy, .event 0 .written, .event 0 .logging, .event 0 .drop]

theorem answered_and_counted_once_unreachable : ∃ registry t x,
    (Registry.load MemoryStore.store 0 rootTable = .ok registry ∧
      run MemoryStore.store plainLibraries plainOptions ⟨registry, []⟩ unreachable = some t ∧
      t.exchanges[0]? = some x ∧ x.answers = [.page 503 "/"] ∧ x.counts ≠ []) ∧
    .proxyRequest 503 ∈ x.log ∧ x.counts = [if x.session.isUpgradeReq then .wsRequest
      else .webRequest] := by
  refine Exists.imp (fun registry => Exists.imp fun t => Exists.imp fun x h => ⟨h, ?_⟩)
    ⟨_, _, _, rfl, rfl, rfl, rfl, List.cons_ne_nil _ _⟩
  obtain ⟨-, hrun, hx, hpage, hcounts⟩ := h
  obtain ⟨hanswered, hcounted⟩ := answered_and_counted_once hrun hx
  rw [hpage] at hanswered
  rcases hanswered with hnil | ⟨-, answer, hone, hrecorded⟩
  · cases hnil
  · obtain rfl := (List.cons.inj hone).1
    refine ⟨hrecorded.resolve_left (by simp), hcounted.resolve_right fun hnone => hcounts hnone.1⟩

end DataPlane

end ChpProxy
