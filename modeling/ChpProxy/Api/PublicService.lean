import ChpProxy.Lib.Transition
import ChpProxy.Lib.Census

/-! `PreboundPublicService::start_service` with `run_public_service_future`, from the first poll to
the return or the cancellation at an await, and with the Pingora service that it hands its listening
descriptor to. That service blocks on the descriptor table, takes the descriptor over, and runs the
endpoint tasks, which share the listener. -/
namespace ChpProxy

/-- What a descriptor number of the process refers to. -/
inductive OpenFile where
  | listener
  | foreign
  deriving DecidableEq

/-- Who will close the descriptor: an `OwnedFd`, nobody but the armed handoff guard, or the listener
that Pingora made of it. -/
inductive DescriptorOwner where
  | descriptor
  | raw
  | listener
  | gone
  deriving DecidableEq

/-- The number of the listening socket in the descriptor table, with everything that a `close` of
this number by the service has hit. -/
structure Descriptor where
  slot : Option OpenFile
  owner : DescriptorOwner
  closed : List (Option OpenFile)
  deriving DecidableEq

/-- `ServiceReadyNotifier` inside its `FailClosedReadyNotifier`. -/
inductive ReadyNotifier where
  | held
  | forgotten
  | sent
  deriving DecidableEq

/-- The channels of `bridge_public_shutdown`: the value and the state of the upstream one, whether
the relay task runs, and the version and the value of the downstream one. -/
structure ShutdownBridge where
  upstream : Bool
  disconnected : Bool
  relay : Bool
  version : ℕ
  value : Bool
  deriving DecidableEq

/-- A task in `run_endpoint`. -/
structure Endpoint where
  seen : ℕ
  running : Bool
  deriving DecidableEq

inductive PublicServiceOutcome where
  | failedBeforeReady
  | panickedAfterReady
  | exited
  deriving DecidableEq

/-- `built` is between the second poll of the service and `disarm`; its argument says whether the
service is pending. If all endpoint tasks end within that poll and the service completes, then the
listener is closed and nothing is pending, as where no endpoint was built. -/
inductive PublicPhase where
  | entered
  | lockingAdoption
  | lockingTable
  | arming
  | armed
  | transferred
  | polled
  | building
  | built (serving : Bool)
  | verifying
  | awaiting
  | finishing (outcome : PublicServiceOutcome)
  | closing (outcome : PublicServiceOutcome)
  | returned
  | cancelled
  deriving DecidableEq

structure PublicService where
  phase : PublicPhase
  descriptor : Descriptor
  armed : Bool
  bridge : ShutdownBridge
  endpoints : List Endpoint
  notifier : ReadyNotifier
  acknowledged : ℕ
  startupFailed : Bool
  deriving DecidableEq

/-- `reuse` and `release` are other threads opening and closing a file under the same number. -/
inductive PublicAction where
  | check (accepted : Bool)
  | lockAdoption
  | lockTable
  | arm
  | transfer
  | poll (blocked : Bool)
  | adopt
  | build (endpoints : Option ℕ)
  | disarm
  | verify (entryMatches : Bool)
  | join (panicked : Bool)
  | finish
  | close
  | cancel
  | shutdown
  | disconnect
  | relay
  | endpoint (i : ℕ)
  | crash (i : ℕ)
  | reuse
  | release
  deriving DecidableEq

namespace Descriptor

def close (d : Descriptor) : Descriptor := ⟨none, .gone, d.closed ++ [d.slot]⟩

/-- The destructor of `RawFdHandoffGuard`: it closes what still is the listening socket. -/
def dropHandoff (d : Descriptor) (armed : Bool) : Descriptor :=
  if armed ∧ d.slot = some .listener then d.close else d

end Descriptor

namespace ReadyNotifier

/-- The destructor of `FailClosedReadyNotifier`. -/
def drop : ReadyNotifier → ReadyNotifier
  | .held => .forgotten
  | n => n

def notifyReady : ReadyNotifier → ReadyNotifier
  | .held => .sent
  | n => n

end ReadyNotifier

namespace ShutdownBridge

/-- `send_replace(true)`. -/
def send (b : ShutdownBridge) : ShutdownBridge := { b with version := b.version + 1, value := true }

def dropGuard (b : ShutdownBridge) : ShutdownBridge := { b.send with relay := false }

end ShutdownBridge

namespace PublicService

def start : PublicService :=
  ⟨.entered, ⟨some .listener, .descriptor, []⟩, false, ⟨false, false, false, 0, false⟩, [], .held, 0,
    false⟩

def running (s : PublicService) : ℕ := s.endpoints.countP (·.running)

/-- The locals of `start_service` are dropped: the exit guard acknowledges, and the notifier is
forgotten. -/
def leave (s : PublicService) (phase : PublicPhase) : PublicService :=
  { s with phase := phase, notifier := s.notifier.drop, acknowledged := s.acknowledged + 1 }

def signalStartupFailure (s : PublicService) : PublicService := { s with startupFailed := true }

/-- An endpoint task ends, and with the last one the listener that they share. -/
def stopEndpoint (s : PublicService) (i : ℕ) (e : Endpoint) : PublicService :=
  let endpoints := s.endpoints.set i { e with running := false }
  { s with
    endpoints := endpoints
    descriptor :=
      if endpoints.countP (·.running) = 0 then s.descriptor.close else s.descriptor }

/-- The local `PublicServiceFutureState` is dropped or finished, up to its handoff guard: the service
future, whose endpoint tasks are detached, and the shutdown guard. -/
def dropFuture (s : PublicService) : PublicService := { s with bridge := s.bridge.dropGuard }

def stepService (s : PublicService) : PublicAction → Option PublicService
  | .check accepted => match s.phase with
    | .entered =>
      if accepted then some { s with phase := .lockingAdoption }
      else some ({ s.signalStartupFailure with descriptor := s.descriptor.close }.leave .returned)
    | _ => none
  | .lockAdoption => match s.phase with
    | .lockingAdoption => some { s with phase := .lockingTable }
    | _ => none
  | .lockTable => match s.phase with
    | .lockingTable => some { s with phase := .arming }
    | _ => none
  | .arm => match s.phase with
    | .arming => some { s with phase := .armed, armed := true }
    | _ => none
  | .transfer => match s.phase with
    | .armed => some
      { s with
        phase := .transferred
        descriptor := { s.descriptor with owner := .raw }
        bridge := { s.bridge with relay := true, version := 0, value := s.bridge.upstream } }
    | _ => none
  | .poll blocked => match s.phase with
    | .transferred => some
      { s with phase := if blocked then .polled else .finishing .failedBeforeReady }
    | _ => none
  | .adopt => match s.phase with
    | .polled => some
      { s with phase := .building, descriptor := { s.descriptor with owner := .listener } }
    | _ => none
  | .build endpoints => match s.phase with
    | .building => match endpoints with
      | some (n + 1) => some
        { s with phase := .built true, endpoints := List.replicate (n + 1) ⟨0, true⟩ }
      -- no endpoint, or a failed `expect`: the listener goes with the future
      | _ => some { s with phase := .built false, descriptor := s.descriptor.close }
    | _ => none
  | .disarm => match s.phase with
    | .built serving => some
      { s with
        phase := if serving then .verifying else .finishing .failedBeforeReady
        armed := false }
    | _ => none
  | .verify entryMatches => match s.phase with
    | .verifying =>
      if entryMatches then some
        { s with phase := .awaiting, notifier := s.notifier.notifyReady }
      else some { s with phase := .finishing .failedBeforeReady }
    | _ => none
  | .join panicked => match s.phase with
    | .awaiting =>
      if s.running = 0 then some
        { s with phase := .finishing (if panicked then .panickedAfterReady else .exited) }
      else none
    | _ => none
  | .finish => match s.phase with
    | .finishing outcome => some (s.dropFuture.leave (.closing outcome))
    | _ => none
  | .close => match s.phase with
    | .closing outcome =>
      let s := if outcome ≠ .exited ∨ s.bridge.upstream = false then s.signalStartupFailure else s
      some ({ s with descriptor := s.descriptor.dropHandoff s.armed }.leave .returned)
    | _ => none
  | .cancel => match s.phase with
    | .lockingAdoption | .lockingTable =>
      some ({ s with descriptor := s.descriptor.close }.leave .cancelled)
    | .awaiting => some
      (({ s.dropFuture with descriptor := s.descriptor.dropHandoff s.armed }.leave
        .cancelled).leave .cancelled)
    | _ => none
  | _ => none

def step (s : PublicService) : PublicAction → Option PublicService
  | .shutdown => some { s with bridge := { s.bridge with upstream := true } }
  | .disconnect => some { s with bridge := { s.bridge with disconnected := true } }
  | .relay =>
    if s.bridge.relay ∧ (s.bridge.upstream ∨ s.bridge.disconnected) then
      some { s with bridge := { s.bridge.send with relay := false } }
    else none
  | .endpoint i => (s.endpoints[i]?).bind fun e =>
    if e.running ∧ e.seen < s.bridge.version then
      if s.bridge.value then some (s.stopEndpoint i e)
      else some { s with endpoints := s.endpoints.set i { e with seen := s.bridge.version } }
    else none
  | .crash i => (s.endpoints[i]?).bind fun e =>
    if e.running then some (s.stopEndpoint i e) else none
  | .reuse => match s.descriptor.slot with
    | none => some { s with descriptor := { s.descriptor with slot := some .foreign } }
    | some _ => none
  | .release => match s.descriptor.slot with
    | some .foreign => some { s with descriptor := { s.descriptor with slot := none } }
    | _ => none
  | a => s.stepService a

abbrev run : PublicService → List PublicAction → Option PublicService := Transition.run step

def finished (s : PublicService) : Bool :=
  match s.phase with
  | .returned | .cancelled => true
  | _ => false

inductive Step (s : PublicService) : PublicAction → PublicService → Prop
  | pass (hp : s.phase = .entered) : Step s (.check true) { s with phase := .lockingAdoption }
  | refuse (hp : s.phase = .entered) : Step s (.check false)
      ({ s.signalStartupFailure with descriptor := s.descriptor.close }.leave .returned)
  | lockAdoption (hp : s.phase = .lockingAdoption) :
      Step s .lockAdoption { s with phase := .lockingTable }
  | lockTable (hp : s.phase = .lockingTable) : Step s .lockTable { s with phase := .arming }
  | arm (hp : s.phase = .arming) : Step s .arm { s with phase := .armed, armed := true }
  | transfer (hp : s.phase = .armed) : Step s .transfer
      { s with
        phase := .transferred
        descriptor := { s.descriptor with owner := .raw }
        bridge := { s.bridge with relay := true, version := 0, value := s.bridge.upstream } }
  | blocked (hp : s.phase = .transferred) : Step s (.poll true) { s with phase := .polled }
  | early (hp : s.phase = .transferred) :
      Step s (.poll false) { s with phase := .finishing .failedBeforeReady }
  | adopt (hp : s.phase = .polled) : Step s .adopt
      { s with phase := .building, descriptor := { s.descriptor with owner := .listener } }
  | serve (n : ℕ) (hp : s.phase = .building) : Step s (.build (some (n + 1)))
      { s with phase := .built true, endpoints := List.replicate (n + 1) ⟨0, true⟩ }
  | fail (endpoints : Option ℕ) (hp : s.phase = .building)
      (hn : ∀ n, endpoints ≠ some (n + 1)) : Step s (.build endpoints)
      { s with phase := .built false, descriptor := s.descriptor.close }
  | disarm (serving : Bool) (hp : s.phase = .built serving) : Step s .disarm
      { s with
        phase := if serving then .verifying else .finishing .failedBeforeReady
        armed := false }
  | ready (hp : s.phase = .verifying) : Step s (.verify true)
      { s with phase := .awaiting, notifier := s.notifier.notifyReady }
  | mismatch (hp : s.phase = .verifying) : Step s (.verify false)
      { s with phase := .finishing .failedBeforeReady }
  | join (panicked : Bool) (hp : s.phase = .awaiting) (hr : s.running = 0) :
      Step s (.join panicked)
        { s with phase := .finishing (if panicked then .panickedAfterReady else .exited) }
  | finish (outcome : PublicServiceOutcome) (hp : s.phase = .finishing outcome) :
      Step s .finish (s.dropFuture.leave (.closing outcome))
  | failed (outcome : PublicServiceOutcome) (hp : s.phase = .closing outcome)
      (ho : outcome ≠ .exited ∨ s.bridge.upstream = false) : Step s .close
      ({ s.signalStartupFailure with
        descriptor := s.descriptor.dropHandoff s.armed }.leave .returned)
  | orderly (hp : s.phase = .closing .exited) (hu : s.bridge.upstream = true) : Step s .close
      ({ s with descriptor := s.descriptor.dropHandoff s.armed }.leave .returned)
  | unlock (hp : s.phase = .lockingAdoption ∨ s.phase = .lockingTable) : Step s .cancel
      ({ s with descriptor := s.descriptor.close }.leave .cancelled)
  | abandon (hp : s.phase = .awaiting) : Step s .cancel
      (({ s.dropFuture with descriptor := s.descriptor.dropHandoff s.armed }.leave
        .cancelled).leave .cancelled)
  | shutdown : Step s .shutdown { s with bridge := { s.bridge with upstream := true } }
  | disconnect : Step s .disconnect { s with bridge := { s.bridge with disconnected := true } }
  | relay (hr : s.bridge.relay = true) : Step s .relay
      { s with bridge := { s.bridge.send with relay := false } }
  | stop (a : PublicAction) (i : ℕ) (e : Endpoint) (hi : s.endpoints[i]? = some e)
      (he : e.running = true) : Step s a (s.stopEndpoint i e)
  | look (i : ℕ) (e : Endpoint) (hi : s.endpoints[i]? = some e) (he : e.running = true)
      (hv : s.bridge.value = false) (hseen : e.seen < s.bridge.version) : Step s (.endpoint i)
      { s with endpoints := s.endpoints.set i { e with seen := s.bridge.version } }
  | reuse (hs : s.descriptor.slot = none) : Step s .reuse
      { s with descriptor := { s.descriptor with slot := some .foreign } }
  | release (hs : s.descriptor.slot = some .foreign) : Step s .release
      { s with descriptor := { s.descriptor with slot := none } }

variable {s s' : PublicService} {a : PublicAction}

theorem endpoint_cases {i : ℕ} (h : s.step (.endpoint i) = some s') : Step s (.endpoint i) s' := by
  obtain ⟨e, hi, h⟩ := Option.bind_eq_some_iff.mp h
  split_ifs at h with he hv
  · cases h
    exact .stop _ i e hi he.1
  · cases h
    exact .look i e hi he.1 (by simpa using hv) he.2

theorem close_cases (h : s.step .close = some s') : Step s .close s' := by
  simp only [step, stepService] at h
  split at h
  · next outcome hp =>
    split_ifs at h with ho
    · cases h
      exact .failed outcome hp ho
    · cases h
      obtain ⟨hexited, hup⟩ := not_or.mp ho
      rw [not_not.mp hexited] at hp
      exact .orderly hp (by simpa using hup)
  · cases h

theorem build_cases {endpoints : Option ℕ} (h : s.step (.build endpoints) = some s') :
    Step s (.build endpoints) s' := by
  simp only [step, stepService] at h
  split at h
  · next hp =>
    split at h
    · next n =>
      cases h
      exact .serve n hp
    · next hn =>
      cases h
      exact .fail endpoints hp fun n hs => hn n hs
  · cases h

theorem step_cases (h : s.step a = some s') : Step s a s' := by
  cases a with
  | endpoint i => exact endpoint_cases h
  | close => exact close_cases h
  | build endpoints => exact build_cases h
  | crash i =>
    obtain ⟨e, hi, h⟩ := Option.bind_eq_some_iff.mp h
    split_ifs at h with he
    cases h
    exact .stop _ i e hi he
  | relay =>
    simp only [step] at h
    split_ifs at h with hr
    cases h
    exact .relay hr.1
  | check accepted =>
    simp only [step, stepService] at h
    split at h
    · next hp =>
      cases accepted with
      | true =>
        cases h
        exact .pass hp
      | false =>
        cases h
        exact .refuse hp
    · cases h
  | poll blocked =>
    simp only [step, stepService] at h
    split at h
    · next hp =>
      cases blocked with
      | true =>
        cases h
        exact .blocked hp
      | false =>
        cases h
        exact .early hp
    · cases h
  | verify entryMatches =>
    simp only [step, stepService] at h
    split at h
    · next hp =>
      cases entryMatches with
      | true =>
        cases h
        exact .ready hp
      | false =>
        cases h
        exact .mismatch hp
    · cases h
  | join panicked =>
    simp only [step, stepService] at h
    split at h
    · next hp =>
      by_cases hr : s.running = 0
      · rw [if_pos hr] at h
        cases h
        exact .join panicked hp hr
      · rw [if_neg hr] at h
        cases h
    · cases h
  | cancel =>
    simp only [step, stepService] at h
    split at h
    · next hp =>
      cases h
      exact .unlock (.inl hp)
    · next hp =>
      cases h
      exact .unlock (.inr hp)
    · next hp =>
      cases h
      exact .abandon hp
    · cases h
  | shutdown =>
    cases h
    exact .shutdown
  | disconnect =>
    cases h
    exact .disconnect
  | lockAdoption | lockTable | arm | transfer | adopt | disarm | finish | reuse | release =>
    simp only [step, stepService] at h
    split at h
    · next hp =>
      cases h
      constructor
      exact hp
    · cases h

end PublicService

end ChpProxy
