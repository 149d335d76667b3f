import ChpProxy.Lib.Notify

/-! `ManagementLifecycle`: how the management listener stops, with one step for each atomic operation
of the shutdown signal, of the accept loop and of the tasks that wait for it. The accept loop is the
one that `axum::serve` runs with a graceful shutdown. -/
namespace ChpProxy

/-- The two flags, and the calls of `notify_waiters` on the `Notify` of each. -/
structure ManagementLifecycle where
  stopRequested : Bool
  acceptsStopped : Bool
  stopChanged : ℕ
  stoppedChanged : ℕ
  deriving DecidableEq

/-- `shutdown_signal`: in `wait_for_shutdown`, before and between the operations of `request_stop`,
and in `wait_for_accepts_stopped`. -/
inductive SignalPhase where
  | watching
  | requesting
  | notifying
  | waiting (w : Notify.Waiter)
  deriving DecidableEq

/-- The accept loop. A call of `ManagedListener::accept` selects between `wait_for_stop_requested`
and the inner listener, in this order on each poll; `polling` is after the first found nothing. -/
inductive AcceptPhase where
  | selecting (w : Notify.Waiter)
  | polling (seen : ℕ)
  | handling
  | acknowledged
  | pending
  | ended
  deriving DecidableEq

structure Management where
  lifecycle : ManagementLifecycle
  signal : SignalPhase
  acceptor : AcceptPhase
  observers : List Notify.Waiter
  deriving DecidableEq

/-- `accept` and `park` are the two answers of the inner listener, `handled` ends the hand-over of a
connection, and `close` is the accept loop seeing that the signal has completed. -/
inductive ManagementAction where
  | shutdown
  | requestStop
  | notifyStop
  | signal
  | poll
  | accept
  | park
  | handled
  | acknowledge
  | notifyStopped
  | close
  | observe (i : ℕ)
  deriving DecidableEq

namespace SignalPhase

def requested : SignalPhase → Bool
  | .notifying | .waiting _ => true
  | _ => false

def waiter : SignalPhase → Notify.Waiter
  | .waiting w => w
  | _ => .idle

/-- The operations left before the signal completes, once it has requested the stop. -/
def rank (stopped : Bool) : SignalPhase → ℕ
  | .waiting w => w.rank stopped
  | _ => 6

end SignalPhase

namespace AcceptPhase

def stopped : AcceptPhase → Bool
  | .acknowledged | .pending | .ended => true
  | _ => false

def waiter : AcceptPhase → Notify.Waiter
  | .selecting w => w
  | .polling seen => .asleep seen
  | _ => .idle

/-- The operations left before the loop ends, once the stop is requested. -/
def rank : AcceptPhase → ℕ
  | .selecting (.asleep _) | .polling _ => 7
  | .handling => 6
  | .selecting w => 3 + w.rank true
  | .acknowledged => 2
  | .pending => 1
  | .ended => 0

/-- The connections that the loop can still hand out, once the stop is requested. -/
def chances : AcceptPhase → ℕ
  | .selecting (.asleep _) | .polling _ => 1
  | _ => 0

end AcceptPhase

namespace Management

def start (n : ℕ) : Management :=
  ⟨⟨false, false, 0, 0⟩, .watching, .selecting .idle, List.replicate n .idle⟩

def waitForAcceptsStopped (s : Management) (w : Notify.Waiter) : Option Notify.Waiter :=
  w.step s.lifecycle.stoppedChanged s.lifecycle.acceptsStopped

def waitForStopRequested (s : Management) (w : Notify.Waiter) : Option Notify.Waiter :=
  w.step s.lifecycle.stopChanged s.lifecycle.stopRequested

def step (s : Management) : ManagementAction → Option Management
  | .shutdown => match s.signal with
    | .watching => some { s with signal := .requesting }
    | _ => none
  | .requestStop => match s.signal with
    | .requesting => some
      { s with lifecycle := { s.lifecycle with stopRequested := true }, signal := .notifying }
    | _ => none
  | .notifyStop => match s.signal with
    | .notifying => some
      { s with
        lifecycle := { s.lifecycle with stopChanged := s.lifecycle.stopChanged + 1 }
        signal := .waiting .idle }
    | _ => none
  | .signal => match s.signal with
    | .waiting w => (s.waitForAcceptsStopped w).map ({ s with signal := .waiting · })
    | _ => none
  | .poll => match s.acceptor with
    | .selecting w => match s.waitForStopRequested w with
      | some w' => some { s with acceptor := .selecting w' }
      | none => match w with
        | .asleep seen => some { s with acceptor := .polling seen }
        | _ => none
    | _ => none
  | .accept => match s.acceptor with
    | .polling _ => some { s with acceptor := .handling }
    | _ => none
  | .park => match s.acceptor with
    | .polling seen => some { s with acceptor := .selecting (.asleep seen) }
    | _ => none
  | .handled => match s.acceptor with
    | .handling => some { s with acceptor := .selecting .idle }
    | _ => none
  | .acknowledge => match s.acceptor with
    | .selecting .returned => some
      { s with
        lifecycle := { s.lifecycle with acceptsStopped := true }
        acceptor := .acknowledged }
    | _ => none
  | .notifyStopped => match s.acceptor with
    | .acknowledged => some
      { s with
        lifecycle := { s.lifecycle with stoppedChanged := s.lifecycle.stoppedChanged + 1 }
        acceptor := .pending }
    | _ => none
  | .close => match s.signal, s.acceptor with
    | .waiting .returned, .selecting _ | .waiting .returned, .pending =>
      some { s with acceptor := .ended }
    | _, _ => none
  | .observe i => (s.observers[i]?).bind fun w =>
    (s.waitForAcceptsStopped w).map fun w' => { s with observers := s.observers.set i w' }

abbrev run : Management → List ManagementAction → Option Management := Transition.run step

/-- A poll of the accept loop that finds neither a stop nor a connection. -/
def idles (s : Management) : ManagementAction → Bool
  | .poll => s.acceptor.waiter = .asleep s.lifecycle.stopChanged
  | .park => true
  | _ => false

def connections (s : Management) (as : List ManagementAction) : ℕ :=
  (Transition.trace step (fun _ a => if a = .accept then [()] else []) s as).length

/-- The operations of a run other than the two of an idle poll. -/
def moves (s : Management) (as : List ManagementAction) : ℕ :=
  (Transition.trace step (fun u a => if u.idles a then [] else [()]) s as).length

structure Finished (s : Management) : Prop where
  acceptsStopped : s.lifecycle.acceptsStopped = true
  signal : s.signal = .waiting .returned
  acceptor : s.acceptor = .ended
  observers : ∀ w ∈ s.observers, w = .returned

inductive Step (s : Management) : ManagementAction → Management → Prop
  | shutdown (hs : s.signal = .watching) : Step s .shutdown { s with signal := .requesting }
  | requestStop (hs : s.signal = .requesting) : Step s .requestStop
      { s with lifecycle := { s.lifecycle with stopRequested := true }, signal := .notifying }
  | notifyStop (hs : s.signal = .notifying) : Step s .notifyStop
      { s with
        lifecycle := { s.lifecycle with stopChanged := s.lifecycle.stopChanged + 1 }
        signal := .waiting .idle }
  | signal (w w' : Notify.Waiter) (hs : s.signal = .waiting w)
      (hw : s.waitForAcceptsStopped w = some w') : Step s .signal { s with signal := .waiting w' }
  | poll (w w' : Notify.Waiter) (ha : s.acceptor = .selecting w)
      (hw : s.waitForStopRequested w = some w') : Step s .poll { s with acceptor := .selecting w' }
  | turn (seen : ℕ) (ha : s.acceptor = .selecting (.asleep seen))
      (hseen : seen = s.lifecycle.stopChanged) : Step s .poll { s with acceptor := .polling seen }
  | accept (seen : ℕ) (ha : s.acceptor = .polling seen) :
      Step s .accept { s with acceptor := .handling }
  | park (seen : ℕ) (ha : s.acceptor = .polling seen) :
      Step s .park { s with acceptor := .selecting (.asleep seen) }
  | handled (ha : s.acceptor = .handling) : Step s .handled { s with acceptor := .selecting .idle }
  | acknowledge (ha : s.acceptor = .selecting .returned) : Step s .acknowledge
      { s with
        lifecycle := { s.lifecycle with acceptsStopped := true }
        acceptor := .acknowledged }
  | notifyStopped (ha : s.acceptor = .acknowledged) : Step s .notifyStopped
      { s with
        lifecycle := { s.lifecycle with stoppedChanged := s.lifecycle.stoppedChanged + 1 }
        acceptor := .pending }
  | close (hs : s.signal = .waiting .returned)
      (ha : s.acceptor = .pending ∨ ∃ w, s.acceptor = .selecting w) :
      Step s .close { s with acceptor := .ended }
  | observe (i : ℕ) (w w' : Notify.Waiter) (hi : s.observers[i]? = some w)
      (hw : s.waitForAcceptsStopped w = some w') :
      Step s (.observe i) { s with observers := s.observers.set i w' }

variable {s s' : Management} {a : ManagementAction}

theorem poll_cases (h : s.step .poll = some s') : Step s .poll s' := by
  simp only [step] at h
  split at h
  · next w ha =>
    split at h
    · next w' hw =>
      cases h
      exact .poll w w' ha hw
    · next hw =>
      split at h
      · next seen =>
        cases h
        simp only [waitForStopRequested, Notify.Waiter.step] at hw
        split_ifs at hw with hseen
        exact .turn seen ha hseen
      · cases h
  · cases h

theorem step_cases (h : s.step a = some s') : Step s a s' := by
  cases a with
  | poll => exact poll_cases h
  | close =>
    simp only [step] at h
    split at h
    · next w hs ha =>
      cases h
      exact .close hs (.inr ⟨w, ha⟩)
    · next hs ha =>
      cases h
      exact .close hs (.inl ha)
    · cases h
  | signal =>
    simp only [step] at h
    split at h
    · next w hs =>
      obtain ⟨w', hw, rfl⟩ := Option.map_eq_some_iff.mp h
      exact .signal w w' hs hw
    · cases h
  | observe i =>
    obtain ⟨w, hi, hw⟩ := Option.bind_eq_some_iff.mp h
    obtain ⟨w', hw', rfl⟩ := Option.map_eq_some_iff.mp hw
    exact .observe i w w' hi hw'
  | shutdown | requestStop | notifyStop | accept | park | handled | acknowledge | notifyStopped =>
    simp only [step] at h
    split at h
    · next hp =>
      cases h
      constructor
      exact hp
    · cases h

end Management

end ChpProxy
