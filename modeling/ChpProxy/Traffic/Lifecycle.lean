import ChpProxy.Lib.Census
import ChpProxy.Lib.Transition
import ChpProxy.Registry.Tracked

/-! `TrafficLifecycle` and the requests it admits, with one step for each atomic operation. -/
namespace ChpProxy

structure TrafficLifecycle where
  accepting : Bool
  active : ℕ
  acceptsStopped : Bool
  overReleases : ℕ
  deriving DecidableEq

/-- A call of `finish` before its first load, or before its next exchange. -/
inductive FinishPhase where
  | loading
  | exchanging (observed : ℕ)
  deriving DecidableEq

/-- A request in `request_filter`, between its callbacks, or in `release_traffic_admission`, which
its logging callback and its destructor call. -/
inductive TrafficPhase where
  | fresh
  | entered
  | incrementing
  | confirming
  | undoing (finish : FinishPhase)
  | handled
  | releasing (finish : FinishPhase) (dropping : Bool)
  | dropped
  deriving DecidableEq

/-- The part of `RequestContext` that the lifecycle concerns. -/
structure RequestContext where
  trafficAdmission : Bool
  phase : TrafficPhase
  deriving DecidableEq

namespace RequestContext

/-- The request has a token whose release has not taken effect. -/
def holdsToken (ctx : RequestContext) : Bool :=
  ctx.trafficAdmission || match ctx.phase with
    | .releasing .. => true
    | _ => false

/-- The request is between the increment and the outcome of `try_admit`. -/
def undecided (ctx : RequestContext) : Bool :=
  match ctx.phase with
  | .confirming | .undoing _ => true
  | _ => false

/-- A call of the request is on the stack of some thread. -/
def busy (ctx : RequestContext) : Bool :=
  match ctx.phase with
  | .fresh | .handled | .dropped => false
  | _ => true

end RequestContext

/-- The calls that can be in progress: each has a frame in the address space. -/
def maxCalls : ℕ := 2 ^ 63 - 1

structure Traffic where
  lifecycle : TrafficLifecycle
  requests : List RequestContext
  acknowledging : ℕ
  deriving DecidableEq

/-- `finish r spurious` is the next atomic operation of a `finish` call, and `release` and `drop`
take the token first. -/
inductive TrafficAction where
  | request
  | tryAdmit (r : ℕ)
  | check (r : ℕ)
  | increment (r : ℕ)
  | confirm (r : ℕ)
  | finish (r : ℕ) (spurious : Bool)
  | release (r : ℕ)
  | drop (r : ℕ)
  | stopAccepting
  | acknowledge
  deriving DecidableEq

namespace TrafficLifecycle

def default : TrafficLifecycle := ⟨true, 0, false, 0⟩

/-- The head of the loop in `finish`; `none` when the call returns. -/
def loop (t : TrafficLifecycle) (active : ℕ) : TrafficLifecycle × Option FinishPhase :=
  if active ≠ 0 then (t, some (.exchanging active))
  else ({ t with overReleases := t.overReleases + 1 }, none)

/-- One atomic operation of `finish`. The weak exchange may fail although the value matches. -/
def finish (t : TrafficLifecycle) (phase : FinishPhase) (spurious : Bool) :
    TrafficLifecycle × Option FinishPhase :=
  match phase with
  | .loading => t.loop t.active
  | .exchanging observed =>
    if t.active = observed ∧ spurious = false then ({ t with active := observed - 1 }, none)
    else t.loop t.active

def increment (t : TrafficLifecycle) : TrafficLifecycle :=
  { t with active := (t.active + 1) % 2 ^ 64 }

end TrafficLifecycle

namespace Traffic

def start : Traffic := ⟨.default, [], 0⟩

def tokens (s : Traffic) : ℕ := s.requests.countP (·.holdsToken)

def undecided (s : Traffic) : ℕ := s.requests.countP (·.undecided)

def calls (s : Traffic) : ℕ := s.requests.countP (·.busy)

def set (s : Traffic) (r : ℕ) (ctx : RequestContext) : Traffic :=
  { s with requests := s.requests.set r ctx }

/-- `RequestContext::release_traffic_admission` up to its call of `finish`. -/
def releaseTrafficAdmission (s : Traffic) (r : ℕ) (ctx : RequestContext) (dropping : Bool) :
    Option Traffic :=
  if ctx.trafficAdmission then
    if s.calls + 1 ≤ maxCalls then some (s.set r ⟨false, .releasing .loading dropping⟩) else none
  else some (s.set r { ctx with phase := if dropping then .dropped else ctx.phase })

/-- A step of one request. A token holds a reference to the lifecycle, so that storing one more
than an `Arc` can count aborts the process. -/
def stepRequest (s : Traffic) (r : ℕ) (ctx : RequestContext) : TrafficAction → Option Traffic
  | .tryAdmit _ => match ctx.phase with
    | .fresh => if s.calls + 1 ≤ maxCalls then some (s.set r { ctx with phase := .entered }) else none
    | _ => none
  | .check _ => match ctx.phase with
    | .entered =>
      some (s.set r { ctx with phase := if s.lifecycle.accepting then .incrementing else .handled })
    | _ => none
  | .increment _ => match ctx.phase with
    | .incrementing => some
      { s.set r { ctx with phase := .confirming } with lifecycle := s.lifecycle.increment }
    | _ => none
  | .confirm _ => match ctx.phase with
    | .confirming =>
      if s.lifecycle.accepting then
        if s.tokens + 1 ≤ maxReferences then some (s.set r ⟨true, .handled⟩) else none
      else some (s.set r { ctx with phase := .undoing .loading })
    | _ => none
  | .finish _ spurious => match ctx.phase with
    | .undoing phase => match s.lifecycle.finish phase spurious with
      | (lifecycle, some phase) =>
        some { s.set r { ctx with phase := .undoing phase } with lifecycle := lifecycle }
      | (lifecycle, none) =>
        some { s.set r { ctx with phase := .handled } with lifecycle := lifecycle }
    | .releasing phase dropping => match s.lifecycle.finish phase spurious with
      | (lifecycle, some phase) =>
        some { s.set r { ctx with phase := .releasing phase dropping } with lifecycle := lifecycle }
      | (lifecycle, none) => some
        { s.set r { ctx with phase := if dropping then .dropped else .handled } with
          lifecycle := lifecycle }
    | _ => none
  | .release _ => match ctx.phase with
    | .fresh | .handled => s.releaseTrafficAdmission r ctx false
    | _ => none
  | .drop _ => match ctx.phase with
    | .fresh | .handled => s.releaseTrafficAdmission r ctx true
    | _ => none
  | _ => none

def step (s : Traffic) (a : TrafficAction) : Option Traffic :=
  match a with
  | .request => some { s with requests := s.requests ++ [⟨false, .fresh⟩] }
  | .stopAccepting => some
    { s with
      lifecycle := { s.lifecycle with accepting := false }
      acknowledging := s.acknowledging + 1 }
  | .acknowledge =>
    if 0 < s.acknowledging then some
      { s with
        lifecycle := { s.lifecycle with acceptsStopped := true }
        acknowledging := s.acknowledging - 1 }
    else none
  | .tryAdmit r | .check r | .increment r | .confirm r | .finish r _ | .release r | .drop r =>
    (s.requests[r]?).bind (s.stepRequest r · a)

abbrev run : Traffic → List TrafficAction → Option Traffic := Transition.run step

/-- The requests whose `try_admit` returns true in a step. -/
def admissions (s : Traffic) : TrafficAction → List ℕ
  | .confirm r => if s.lifecycle.accepting then [r] else []
  | _ => []

/-- What the steps of one request can do to it and to the lifecycle. -/
inductive Move (s : Traffic) (ctx : RequestContext) :
    TrafficAction → RequestContext → TrafficLifecycle → Prop
  | enter (r : ℕ) (hp : ctx.phase = .fresh) (hc : s.calls + 1 ≤ maxCalls) :
      Move s ctx (.tryAdmit r) { ctx with phase := .entered } s.lifecycle
  | refused (r : ℕ) (hp : ctx.phase = .entered) (ha : s.lifecycle.accepting = false) :
      Move s ctx (.check r) { ctx with phase := .handled } s.lifecycle
  | passed (r : ℕ) (hp : ctx.phase = .entered) (ha : s.lifecycle.accepting = true) :
      Move s ctx (.check r) { ctx with phase := .incrementing } s.lifecycle
  | increment (r : ℕ) (hp : ctx.phase = .incrementing) :
      Move s ctx (.increment r) { ctx with phase := .confirming } s.lifecycle.increment
  | admitted (r : ℕ) (hp : ctx.phase = .confirming) (ha : s.lifecycle.accepting = true)
      (ht : s.tokens + 1 ≤ maxReferences) :
      Move s ctx (.confirm r) ⟨true, .handled⟩ s.lifecycle
  | undo (r : ℕ) (hp : ctx.phase = .confirming) (ha : s.lifecycle.accepting = false) :
      Move s ctx (.confirm r) { ctx with phase := .undoing .loading } s.lifecycle
  | undoing (r : ℕ) (spurious : Bool) (phase : FinishPhase) (lifecycle : TrafficLifecycle)
      (next : Option FinishPhase) (hp : ctx.phase = .undoing phase)
      (hf : s.lifecycle.finish phase spurious = (lifecycle, next)) :
      Move s ctx (.finish r spurious) { ctx with phase := next.elim .handled .undoing } lifecycle
  | releasing (r : ℕ) (spurious dropping : Bool) (phase : FinishPhase)
      (lifecycle : TrafficLifecycle) (next : Option FinishPhase)
      (hp : ctx.phase = .releasing phase dropping)
      (hf : s.lifecycle.finish phase spurious = (lifecycle, next)) :
      Move s ctx (.finish r spurious)
        { ctx with
          phase := next.elim (if dropping then .dropped else .handled) (.releasing · dropping) }
        lifecycle
  | take (a : TrafficAction) (dropping : Bool) (hp : ctx.phase = .fresh ∨ ctx.phase = .handled)
      (ht : ctx.trafficAdmission = true) (hc : s.calls + 1 ≤ maxCalls)
      (ha : ∀ r, a ≠ .confirm r) :
      Move s ctx a ⟨false, .releasing .loading dropping⟩ s.lifecycle
  | taken (a : TrafficAction) (dropping : Bool) (hp : ctx.phase = .fresh ∨ ctx.phase = .handled)
      (ht : ctx.trafficAdmission = false) (ha : ∀ r, a ≠ .confirm r) :
      Move s ctx a { ctx with phase := if dropping then .dropped else ctx.phase } s.lifecycle

inductive Step (s : Traffic) : TrafficAction → Traffic → Prop
  | request : Step s .request { s with requests := s.requests ++ [⟨false, .fresh⟩] }
  | stopAccepting : Step s .stopAccepting
      { s with
        lifecycle := { s.lifecycle with accepting := false }
        acknowledging := s.acknowledging + 1 }
  | acknowledge : Step s .acknowledge
      { s with
        lifecycle := { s.lifecycle with acceptsStopped := true }
        acknowledging := s.acknowledging - 1 }
  | move (r : ℕ) (ctx ctx' : RequestContext) (a : TrafficAction) (lifecycle : TrafficLifecycle)
      (hr : s.requests[r]? = some ctx) (hm : Move s ctx a ctx' lifecycle) :
      Step s a { s.set r ctx' with lifecycle := lifecycle }

variable {s s' : Traffic} {a : TrafficAction}

theorem release_cases {r : ℕ} {ctx : RequestContext} {dropping : Bool}
    (hr : s.requests[r]? = some ctx) (hp : ctx.phase = .fresh ∨ ctx.phase = .handled)
    (ha : ∀ r, a ≠ .confirm r)
    (h : s.releaseTrafficAdmission r ctx dropping = some s') : Step s a s' := by
  unfold releaseTrafficAdmission at h
  split_ifs at h with ht hc
  · cases h
    exact .move r ctx _ a s.lifecycle hr (.take a dropping hp ht hc ha)
  · cases h
    exact .move r ctx _ a s.lifecycle hr (.taken a true hp (by simpa using ht) ha)
  · cases h
    exact .move r ctx _ a s.lifecycle hr (.taken a false hp (by simpa using ht) ha)

theorem request_cases {r : ℕ} {ctx : RequestContext} (hr : s.requests[r]? = some ctx)
    (h : s.stepRequest r ctx a = some s') : Step s a s' := by
  cases a with
  | tryAdmit r' =>
    simp only [stepRequest] at h
    split at h
    · next hp =>
      split_ifs at h with hc
      cases h
      exact .move r ctx _ _ s.lifecycle hr (.enter r' hp hc)
    · cases h
  | check r' =>
    simp only [stepRequest] at h
    split at h
    · next hp =>
      cases ha : s.lifecycle.accepting with
      | true =>
        rw [ha] at h
        cases h
        exact .move r ctx _ _ s.lifecycle hr (.passed r' hp ha)
      | false =>
        rw [ha] at h
        cases h
        exact .move r ctx _ _ s.lifecycle hr (.refused r' hp ha)
    · cases h
  | increment r' =>
    simp only [stepRequest] at h
    split at h
    · next hp =>
      cases h
      exact .move r ctx _ _ _ hr (.increment r' hp)
    · cases h
  | confirm r' =>
    simp only [stepRequest] at h
    split at h
    · next hp =>
      split_ifs at h with ha ht
      · cases h
        exact .move r ctx _ _ s.lifecycle hr (.admitted r' hp ha ht)
      · cases h
        exact .move r ctx _ _ s.lifecycle hr (.undo r' hp (by simpa using ha))
    · cases h
  | finish r' spurious =>
    simp only [stepRequest] at h
    split at h
    · next phase hp =>
      split at h
      · next lifecycle next hf =>
        cases h
        exact .move r ctx _ _ _ hr (.undoing r' spurious phase lifecycle (some next) hp hf)
      · next lifecycle hf =>
        cases h
        exact .move r ctx _ _ _ hr (.undoing r' spurious phase lifecycle none hp hf)
    · next phase dropping hp =>
      split at h
      · next lifecycle next hf =>
        cases h
        exact .move r ctx _ _ _ hr
          (.releasing r' spurious dropping phase lifecycle (some next) hp hf)
      · next lifecycle hf =>
        cases h
        exact .move r ctx _ _ _ hr (.releasing r' spurious dropping phase lifecycle none hp hf)
    · cases h
  | release r' =>
    simp only [stepRequest] at h
    split at h
    · next hp => exact release_cases hr (.inl hp) nofun h
    · next hp => exact release_cases hr (.inr hp) nofun h
    · cases h
  | drop r' =>
    simp only [stepRequest] at h
    split at h
    · next hp => exact release_cases hr (.inl hp) nofun h
    · next hp => exact release_cases hr (.inr hp) nofun h
    · cases h
  | request => cases h
  | stopAccepting => cases h
  | acknowledge => cases h

theorem step_cases (h : s.step a = some s') : Step s a s' := by
  cases a with
  | request =>
    cases h
    exact .request
  | stopAccepting =>
    cases h
    exact .stopAccepting
  | acknowledge =>
    simp only [step] at h
    split_ifs at h
    cases h
    exact .acknowledge
  | tryAdmit r | check r | increment r | confirm r | finish r _ | release r | drop r =>
    obtain ⟨ctx, hr, h⟩ := Option.bind_eq_some_iff.mp h
    exact request_cases hr h

end Traffic

end ChpProxy
