import ChpProxy.Registry.Diagnostics
import ChpProxy.Registry.Machine

/-! The mutation tracker as a state machine of its own: the guards of admitted mutations are
finished or dropped, and any number of drains collect the diagnostics, in any order. -/
namespace ChpProxy

/-- The guard of an admitted mutation. -/
structure ActiveMutation where
  operation : MutationOperation
  finished : Bool
  deriving DecidableEq

namespace ActiveMutation

def drop (active : ActiveMutation) (tracker : MutationTracker) : MutationTracker :=
  if active.finished then tracker
  else tracker.finish none (some ⟨active.operation, active.operation.terminatedMessage⟩)

/-- Finishing consumes the guard, so its destructor runs when the call ends. -/
def finish (active : ActiveMutation) (failure : Option DetachedMutationFailure)
    (panic : Option DetachedMutationPanic) (tracker : MutationTracker) : MutationTracker :=
  { active with finished := true }.drop (tracker.finish failure panic)

end ActiveMutation

/-- The references that an `Arc` can count; cloning it once more aborts the process. -/
def maxReferences : ℕ := 2 ^ 63 - 1

/-- The tracker with every guard it gave out, `none` once the guard is consumed, and every call of
`seal_and_drain`. -/
structure Tracked where
  tracker : MutationTracker
  guards : List (Option ActiveMutation)
  drains : List Drain

inductive TrackerAction where
  | begin (operation : MutationOperation)
  | finish (g : ℕ) (failure : Option DetachedMutationFailure) (panic : Option DetachedMutationPanic)
  | drop (g : ℕ)
  | panicSeal
  | indeterminateSeal
  | drain
  | pollDrain (d : ℕ)
  | deadline (d : ℕ)

/-- The action consumes guard `g`. -/
def TrackerAction.releases (g : ℕ) : TrackerAction → Bool
  | .finish g' _ _ | .drop g' => g' = g
  | _ => false

namespace Tracked

def start : Tracked := ⟨.default, [], []⟩

/-- The guards that are neither finished nor dropped. -/
def live (s : Tracked) : ℕ := s.guards.countP (·.isSome)

/-- Admit a mutation. Its guard holds a reference to the tracker besides the registry's own. -/
def begin (s : Tracked) (operation : MutationOperation) : Option Tracked :=
  match s.tracker.begin with
  | .ok tracker =>
    if s.live + 1 ≤ maxReferences then
      some { s with tracker := tracker, guards := s.guards ++ [some ⟨operation, false⟩] }
    else none
  | .error _ => some s

def release (s : Tracked) (g : ℕ) (f : ActiveMutation → MutationTracker → MutationTracker) :
    Option Tracked :=
  (s.guards[g]?.join).map fun active =>
    { s with tracker := f active s.tracker, guards := s.guards.set g none }

/-- The critical section in which `seal_and_drain` seals and looks for the first time. -/
def drain (s : Tracked) : Tracked :=
  match s.tracker.shutdownSeal.pollDrain with
  | some (outcome, tracker) =>
    { s with tracker := tracker, drains := s.drains ++ [.returned outcome] }
  | none => { s with tracker := s.tracker.shutdownSeal, drains := s.drains ++ [.waiting] }

/-- The waiting call `d` returns. -/
def conclude (s : Tracked) (d : ℕ) (result : MutationDrainOutcome × MutationTracker) : Tracked :=
  { s with tracker := result.2, drains := s.drains.set d (.returned result.1) }

def step (s : Tracked) : TrackerAction → Option Tracked
  | .begin operation => s.begin operation
  | .finish g failure panic => s.release g (·.finish failure panic)
  | .drop g => s.release g ActiveMutation.drop
  | .panicSeal => some { s with tracker := s.tracker.panicSeal }
  | .indeterminateSeal => some { s with tracker := s.tracker.indeterminateSeal }
  | .drain => some s.drain
  | .pollDrain d => match s.drains[d]? with
    | some .waiting => s.tracker.pollDrain.map (s.conclude d)
    | _ => none
  | .deadline d => match s.drains[d]? with
    | some .waiting => some (s.conclude d s.tracker.deadline)
    | _ => none

abbrev run : Tracked → List TrackerAction → Option Tracked := Transition.run step

/-- The diagnostics that an action pushes and the outcome it returns. -/
def records (s : Tracked) :
    TrackerAction → List (Ledger.Event DetachedMutationDiagnostic MutationDrainOutcome)
  | .finish _ failure panic =>
    failure.toList.map (.entry <| .failure ·) ++ panic.toList.map (.entry <| .panic ·)
  | .drop g => (s.guards[g]?.join).toList.map fun active =>
    .entry (.panic ⟨active.operation, active.operation.terminatedMessage⟩)
  | .drain => s.tracker.shutdownSeal.pollDrain.toList.map (.report ·.1)
  | .pollDrain _ => s.tracker.pollDrain.toList.map (.report ·.1)
  | .deadline _ => [.report s.tracker.deadline.1]
  | .begin _ | .panicSeal | .indeterminateSeal => []

/-- What one step of the tracker can do. -/
inductive Step (s : Tracked) : TrackerAction → Tracked → Prop
  | accept (operation : MutationOperation) (ho : s.tracker.sealState = .open)
      (hl : s.live + 1 ≤ maxReferences) :
      Step s (.begin operation) { s with
        tracker := { s.tracker with active := saturatingAdd s.tracker.active 1 }
        guards := s.guards ++ [some ⟨operation, false⟩] }
  | refuse (operation : MutationOperation) : Step s (.begin operation) s
  | finish (g : ℕ) (active : ActiveMutation) (failure : Option DetachedMutationFailure)
      (panic : Option DetachedMutationPanic) (hg : s.guards[g]? = some (some active)) :
      Step s (.finish g failure panic)
        { s with tracker := s.tracker.finish failure panic, guards := s.guards.set g none }
  | drop (g : ℕ) (active : ActiveMutation) (hg : s.guards[g]? = some (some active)) :
      Step s (.drop g)
        { s with tracker := active.drop s.tracker, guards := s.guards.set g none }
  | panicSeal : Step s .panicSeal { s with tracker := s.tracker.panicSeal }
  | indeterminateSeal :
      Step s .indeterminateSeal { s with tracker := s.tracker.indeterminateSeal }
  | wait (ha : s.tracker.active ≠ 0) :
      Step s .drain
        { s with tracker := s.tracker.shutdownSeal, drains := s.drains ++ [.waiting] }
  | drained (ha : s.tracker.active = 0) :
      Step s .drain { s with
        tracker := (s.tracker.shutdownSeal.takeOutcome false).2
        drains := s.drains ++ [.returned (s.tracker.shutdownSeal.takeOutcome false).1] }
  | polled (d : ℕ) (hd : s.drains[d]? = some .waiting) (ha : s.tracker.active = 0) :
      Step s (.pollDrain d) (s.conclude d (s.tracker.takeOutcome false))
  | expired (d : ℕ) (hd : s.drains[d]? = some .waiting) :
      Step s (.deadline d) (s.conclude d s.tracker.deadline)

variable {s s' : Tracked} {a : TrackerAction} {as : List TrackerAction}

theorem active_shutdownSeal (t : MutationTracker) : t.shutdownSeal.active = t.active := by
  unfold MutationTracker.shutdownSeal
  split_ifs <;> rfl

theorem sealState_shutdownSeal (t : MutationTracker) : t.shutdownSeal.sealState ≠ .open := by
  unfold MutationTracker.shutdownSeal
  split_ifs with h
  · nofun
  · exact h

theorem step_cases (h : s.step a = some s') : Step s a s' := by
  cases a with
  | begin operation =>
    simp only [step, begin] at h
    split at h
    · next tracker ht =>
      split_ifs at h with hl
      obtain ⟨ho, rfl⟩ := MutationTracker.begin_eq_ok ht
      cases h
      exact .accept operation ho hl
    · cases h
      exact .refuse operation
  | finish g failure panic =>
    obtain ⟨active, hg, rfl⟩ := Option.map_eq_some_iff.mp h
    exact .finish g active failure panic (Option.join_eq_some_iff.mp hg)
  | drop g =>
    obtain ⟨active, hg, rfl⟩ := Option.map_eq_some_iff.mp h
    exact .drop g active (Option.join_eq_some_iff.mp hg)
  | panicSeal =>
    cases h
    exact .panicSeal
  | indeterminateSeal =>
    cases h
    exact .indeterminateSeal
  | drain =>
    cases h
    unfold drain
    have hactive := active_shutdownSeal s.tracker
    split
    · next outcome tracker hp =>
      obtain ⟨ha, hr⟩ := MutationTracker.pollDrain_eq_some hp
      cases hr
      exact .drained (hactive ▸ ha)
    · next hp =>
      refine .wait fun ha => ?_
      simp [MutationTracker.pollDrain, hactive, ha] at hp
  | pollDrain d =>
    simp only [step] at h
    split at h
    · next hd =>
      obtain ⟨r, hp, rfl⟩ := Option.map_eq_some_iff.mp h
      obtain ⟨ha, rfl⟩ := MutationTracker.pollDrain_eq_some hp
      exact .polled d hd ha
    · cases h
  | deadline d =>
    simp only [step] at h
    split at h
    · next hd =>
      cases h
      exact .expired d hd
    · cases h

end Tracked

end ChpProxy
