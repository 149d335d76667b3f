import ChpProxy.Store.Trait

/-! The mutation tracker of `route_table.rs`: admission, the terminal seal, and the bounded ring
of diagnostics for mutations whose caller stopped waiting. Every function is one critical
section of the tracker's state lock. -/
namespace ChpProxy

inductive MutationOperation where
  | add
  | put
  | updateActivity
  | delete
  deriving DecidableEq, Repr

namespace MutationOperation

def name : MutationOperation → String
  | .add => "add"
  | .put => "put"
  | .updateActivity => "activity update"
  | .delete => "delete"

def panicMessage (operation : MutationOperation) : String :=
  "route " ++ operation.name ++ " mutation task panicked"

def terminatedMessage (operation : MutationOperation) : String :=
  "route " ++ operation.name ++ " mutation task terminated unexpectedly"

def noResultMessage (operation : MutationOperation) : String :=
  "route " ++ operation.name ++ " mutation task terminated before returning a result"

def noRuntimeMessage (operation : MutationOperation) : String :=
  "route " ++ operation.name ++ " mutation could not start: Tokio runtime unavailable"

end MutationOperation

structure DetachedMutationFailure where
  operation : MutationOperation
  error : StoreError
  deriving DecidableEq

structure DetachedMutationPanic where
  operation : MutationOperation
  message : String
  deriving DecidableEq

inductive DetachedMutationDiagnostic where
  | failure (failure : DetachedMutationFailure)
  | panic (panic : DetachedMutationPanic)
  deriving DecidableEq

structure MutationDrainOutcome where
  timedOut : Bool
  activeMutations : ℕ
  detachedFailures : List DetachedMutationFailure
  detachedPanics : List DetachedMutationPanic
  droppedDetachedFailures : ℕ
  droppedDetachedPanics : ℕ
  deriving DecidableEq

inductive MutationSeal where
  | open
  | shutdown
  | backendPanic
  | indeterminate
  deriving DecidableEq, Repr

namespace MutationSeal

/-- The seals after which no queued mutation may reach the store. -/
def terminal : MutationSeal → Bool
  | .open | .shutdown => false
  | .backendPanic | .indeterminate => true

end MutationSeal

def mutationAdmissionSealedError : String :=
  "route registry is shutting down; mutation admission is sealed"

def mutationPanicSealedError : String :=
  "route registry is terminally sealed after a backend panic"

def mutationIndeterminateSealedError : String :=
  "route registry is terminally sealed after an indeterminate backend mutation"

def detachedMutationDiagnosticCapacity : ℕ := 256

/-- `usize::saturating_add` on a 64-bit target. -/
def saturatingAdd (a b : ℕ) : ℕ := min (a + b) (2 ^ 64 - 1)

structure MutationTracker where
  sealState : MutationSeal
  active : ℕ
  diagnostics : List DetachedMutationDiagnostic
  droppedDetachedFailures : ℕ
  droppedDetachedPanics : ℕ

namespace MutationTracker

def default : MutationTracker := ⟨.open, 0, [], 0, 0⟩

def begin (t : MutationTracker) : Except StoreError MutationTracker :=
  match t.sealState with
  | .open => .ok { t with active := saturatingAdd t.active 1 }
  | .shutdown => .error (.message mutationAdmissionSealedError)
  | .backendPanic => .error (.message mutationPanicSealedError)
  | .indeterminate => .error (.message mutationIndeterminateSealedError)

/-- Count the oldest entry as dropped when the ring is full. -/
def dropOldest (t : MutationTracker) : MutationTracker :=
  if t.diagnostics.length = detachedMutationDiagnosticCapacity then
    match t.diagnostics with
    | .failure _ :: rest =>
      { t with
        diagnostics := rest
        droppedDetachedFailures := saturatingAdd t.droppedDetachedFailures 1 }
    | .panic _ :: rest =>
      { t with
        diagnostics := rest
        droppedDetachedPanics := saturatingAdd t.droppedDetachedPanics 1 }
    | [] => t
  else t

def pushDiagnostic (t : MutationTracker) (d : DetachedMutationDiagnostic) : MutationTracker :=
  { t.dropOldest with diagnostics := t.dropOldest.diagnostics ++ [d] }

def finish (t : MutationTracker) (failure : Option DetachedMutationFailure)
    (panic : Option DetachedMutationPanic) : MutationTracker :=
  let t := { t with active := t.active - 1 }
  let t := failure.elim t (fun f => t.pushDiagnostic (.failure f))
  panic.elim t (fun p => t.pushDiagnostic (.panic p))

def panicSeal (t : MutationTracker) : MutationTracker := { t with sealState := .backendPanic }

def indeterminateSeal (t : MutationTracker) : MutationTracker := { t with sealState := .indeterminate }

def rejectIfTerminallyFailed (t : MutationTracker) : Except StoreError Unit :=
  match t.sealState with
  | .backendPanic => .error (.message mutationPanicSealedError)
  | .indeterminate => .error (.message mutationIndeterminateSealedError)
  | .open | .shutdown => .ok ()

def isIndeterminate (t : MutationTracker) : Bool := t.sealState = .indeterminate

def takeOutcome (t : MutationTracker) (timedOut : Bool) : MutationDrainOutcome × MutationTracker :=
  ({ timedOut := timedOut
     activeMutations := t.active
     detachedFailures := t.diagnostics.filterMap
       (fun d => match d with | .failure f => some f | .panic _ => none)
     detachedPanics := t.diagnostics.filterMap
       (fun d => match d with | .panic p => some p | .failure _ => none)
     droppedDetachedFailures := t.droppedDetachedFailures
     droppedDetachedPanics := t.droppedDetachedPanics },
   { t with diagnostics := [], droppedDetachedFailures := 0, droppedDetachedPanics := 0 })

/-- The first critical section of `seal_and_drain`. -/
def shutdownSeal (t : MutationTracker) : MutationTracker :=
  if t.sealState = .open then { t with sealState := .shutdown } else t

/-- Return at once when nothing is active, else keep waiting. -/
def pollDrain (t : MutationTracker) : Option (MutationDrainOutcome × MutationTracker) :=
  if t.active = 0 then some (t.takeOutcome false) else none

def deadline (t : MutationTracker) : MutationDrainOutcome × MutationTracker :=
  t.takeOutcome (t.active ≠ 0)

theorem begin_eq_ok {t t' : MutationTracker} (h : t.begin = .ok t') :
    t.sealState = .open ∧ t' = { t with active := saturatingAdd t.active 1 } := by
  unfold begin at h
  split at h
  · next hs => exact ⟨hs, (Except.ok.inj h).symm⟩
  all_goals cases h

@[simp] theorem sealState_dropOldest (t : MutationTracker) : t.dropOldest.sealState = t.sealState := by
  unfold dropOldest
  split_ifs
  · split <;> rfl
  · rfl

@[simp] theorem active_dropOldest (t : MutationTracker) : t.dropOldest.active = t.active := by
  unfold dropOldest
  split_ifs
  · split <;> rfl
  · rfl

@[simp] theorem sealState_pushDiagnostic (t : MutationTracker) (d : DetachedMutationDiagnostic) :
    (t.pushDiagnostic d).sealState = t.sealState := by simp [pushDiagnostic]

@[simp] theorem active_pushDiagnostic (t : MutationTracker) (d : DetachedMutationDiagnostic) :
    (t.pushDiagnostic d).active = t.active := by simp [pushDiagnostic]

@[simp] theorem sealState_finish (t : MutationTracker) (failure : Option DetachedMutationFailure)
    (panic : Option DetachedMutationPanic) : (t.finish failure panic).sealState = t.sealState := by
  cases failure <;> cases panic <;> simp [finish]

@[simp] theorem active_finish (t : MutationTracker) (failure : Option DetachedMutationFailure)
    (panic : Option DetachedMutationPanic) : (t.finish failure panic).active = t.active - 1 := by
  cases failure <;> cases panic <;> simp [finish]

@[simp] theorem sealState_takeOutcome (t : MutationTracker) (timedOut : Bool) :
    (t.takeOutcome timedOut).2.sealState = t.sealState := rfl

@[simp] theorem active_takeOutcome (t : MutationTracker) (timedOut : Bool) :
    (t.takeOutcome timedOut).2.active = t.active := rfl

@[simp] theorem sealState_deadline (t : MutationTracker) : t.deadline.2.sealState = t.sealState := rfl

theorem rejectIfTerminallyFailed_eq_ok_iff (t : MutationTracker) :
    t.rejectIfTerminallyFailed = .ok () ↔ t.sealState.terminal = false := by
  unfold rejectIfTerminallyFailed MutationSeal.terminal
  cases t.sealState <;> simp

theorem rejectIfTerminallyFailed_ordinary {t : MutationTracker} {e : StoreError}
    (h : t.rejectIfTerminallyFailed = .error e) :
    t.sealState.terminal = true ∧ e.isIndeterminate = false := by
  unfold rejectIfTerminallyFailed at h
  split at h
  · next hs => exact ⟨by rw [hs]; rfl, by rw [← Except.error.inj h]; rfl⟩
  · next hs => exact ⟨by rw [hs]; rfl, by rw [← Except.error.inj h]; rfl⟩
  · cases h
  · cases h

theorem isIndeterminate_of_nonterminal {t : MutationTracker} (h : t.sealState.terminal = false) :
    t.isIndeterminate = false := by
  unfold isIndeterminate
  cases hs : t.sealState with
  | indeterminate => rw [hs] at h; cases h
  | _ => rfl

theorem pollDrain_eq_some {t : MutationTracker} {r : MutationDrainOutcome × MutationTracker}
    (h : t.pollDrain = some r) : t.active = 0 ∧ r = t.takeOutcome false := by
  unfold pollDrain at h
  split_ifs at h with ha
  exact ⟨ha, (Option.some.inj h).symm⟩

end MutationTracker

end ChpProxy
