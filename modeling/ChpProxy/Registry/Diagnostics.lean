import ChpProxy.Lib.Ledger
import ChpProxy.Registry.Tracker

/-! The diagnostics of the mutation tracker: which of them the ring still holds, and which of them a
drain lists or counts. -/
namespace ChpProxy

namespace DetachedMutationDiagnostic

def failure? : DetachedMutationDiagnostic → Option DetachedMutationFailure
  | .failure f => some f
  | .panic _ => none

def panic? : DetachedMutationDiagnostic → Option DetachedMutationPanic
  | .failure _ => none
  | .panic p => some p

end DetachedMutationDiagnostic

namespace MutationTracker

/-- A `usize` counter that stays at its maximum. -/
def saturated (n : ℕ) : ℕ := min n (2 ^ 64 - 1)

theorem saturatingAdd_saturated (n : ℕ) : saturatingAdd (saturated n) 1 = saturated (n + 1) := by
  unfold saturatingAdd saturated
  omega

/-- The ring holds the newest of the diagnostics `l`, and the counters count the others. -/
structure Retains (t : MutationTracker) (l : List DetachedMutationDiagnostic) : Prop where
  diagnostics : t.diagnostics = l.rtake detachedMutationDiagnosticCapacity
  failures : t.droppedDetachedFailures =
    saturated ((l.rdrop detachedMutationDiagnosticCapacity).filterMap (·.failure?)).length
  panics : t.droppedDetachedPanics =
    saturated ((l.rdrop detachedMutationDiagnosticCapacity).filterMap (·.panic?)).length

variable {t : MutationTracker} {l : List DetachedMutationDiagnostic}

theorem retains_nil (h : t.diagnostics = []) (hf : t.droppedDetachedFailures = 0)
    (hp : t.droppedDetachedPanics = 0) : t.Retains [] :=
  ⟨by simpa using h, by simpa [saturated] using hf, by simpa [saturated] using hp⟩

theorem Retains.pushDiagnostic (h : t.Retains l) (d : DetachedMutationDiagnostic) :
    (t.pushDiagnostic d).Retains (l ++ [d]) := by
  have hlen : t.diagnostics.length = min detachedMutationDiagnosticCapacity l.length := by
    rw [h.diagnostics, Ledger.length_rtake]
  by_cases hroom : l.length < detachedMutationDiagnosticCapacity
  · have hne : t.diagnostics.length ≠ detachedMutationDiagnosticCapacity := by omega
    obtain ⟨hkeep, hdrop⟩ := Ledger.concat_of_room hroom d
    have hsame : t.dropOldest = t := by simp [dropOldest, hne]
    refine ⟨?_, ?_, ?_⟩
    · rw [hkeep, MutationTracker.pushDiagnostic, hsame, h.diagnostics]
    · rw [hdrop, MutationTracker.pushDiagnostic, hsame, h.failures]
    · rw [hdrop, MutationTracker.pushDiagnostic, hsame, h.panics]
  · have hfull : t.diagnostics.length = detachedMutationDiagnosticCapacity := by omega
    obtain ⟨y, ys, hold, hkeep, hdrop⟩ :=
      Ledger.concat_of_full (by decide) (Nat.le_of_not_lt hroom) d
    rw [← h.diagnostics] at hold
    -- The oldest entry leaves the ring and is counted under its own kind.
    cases y with
    | failure f =>
      have hold' : t.dropOldest = { t with
          diagnostics := ys
          droppedDetachedFailures := saturatingAdd t.droppedDetachedFailures 1 } := by
        simp only [dropOldest, hfull, if_true]
        rw [hold]
      refine ⟨?_, ?_, ?_⟩
      · rw [hkeep, MutationTracker.pushDiagnostic, hold']
      · rw [hdrop, MutationTracker.pushDiagnostic, hold', h.failures, saturatingAdd_saturated,
          List.filterMap_append, List.length_append]
        simp [DetachedMutationDiagnostic.failure?]
      · rw [hdrop, MutationTracker.pushDiagnostic, hold', h.panics, List.filterMap_append,
          List.length_append]
        simp [DetachedMutationDiagnostic.panic?]
    | panic p =>
      have hold' : t.dropOldest = { t with
          diagnostics := ys
          droppedDetachedPanics := saturatingAdd t.droppedDetachedPanics 1 } := by
        simp only [dropOldest, hfull, if_true]
        rw [hold]
      refine ⟨?_, ?_, ?_⟩
      · rw [hkeep, MutationTracker.pushDiagnostic, hold']
      · rw [hdrop, MutationTracker.pushDiagnostic, hold', h.failures, List.filterMap_append,
          List.length_append]
        simp [DetachedMutationDiagnostic.failure?]
      · rw [hdrop, MutationTracker.pushDiagnostic, hold', h.panics, saturatingAdd_saturated,
          List.filterMap_append, List.length_append]
        simp [DetachedMutationDiagnostic.panic?]

theorem Retains.finish (h : t.Retains l) (failure : Option DetachedMutationFailure)
    (panic : Option DetachedMutationPanic) :
    (t.finish failure panic).Retains
      (l ++ (failure.toList.map .failure ++ panic.toList.map .panic)) := by
  have hactive : ({ t with active := t.active - 1 } : MutationTracker).Retains l :=
    ⟨h.diagnostics, h.failures, h.panics⟩
  cases failure with
  | none =>
    cases panic with
    | none => simpa [MutationTracker.finish] using hactive
    | some p => simpa [MutationTracker.finish] using hactive.pushDiagnostic (.panic p)
  | some f =>
    have hpush := hactive.pushDiagnostic (.failure f)
    cases panic with
    | none => simpa [MutationTracker.finish] using hpush
    | some p => simpa [MutationTracker.finish] using hpush.pushDiagnostic (.panic p)

theorem Retains.shutdownSeal (h : t.Retains l) : t.shutdownSeal.Retains l := by
  unfold MutationTracker.shutdownSeal
  split_ifs
  · exact ⟨h.diagnostics, h.failures, h.panics⟩
  · exact h

end MutationTracker

/-- The outcome lists the newest of the diagnostics `l` and counts the older ones, each under its
kind. -/
structure MutationDrainOutcome.Accounts (o : MutationDrainOutcome)
    (l : List DetachedMutationDiagnostic) : Prop where
  listedFailures : o.detachedFailures =
    (l.rtake detachedMutationDiagnosticCapacity).filterMap (·.failure?)
  listedPanics : o.detachedPanics =
    (l.rtake detachedMutationDiagnosticCapacity).filterMap (·.panic?)
  countedFailures : o.droppedDetachedFailures = MutationTracker.saturated
    ((l.rdrop detachedMutationDiagnosticCapacity).filterMap (·.failure?)).length
  countedPanics : o.droppedDetachedPanics = MutationTracker.saturated
    ((l.rdrop detachedMutationDiagnosticCapacity).filterMap (·.panic?)).length

theorem MutationTracker.Retains.takeOutcome {t : MutationTracker}
    {l : List DetachedMutationDiagnostic} (h : t.Retains l) (timedOut : Bool) :
    (t.takeOutcome timedOut).1.Accounts l ∧ (t.takeOutcome timedOut).2.Retains [] := by
  refine ⟨⟨?_, ?_, h.failures, h.panics⟩, MutationTracker.retains_nil rfl rfl rfl⟩
  · rw [← h.diagnostics]
    exact List.filterMap_congr fun d _ => by cases d <;> rfl
  · rw [← h.diagnostics]
    exact List.filterMap_congr fun d _ => by cases d <;> rfl

end ChpProxy
