import ChpProxy.Lib.Transition
import ChpProxy.Lib.Census

/-! Tasks that wait for a condition on shared state with a broadcast notification. Each subscribes,
tests the condition, and sleeps until a notification later than its subscription. -/
namespace Notify

/-- A task in `loop { subscribe; if ready { return }; sleep }`. Its subscription is the number of
notifications that were broadcast before it. -/
inductive Waiter where
  | idle
  | armed (seen : ℕ)
  | asleep (seen : ℕ)
  | returned
  deriving DecidableEq

namespace Waiter

/-- One operation of the loop, after `calls` notifications. -/
def step (calls : ℕ) (ready : Bool) : Waiter → Option Waiter
  | .idle => some (.armed calls)
  | .armed seen => some (if ready then .returned else .asleep seen)
  | .asleep seen => if seen = calls then none else some .idle
  | .returned => none

/-- The operations a waiter has left before it returns, while at most one notification follows. -/
def rank (ready : Bool) : Waiter → ℕ
  | .idle => if ready then 2 else 5
  | .armed _ => if ready then 1 else 4
  | .asleep _ => 3
  | .returned => 0

/-- A sleeper that no notification has reached sleeps for a reason: the condition does not hold, or
a notification is owed. -/
def Sound (calls : ℕ) (ready owed : Prop) : Waiter → Prop
  | .armed seen => seen ≤ calls
  | .asleep seen => seen ≤ calls ∧ (seen = calls → ready → owed)
  | _ => True

variable {calls : ℕ} {ready : Bool} {p q owed owed' : Prop} {w w' : Waiter}

theorem Sound.step (h : Sound calls (ready = true) owed w) (hs : w.step calls ready = some w') :
    Sound calls (ready = true) owed w' := by
  cases w with
  | idle =>
    cases hs
    exact Nat.le_refl calls
  | armed seen =>
    cases ready with
    | true =>
      cases hs
      trivial
    | false =>
      cases hs
      refine ⟨h, fun _ hr => ?_⟩
      cases hr
  | asleep seen =>
    simp only [Waiter.step] at hs
    split_ifs at hs
    cases hs
    trivial
  | returned => cases hs

/-- A waiter that returns has seen the condition. -/
theorem ready_of_step (h : w.step calls ready = some .returned) :
    ready = true := by
  cases w with
  | idle => cases h
  | armed seen =>
    simp only [Waiter.step] at h
    cases ready with
    | true => rfl
    | false => cases h
  | asleep seen =>
    simp only [Waiter.step] at h
    split_ifs at h
    cases h
  | returned => cases h

/-- The shared state changes: whoever makes the condition true owes a notification, and the
notifications already owed stay owed. -/
theorem Sound.change (h : Sound calls p owed w) (hready : q → p ∨ owed') (howed : owed → owed') :
    Sound calls q owed' w := by
  cases w with
  | armed seen => exact h
  | asleep seen =>
    refine ⟨h.1, fun hseen hq => ?_⟩
    rcases hready hq with hp | ho
    · exact howed (h.2 hseen hp)
    · exact ho
  | idle => trivial
  | returned => trivial

/-- A notification reaches every subscription made before it. -/
theorem Sound.notify (h : Sound calls p owed w) (q owed' : Prop) : Sound (calls + 1) q owed' w := by
  cases w with
  | armed seen => exact Nat.le_succ_of_le h
  | asleep seen =>
    refine ⟨Nat.le_succ_of_le h.1, fun hseen => ?_⟩
    have hle : seen ≤ calls := h.1
    omega
  | idle => trivial
  | returned => trivial

/-- No wake-up is lost: where the condition holds and no notification is owed, a waiter can move
on until it returns. -/
theorem Sound.enabled (h : Sound calls (ready = true) owed w) (hready : ready = true)
    (howed : ¬owed) (hw : w ≠ .returned) : ∃ w', w.step calls ready = some w' := by
  cases w with
  | idle => exact ⟨_, rfl⟩
  | armed seen => exact ⟨_, rfl⟩
  | asleep seen =>
    refine ⟨.idle, ?_⟩
    simp only [Waiter.step]
    exact if_neg fun hseen => howed (h.2 hseen hready)
  | returned => exact absurd rfl hw

theorem rank_le (ready : Bool) (w : Waiter) : w.rank ready ≤ 5 := by
  cases ready <;> cases w <;> simp [rank]

theorem rank_true_le (ready : Bool) (w : Waiter) : w.rank true ≤ w.rank ready := by
  cases ready <;> cases w <;> simp [rank]

/-- Every operation counts while the first notification comes no sooner than the condition. -/
theorem Sound.rank_step (h : Sound calls p owed w) (hfirst : ready = false → calls = 0)
    (hs : w.step calls ready = some w') : w'.rank ready < w.rank ready := by
  cases w with
  | idle =>
    cases hs
    cases ready <;> simp [rank]
  | armed seen =>
    cases hs
    cases ready <;> simp [rank]
  | asleep seen =>
    simp only [Waiter.step] at hs
    split_ifs at hs with hseen
    cases hs
    cases ready with
    | true => simp [rank]
    | false =>
      have hzero := hfirst rfl
      have hle : seen ≤ calls := h.1
      omega
  | returned => cases hs

def ranks (ready : Bool) (ws : List Waiter) : ℕ := (ws.map (rank ready)).sum

theorem ranks_le (ready : Bool) (ws : List Waiter) : ranks ready ws ≤ 5 * ws.length := by
  induction ws with
  | nil => exact Nat.le_refl 0
  | cons w ws ih =>
    have hw := w.rank_le ready
    simp only [ranks, List.map_cons, List.sum_cons, List.length_cons] at ih ⊢
    omega

theorem ranks_true_le (ready : Bool) (ws : List Waiter) : ranks true ws ≤ ranks ready ws := by
  induction ws with
  | nil => exact Nat.le_refl 0
  | cons w ws ih =>
    have hw := w.rank_true_le ready
    simp only [ranks, List.map_cons, List.sum_cons] at ih ⊢
    omega

theorem ranks_set {ws : List Waiter} {i : ℕ} (hi : ws[i]? = some w)
    (hlt : w'.rank ready < w.rank ready) : ranks ready (ws.set i w') < ranks ready ws := by
  induction ws generalizing i with
  | nil => simp at hi
  | cons v ws ih =>
    cases i with
    | zero =>
      obtain rfl : v = w := by simpa using hi
      simp only [ranks, List.set_cons_zero, List.map_cons, List.sum_cons]
      omega
    | succ i =>
      have htail := ih (by simpa using hi)
      simp only [ranks, List.set_cons_succ, List.map_cons, List.sum_cons] at htail ⊢
      omega

end Waiter

end Notify
