import Mathlib.Data.Rat.Floor
import Mathlib.Order.Monotone.Basic

/-! A rounded position in a sequence: the fraction of its last position, multiplied and rounded as in
floating-point arithmetic and then taken to the nearest integer, is a position of the sequence. -/

/-- Rounding of exact results: monotone, and exact on the integers below a bound. -/
structure Rounding (bound : ℕ) where
  round : ℚ → ℚ
  mono : Monotone round
  natCast : ∀ n : ℕ, n ≤ bound → round n = n

namespace Rounding

variable {bound : ℕ} (R : Rounding bound)

/-- The position at the fraction `q` of `last`; halves are rounded up. -/
def index (last : ℕ) (q : ℚ) : ℕ := ⌊R.round (last * q) + 1 / 2⌋.toNat

theorem index_le {last : ℕ} {q : ℚ} (hq : q ≤ 1) (hlast : last ≤ bound) :
    R.index last q ≤ last := by
  have hmul : (last : ℚ) * q ≤ last := mul_le_of_le_one_right (Nat.cast_nonneg last) hq
  have hround : R.round (last * q) ≤ last := (R.mono hmul).trans (R.natCast last hlast).le
  have hfloor : ⌊R.round (last * q) + 1 / 2⌋ ≤ (last : ℤ) := by
    rw [← Int.lt_add_one_iff, Int.floor_lt]
    push_cast
    linarith
  unfold index
  omega

/-- The position is the integer nearest to the rounded product. -/
theorem index_eq_iff {last : ℕ} {q : ℚ} (hq : 0 ≤ q) {i : ℕ} :
    R.index last q = i ↔ (i : ℚ) ≤ R.round (last * q) + 1 / 2 ∧
      R.round (last * q) + 1 / 2 < i + 1 := by
  have hzero : R.round 0 = 0 := by simpa using R.natCast 0 (Nat.zero_le bound)
  have hnonneg : 0 ≤ R.round (last * q) := by
    rw [← hzero]
    exact R.mono (mul_nonneg (Nat.cast_nonneg last) hq)
  have hfloor : 0 ≤ ⌊R.round (last * q) + 1 / 2⌋ := Int.floor_nonneg.mpr (by linarith)
  have hcast : R.index last q = i ↔ ⌊R.round (last * q) + 1 / 2⌋ = (i : ℤ) := by
    unfold index
    omega
  rw [hcast, Int.floor_eq_iff]
  push_cast
  rfl

end Rounding
