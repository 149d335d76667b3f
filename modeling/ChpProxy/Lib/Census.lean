import Mathlib.Data.List.Basic
import Mathlib.Tactic.Linarith

/-! How many of the parties of a machine are in given phases, and how a step of one of them changes
that. -/
namespace Census

variable {α : Type*} {l : List α} {i : ℕ} {x y : α} {p : α → Bool}

theorem countP_set (h : l[i]? = some x) (p : α → Bool) (y : α) :
    (l.set i y).countP p + (if p x then 1 else 0) = l.countP p + if p y then 1 else 0 := by
  obtain ⟨hlt, hx⟩ := List.getElem?_eq_some_iff.mp h
  have hset := List.countP_set (p := p) (a := y) hlt
  rw [hx] at hset
  have hle : (if p x then 1 else 0) ≤ l.countP p := by
    split_ifs with hp
    · exact List.countP_pos_iff.mpr ⟨x, List.mem_of_getElem? h, hp⟩
    · exact Nat.zero_le _
  omega

theorem countP_concat (l : List α) (p : α → Bool) (y : α) :
    (l ++ [y]).countP p = l.countP p + if p y then 1 else 0 := by
  rw [List.countP_append, List.countP_singleton]

theorem countP_pos (h : l[i]? = some x) (hp : p x = true) : 0 < l.countP p :=
  List.countP_pos_iff.mpr ⟨x, List.mem_of_getElem? h, hp⟩

theorem eq_false_of_countP (hc : l.countP p = 0) (h : l[i]? = some x) : p x = false := by
  cases hp : p x with
  | false => rfl
  | true =>
    have := countP_pos h hp
    omega

theorem set_self (h : l[i]? = some x) : l.set i x = l := by
  obtain ⟨hlt, rfl⟩ := List.getElem?_eq_some_iff.mp h
  exact List.set_getElem_self hlt

end Census
