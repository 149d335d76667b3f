import Mathlib.Data.List.Infix

/-! The first occurrence of a pattern in a list. -/
namespace Search

variable {α : Type*} [DecidableEq α] {pattern input more : List α} {n : ℕ}

/-- Where the first occurrence of the pattern begins. -/
def position (pattern : List α) : List α → Option ℕ
  | [] => none
  | a :: rest => if pattern <+: a :: rest then some 0 else (position pattern rest).map (· + 1)

/-- The pattern stands at the position found, and nowhere before it. -/
theorem position_eq_some_iff (hne : pattern ≠ []) :
    position pattern input = some n ↔
      pattern <+: input.drop n ∧ ∀ m < n, ¬pattern <+: input.drop m := by
  induction input generalizing n with
  | nil => simp [position, hne]
  | cons a rest ih =>
    unfold position
    split_ifs with h
    · constructor
      · intro hn
        obtain rfl := Option.some.inj hn
        exact ⟨h, fun m hm => absurd hm (Nat.not_lt_zero m)⟩
      · rintro ⟨-, hfirst⟩
        have hn : n = 0 := by
          by_contra hn
          exact hfirst 0 (by omega) h
        rw [hn]
    · cases n with
      | zero => simp [h]
      | succ n =>
        have hmap : (position pattern rest).map (· + 1) = some (n + 1) ↔
            position pattern rest = some n := by simp
        rw [hmap, ih, List.drop_succ_cons]
        refine and_congr_right fun _ => ⟨fun hfirst m hm => ?_, fun hfirst m hm => ?_⟩
        · cases m with
          | zero => exact h
          | succ m => exact hfirst m (by omega)
        · exact hfirst (m + 1) (by omega)

theorem position_append (hne : pattern ≠ []) (h : position pattern input = some n)
    (more : List α) : position pattern (input ++ more) = some n := by
  rw [position_eq_some_iff hne] at h ⊢
  obtain ⟨hhere, hfirst⟩ := h
  have hlen : n + pattern.length ≤ input.length := by
    have hle := hhere.length_le
    have hpos := List.length_pos_of_ne_nil hne
    rw [List.length_drop] at hle
    omega
  have hdrop : ∀ m, m + pattern.length ≤ input.length →
      (pattern <+: (input ++ more).drop m ↔ pattern <+: input.drop m) := by
    intro m hm
    rw [List.drop_append_of_le_length (by omega)]
    refine ⟨fun hp => ?_, fun hp => hp.trans (List.prefix_append _ _)⟩
    exact List.prefix_of_prefix_length_le hp (List.prefix_append _ _)
      (by rw [List.length_drop]; omega)
  exact ⟨(hdrop n hlen).mpr hhere, fun m hm => mt (hdrop m (by omega)).mp (hfirst m hm)⟩

theorem position_of_append (hne : pattern ≠ []) (h : position pattern (input ++ more) = some n)
    (hn : n + pattern.length ≤ input.length) : position pattern input = some n := by
  rw [position_eq_some_iff hne] at h ⊢
  obtain ⟨hhere, hfirst⟩ := h
  rw [List.drop_append_of_le_length (by omega)] at hhere
  refine ⟨List.prefix_of_prefix_length_le hhere (List.prefix_append _ _)
    (by rw [List.length_drop]; omega), fun m hm hp => hfirst m hm ?_⟩
  rw [List.drop_append_of_le_length (by omega)]
  exact hp.trans (List.prefix_append _ _)

theorem eq_append_of_position (hne : pattern ≠ []) (h : position pattern input = some n) :
    input = input.take n ++ (pattern ++ input.drop (n + pattern.length)) := by
  obtain ⟨⟨rest, hrest⟩, -⟩ := (position_eq_some_iff hne).mp h
  have hdrop : input.drop (n + pattern.length) = rest := by
    rw [← List.drop_drop, ← hrest, List.drop_left]
  rw [hdrop, hrest, List.take_append_drop]

theorem le_length_of_position (hne : pattern ≠ []) (h : position pattern input = some n) :
    n + pattern.length ≤ input.length := by
  have hle := ((position_eq_some_iff hne).mp h).1.length_le
  have hpos := List.length_pos_of_ne_nil hne
  rw [List.length_drop] at hle
  omega

theorem not_infix_take (hne : pattern ≠ []) (h : position pattern input = some n) :
    ¬pattern <:+: input.take n := by
  rintro ⟨before, after, happend⟩
  have hlen := congrArg List.length happend
  have hpos := List.length_pos_of_ne_nil hne
  simp only [List.length_append, List.length_take] at hlen
  refine ((position_eq_some_iff hne).mp h).2 before.length (by omega) ?_
  refine ⟨after ++ input.drop n, ?_⟩
  have hsplit : input = before ++ (pattern ++ (after ++ input.drop n)) := by
    conv_lhs => rw [← List.take_append_drop n input, ← happend]
    simp
  conv_rhs => rw [hsplit, List.drop_left]

omit [DecidableEq α] in
/-- A pattern begins after symbols that are not its first one. -/
theorem infix_of_infix_append {a : α} {p before after : List α} (ha : a ∉ before)
    (h : a :: p <:+: before ++ after) : a :: p <:+: after := by
  induction before with
  | nil => exact h
  | cons b before ih =>
    rcases List.infix_cons_iff.mp h with hat | hin
    · have hab := (List.cons_prefix_cons.mp hat).1
      exact absurd (hab ▸ List.mem_cons_self) ha
    · exact ih (fun hmem => ha (List.mem_cons_of_mem b hmem)) hin

/-- A pattern that cannot overlap itself ends the first line it was not part of. -/
theorem position_line {a : α} {p line : List α} (ha : a ∉ p) (hline : ¬(a :: p) <:+: line)
    (rest : List α) : position (a :: p) (line ++ ((a :: p) ++ rest)) = some line.length := by
  rw [position_eq_some_iff (List.cons_ne_nil a p)]
  refine ⟨by rw [List.drop_left]; exact List.prefix_append _ _, fun m hm hp => ?_⟩
  rw [List.drop_append_of_le_length (by omega)] at hp
  by_cases hfit : p.length + 1 ≤ (line.drop m).length
  · have hshort : a :: p <+: line.drop m :=
      List.prefix_of_prefix_length_le hp (List.prefix_append _ _) (by simpa using hfit)
    exact hline (hshort.isInfix.trans (List.drop_suffix m line).isInfix)
  · -- the occurrence would reach into the next one, so its tail would hold the first symbol
    have hlen : (line.drop m).length ≤ p.length := by omega
    have hpos : 0 < (line.drop m).length := by rw [List.length_drop]; omega
    obtain ⟨after, hafter⟩ := hp
    have hget := congrArg (fun l => l[(line.drop m).length]?) hafter
    simp only [List.getElem?_append_right le_rfl, Nat.sub_self, List.cons_append,
      List.getElem?_cons_zero] at hget
    obtain ⟨k, hk⟩ : ∃ k, (line.drop m).length = k + 1 := ⟨_, (Nat.succ_pred_eq_of_pos hpos).symm⟩
    rw [hk, List.getElem?_cons_succ, List.getElem?_append_left (by omega)] at hget
    exact ha (List.mem_of_getElem? hget)

end Search
