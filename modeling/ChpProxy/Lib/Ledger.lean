import Mathlib.Data.List.DropRight
import Mathlib.Tactic.Linarith

/-! Entries that are collected by reports, and a bounded buffer that keeps only the newest ones. -/
namespace Ledger

variable {α β : Type*}

/-- An entry is made, or a report takes every entry since the one before it. -/
inductive Event (α β : Type*) where
  | entry (a : α)
  | report (b : β)

/-- The accounts closed by a report, and the entries that no report has taken yet. -/
structure Book (α β : Type*) where
  closed : List (List α × β)
  pending : List α

def Book.record (book : Book α β) : Event α β → Book α β
  | .entry a => { book with pending := book.pending ++ [a] }
  | .report b => ⟨book.closed ++ [(book.pending, b)], []⟩

def book (events : List (Event α β)) : Book α β := events.foldl Book.record ⟨[], []⟩

def entries (events : List (Event α β)) : List α :=
  events.filterMap fun e => match e with | .entry a => some a | .report _ => none

def reports (events : List (Event α β)) : List β :=
  events.filterMap fun e => match e with | .entry _ => none | .report b => some b

theorem book_append (l l' : List (Event α β)) : book (l ++ l') = l'.foldl Book.record (book l) :=
  List.foldl_append

theorem book_concat (l : List (Event α β)) (e : Event α β) : book (l ++ [e]) = (book l).record e :=
  book_append l [e]

theorem book_append_entries (l : List (Event α β)) (items : List α) :
    book (l ++ items.map .entry) =
      { book l with pending := (book l).pending ++ items } := by
  induction items using List.reverseRecOn with
  | nil => simp
  | append_singleton items a ih =>
    rw [List.map_append, ← List.append_assoc, List.map_singleton, book_concat, ih]
    simp [Book.record]

/-- Every entry stands in exactly one account. -/
theorem entries_eq (events : List (Event α β)) :
    entries events = (book events).closed.flatMap (·.1) ++ (book events).pending := by
  induction events using List.reverseRecOn with
  | nil => rfl
  | append_singleton l e ih =>
    have happ : entries (l ++ [e]) = entries l ++ entries [e] := List.filterMap_append
    rw [happ, ih, book_concat]
    cases e with
    | entry a => simp [Book.record, entries]
    | report b => simp [Book.record, entries]

/-- Every report closes exactly one account. -/
theorem reports_eq (events : List (Event α β)) :
    reports events = (book events).closed.map (·.2) := by
  induction events using List.reverseRecOn with
  | nil => rfl
  | append_singleton l e ih =>
    have happ : reports (l ++ [e]) = reports l ++ reports [e] := List.filterMap_append
    rw [happ, ih, book_concat]
    cases e with
    | entry a => simp [Book.record, reports]
    | report b => simp [Book.record, reports]

/-! A buffer of capacity `n` holds `l.rtake n` of the entries `l`; `l.rdrop n` have left it. -/

theorem length_rtake (l : List α) (n : ℕ) : (l.rtake n).length = min n l.length := by
  rw [List.rtake, List.length_drop]
  omega

theorem concat_of_room {l : List α} {n : ℕ} (h : l.length < n) (x : α) :
    (l ++ [x]).rtake n = l.rtake n ++ [x] ∧ (l ++ [x]).rdrop n = l.rdrop n := by
  have hlen : (l ++ [x]).length - n = 0 := by
    rw [List.length_append, List.length_singleton]
    omega
  have hlen' : l.length - n = 0 := by omega
  simp only [List.rtake, List.rdrop, hlen, hlen']
  exact ⟨rfl, rfl⟩

theorem concat_of_full {l : List α} {n : ℕ} (hn : 0 < n) (h : n ≤ l.length) (x : α) :
    ∃ y ys, l.rtake n = y :: ys ∧ (l ++ [x]).rtake n = ys ++ [x] ∧
      (l ++ [x]).rdrop n = l.rdrop n ++ [y] := by
  obtain ⟨m, rfl⟩ : ∃ m, n = m + 1 := ⟨n - 1, by omega⟩
  have hlt : l.length - (m + 1) < l.length := by omega
  have hnext : l.length - m = l.length - (m + 1) + 1 := by omega
  refine ⟨l.get ⟨_, hlt⟩, l.rtake m, ?_, List.rtake_concat_succ l m x, ?_⟩
  · rw [List.rtake, List.rtake, hnext]
    exact List.drop_eq_getElem_cons hlt
  · rw [List.rdrop_concat_succ, List.rdrop, List.rdrop, hnext]
    exact List.take_succ_eq_append_getElem hlt

end Ledger
