import Mathlib.Data.List.TakeWhile

/-! Text as a list of characters: trimming, splitting at a separator, and joining. -/
namespace Text

/-- The characters with the Unicode property `White_Space`. -/
def isWhitespace (c : Char) : Bool :=
  let n := c.toNat
  (9 ≤ n && n ≤ 13) || n = 32 || n = 0x85 || n = 0xA0 || n = 0x1680 ||
    (0x2000 ≤ n && n ≤ 0x200A) || n = 0x2028 || n = 0x2029 || n = 0x202F || n = 0x205F || n = 0x3000

def trimStart (s : List Char) : List Char := s.dropWhile isWhitespace

def trimEnd (s : List Char) : List Char := (s.reverse.dropWhile isWhitespace).reverse

def trim (s : List Char) : List Char := trimEnd (trimStart s)

theorem trim_of_visible {s : List Char} (h : ∀ c ∈ s, isWhitespace c = false) : trim s = s := by
  have hdrop : ∀ s : List Char, (∀ c ∈ s, isWhitespace c = false) →
      s.dropWhile isWhitespace = s := by
    intro s hs
    cases s with
    | nil => rfl
    | cons c s => rw [List.dropWhile_cons, if_neg (by rw [hs c List.mem_cons_self]; decide)]
  unfold trim trimEnd trimStart
  rw [hdrop s h, hdrop s.reverse fun c hc => h c (List.mem_reverse.mp hc), List.reverse_reverse]

theorem isAlphanum_iff {c : Char} : c.isAlphanum = true ↔
    ('A' ≤ c ∧ c ≤ 'Z') ∨ ('a' ≤ c ∧ c ≤ 'z') ∨ ('0' ≤ c ∧ c ≤ '9') := by
  change ((decide ('A' ≤ c ∧ c ≤ 'Z') || (decide ('a' ≤ c) && decide (c ≤ 'z'))) ||
    (decide ('0' ≤ c) && decide (c ≤ '9'))) = true ↔ _
  simp only [Bool.or_eq_true, Bool.and_eq_true, decide_eq_true_eq, or_assoc]

theorem trim_pad {before s after : List Char} (hbefore : ∀ c ∈ before, isWhitespace c = true)
    (hafter : ∀ c ∈ after, isWhitespace c = true) (hs : ∀ c ∈ s, isWhitespace c = false) :
    trim (before ++ (s ++ after)) = s := by
  have hstart : trimStart (before ++ (s ++ after)) = trimStart (s ++ after) := by
    unfold trimStart
    rw [List.dropWhile_append_of_pos hbefore]
  have hend : ∀ s', trimEnd (s' ++ after) = trimEnd s' := by
    intro s'
    unfold trimEnd
    rw [List.reverse_append, List.dropWhile_append_of_pos fun c hc =>
      hafter c (List.mem_reverse.mp hc)]
  unfold trim
  rw [hstart]
  cases s with
  | nil =>
    have hnil : trimStart after = [] := by
      unfold trimStart
      rw [List.dropWhile_eq_nil_iff]
      exact hafter
    rw [List.nil_append, hnil]
    rfl
  | cons c s =>
    have hkept : trimStart (c :: s ++ after) = c :: s ++ after := by
      unfold trimStart
      rw [List.cons_append, List.dropWhile_cons_of_neg]
      simp [hs c List.mem_cons_self]
    have hvisible := trim_of_visible hs
    rw [hkept, hend]
    unfold trim at hvisible
    have hfirst : trimStart (c :: s) = c :: s := by
      unfold trimStart
      rw [List.dropWhile_cons_of_neg]
      simp [hs c List.mem_cons_self]
    rwa [hfirst] at hvisible

theorem exists_pad (s : List Char) : ∃ before after, s = before ++ (trim s ++ after) ∧
    (∀ c ∈ before, isWhitespace c = true) ∧ ∀ c ∈ after, isWhitespace c = true := by
  refine ⟨s.takeWhile isWhitespace, ((trimStart s).reverse.takeWhile isWhitespace).reverse, ?_,
    fun c hc => ?_, fun c hc => ?_⟩
  · unfold trim trimEnd
    rw [← List.reverse_append, List.takeWhile_append_dropWhile, List.reverse_reverse]
    exact (List.takeWhile_append_dropWhile ..).symm
  · exact List.mem_takeWhile_imp hc
  · exact List.mem_takeWhile_imp (List.mem_reverse.mp hc)

theorem isWhitespace_of_isAlphanum {c : Char} (h : c.isAlphanum = true) :
    isWhitespace c = false := by
  have hrange : (65 ≤ c.toNat ∧ c.toNat ≤ 90) ∨ (97 ≤ c.toNat ∧ c.toNat ≤ 122) ∨
      (48 ≤ c.toNat ∧ c.toNat ≤ 57) := isAlphanum_iff.mp h
  simp [isWhitespace]
  omega

/-- Equality up to the case of ASCII letters. -/
def eqIgnoreAsciiCase (s t : List Char) : Bool := s.map Char.toLower = t.map Char.toLower

def join (separator : Char) (parts : List (List Char)) : List Char :=
  List.intercalate [separator] parts

/-! What comes before the first `stop`. -/

theorem takeWhile_stop {stop : Char} {before rest : List Char} (hbefore : stop ∉ before)
    (hrest : rest = [] ∨ rest.head? = some stop) :
    (before ++ rest).takeWhile (· ≠ stop) = before := by
  have hall : ∀ c ∈ before, decide (c ≠ stop) = true := by
    intro c hc
    exact decide_eq_true fun heq => hbefore (heq ▸ hc)
  rw [List.takeWhile_append_of_pos hall]
  rcases hrest with rfl | hhead
  · simp
  · obtain ⟨rest, rfl⟩ := List.head?_eq_some_iff.mp hhead
    simp

theorem dropWhile_stop {stop : Char} {before rest : List Char} (hbefore : stop ∉ before)
    (hrest : rest = [] ∨ rest.head? = some stop) :
    (before ++ rest).dropWhile (· ≠ stop) = rest := by
  have hsplit : (before ++ rest).takeWhile (· ≠ stop) ++ (before ++ rest).dropWhile (· ≠ stop) =
      before ++ rest := List.takeWhile_append_dropWhile
  rw [takeWhile_stop hbefore hrest] at hsplit
  exact List.append_cancel_left hsplit

theorem exists_cut (stop : Char) (text : List Char) :
    ∃ rest, text = text.takeWhile (· ≠ stop) ++ rest ∧ (rest = [] ∨ rest.head? = some stop) ∧
      stop ∉ text.takeWhile (· ≠ stop) := by
  refine ⟨text.dropWhile (· ≠ stop), (List.takeWhile_append_dropWhile ..).symm, ?_, fun hmem => ?_⟩
  · cases hrest : text.dropWhile (· ≠ stop) with
    | nil => exact .inl rfl
    | cons c rest =>
      have hc := List.head?_dropWhile_not (fun c => decide (c ≠ stop)) text
      rw [hrest] at hc
      exact .inr (by simpa using hc)
  · have hne := List.mem_takeWhile_imp hmem
    simp at hne

/-- The text after the last separator, or the whole text. -/
def afterLast {α : Type} [DecidableEq α] (separator : α) (s : List α) : List α :=
  (s.reverse.takeWhile (· ≠ separator)).reverse

section

variable {α : Type} [DecidableEq α] {separator : α} {s : List α}

theorem afterLast_of_not_mem (h : separator ∉ s) :
    afterLast separator s = s := by
  unfold afterLast
  have hall : ∀ c ∈ s.reverse, decide (c ≠ separator) = true := by
    intro c hc
    have hne : c ≠ separator := by
      rintro rfl
      exact h (List.mem_reverse.mp hc)
    simpa using hne
  rw [List.takeWhile_eq_self_iff.mpr hall, List.reverse_reverse]

theorem afterLast_append (separator : α) (s t : List α) :
    afterLast separator (t ++ separator :: s) = afterLast separator s := by
  unfold afterLast
  congr 1
  rw [List.reverse_append, List.reverse_cons, List.append_assoc, List.takeWhile_append]
  split_ifs with h
  · have hall : s.reverse.takeWhile (fun c => decide (c ≠ separator)) = s.reverse :=
      (List.takeWhile_prefix _).eq_of_length h
    rw [hall]
    simp
  · rfl

theorem exists_afterLast (h : separator ∈ s) :
    ∃ before, s = before ++ separator :: afterLast separator s := by
  obtain ⟨after, before, hs, hafter⟩ := List.eq_append_cons_of_mem (List.mem_reverse.mpr h)
  obtain rfl : s = before.reverse ++ separator :: after.reverse := by
    simpa using congrArg List.reverse hs
  refine ⟨before.reverse, ?_⟩
  rw [afterLast_append, afterLast_of_not_mem (mt List.mem_reverse.mp hafter)]

end

theorem join_concat (separator : Char) (parts : List (List Char)) (s : List Char) :
    join separator (parts ++ [s]) = s ∨
      ∃ before, join separator (parts ++ [s]) = before ++ separator :: s := by
  induction parts with
  | nil => exact .inl (by simp [join])
  | cons p parts ih =>
    have hne : parts ++ [s] ≠ [] := by simp
    have hjoin : join separator (p :: parts ++ [s]) =
        p ++ separator :: join separator (parts ++ [s]) := by
      rw [List.cons_append, join, List.intercalate_cons_of_ne_nil hne, List.append_assoc,
        List.singleton_append]
      rfl
    right
    rcases ih with hs | ⟨before, hbefore⟩
    · exact ⟨p, by rw [hjoin, hs]⟩
    · exact ⟨p ++ separator :: before, by rw [hjoin, hbefore]; simp⟩

theorem toList_foldl_append {α : Type*} (f : α → String) (l : List α) (s : String) :
    (l.foldl (fun s x => s ++ f x) s).toList = s.toList ++ l.flatMap fun x => (f x).toList := by
  induction l generalizing s with
  | nil => simp
  | cons x l ih =>
    rw [List.foldl_cons, ih, String.toList_append, List.flatMap_cons, List.append_assoc]

theorem not_mem_repr {c : Char} (hc : c.isDigit = false) (n : ℕ) : c ∉ (Nat.repr n).toList := by
  intro h
  have hdigit := Nat.isDigit_of_mem_toDigits (c := c) (b := 10) (n := n) (by decide) (by decide)
    (by simpa [Nat.repr] using h)
  rw [hc] at hdigit
  cases hdigit

end Text
