import Mathlib.Data.List.Basic
import Mathlib.Tactic.Linarith

/-! Readers that take a value off the front of a text, with the writers that they undo: decimal
integers, and lists between a delimiter and a closing character. -/

abbrev Reader (α : Type*) := List Char → Option (α × List Char)

namespace Reader

variable {α : Type*}

/-- The reader gives back what was written, whatever `follows` after it. -/
def Undoes (read : Reader α) (write : α → List Char) (follows : List Char → Prop) (a : α) : Prop :=
  ∀ rest, follows rest → read (write a ++ rest) = some (a, rest)

/-! Decimal integers. -/

def writeInteger (z : ℤ) : List Char :=
  if z < 0 then '-' :: Nat.toDigits 10 z.natAbs else Nat.toDigits 10 z.natAbs

def natural : Reader ℕ := fun text =>
  if text.takeWhile Char.isDigit = [] then none
  else some (Nat.ofDigitChars 10 (text.takeWhile Char.isDigit) 0, text.dropWhile Char.isDigit)

def integer : Reader ℤ := fun text =>
  if text.head? = some '-' then (natural text.tail).map fun p => (-p.1, p.2)
  else (natural text).map fun p => (p.1, p.2)

/-- A digit after a number would belong to it. -/
def NoDigit (rest : List Char) : Prop := ∀ c ∈ rest.head?, c.isDigit = false

theorem natural_undoes (n : ℕ) : Undoes natural (Nat.toDigits 10) NoDigit n := by
  intro rest hrest
  have hdigits : ∀ c ∈ Nat.toDigits 10 n, c.isDigit = true := fun c hc =>
    Nat.isDigit_of_mem_toDigits (by decide) le_rfl hc
  have hstop : rest.takeWhile Char.isDigit = [] ∧ rest.dropWhile Char.isDigit = rest := by
    cases rest with
    | nil => exact ⟨rfl, rfl⟩
    | cons c rest =>
      have hc : c.isDigit = false := hrest c rfl
      simp [hc]
  unfold natural
  rw [List.takeWhile_append_of_pos hdigits, List.dropWhile_append_of_pos hdigits, hstop.1, hstop.2,
    List.append_nil, if_neg Nat.toDigits_ne_nil, Nat.ofDigitChars_toDigits (by decide) le_rfl]

theorem head?_toDigits_append (n : ℕ) (rest : List Char) :
    ((Nat.toDigits 10 n) ++ rest).head? ≠ some '-' := by
  intro h
  rw [List.head?_append_of_ne_nil _ Nat.toDigits_ne_nil] at h
  have hdigit := Nat.isDigit_of_mem_toDigits (by decide) le_rfl (List.mem_of_head? h)
  exact absurd hdigit (by decide)

theorem integer_undoes (z : ℤ) : Undoes integer writeInteger NoDigit z := by
  intro rest hrest
  have hread := natural_undoes z.natAbs rest hrest
  unfold integer writeInteger
  split_ifs with hneg hhead hhead
  · rw [List.cons_append, List.tail_cons, hread, Option.map_some]
    have hz : -(z.natAbs : ℤ) = z := by omega
    rw [hz]
  · exact absurd rfl hhead
  · exact absurd hhead (head?_toDigits_append _ rest)
  · rw [hread, Option.map_some]
    have hz : (z.natAbs : ℤ) = z := by omega
    rw [hz]

/-- By its first character a number is told apart from everything else. -/
theorem exists_head_writeInteger (z : ℤ) :
    ∃ c text, writeInteger z = c :: text ∧ (c = '-' ∨ c.isDigit = true) := by
  unfold writeInteger
  split_ifs
  · exact ⟨_, _, rfl, .inl rfl⟩
  · have hne : Nat.toDigits 10 z.natAbs ≠ [] := Nat.toDigits_ne_nil
    obtain ⟨c, text, htext⟩ := List.exists_cons_of_ne_nil hne
    have hc : c ∈ Nat.toDigits 10 z.natAbs := by
      rw [htext]
      exact List.mem_cons_self
    exact ⟨c, text, htext, .inr (Nat.isDigit_of_mem_toDigits (by decide) le_rfl hc)⟩

/-! Lists. What is read next is decided by one character, so an empty list is told apart by
the failure to read an element. -/

section Lists

variable (read : Reader α) (write : α → List Char) (close : Char)

def writeTail : List α → List Char
  | [] => [close]
  | a :: as => ',' :: (write a ++ writeTail as)

def writeList : List α → List Char
  | [] => [close]
  | a :: as => write a ++ writeTail write close as

/-- The elements after the first. `fuel` bounds their number. -/
def tail : ℕ → Reader (List α)
  | 0, _ => none
  | _ + 1, [] => none
  | fuel + 1, c :: text =>
    if c = close then some ([], text)
    else if c = ',' then (read text).bind fun p =>
      (tail fuel p.2).map fun q => (p.1 :: q.1, q.2)
    else none

def list (fuel : ℕ) : Reader (List α) := fun text =>
  match read text with
  | some (a, rest) => (tail read close fuel rest).map fun q => (a :: q.1, q.2)
  | none => if text.head? = some close then some ([], text.tail) else none

variable {read write close}

/-- Between the elements of a list there is a comma, and then the end. -/
def Separated (close : Char) (rest : List Char) : Prop :=
  rest.head? = some ',' ∨ rest.head? = some close

theorem separated_writeTail (write : α → List Char) (as : List α) (rest : List Char) :
    Separated close (writeTail write close as ++ rest) := by
  cases as with
  | nil => exact .inr rfl
  | cons a as => exact .inl rfl

theorem tail_undoes (hclose : close ≠ ',') {as : List α}
    (has : ∀ a ∈ as, Undoes read write (Separated close) a) {fuel : ℕ} (hfuel : as.length < fuel)
    (rest : List Char) :
    tail read close fuel (writeTail write close as ++ rest) = some (as, rest) := by
  induction as generalizing fuel with
  | nil =>
    obtain ⟨fuel, rfl⟩ := Nat.exists_eq_add_one.mpr hfuel
    exact if_pos rfl
  | cons a as ih =>
    obtain ⟨fuel, rfl⟩ := Nat.exists_eq_add_one.mpr (Nat.zero_lt_of_lt hfuel)
    have hfirst := has a List.mem_cons_self _ (separated_writeTail write as rest)
    have hrest := ih (fun b hb => has b (List.mem_cons_of_mem _ hb)) (Nat.lt_of_succ_lt_succ hfuel)
    simp only [writeTail, List.cons_append, List.append_assoc, tail]
    rw [if_neg hclose.symm, if_pos trivial, hfirst]
    simp only [Option.bind_some, hrest, Option.map_some]

theorem list_undoes (hclose : close ≠ ',') {as : List α}
    (has : ∀ a ∈ as, Undoes read write (Separated close) a)
    (hnone : ∀ rest, read (close :: rest) = none) {fuel : ℕ} (hfuel : as.length ≤ fuel)
    (rest : List Char) :
    list read close fuel (writeList write close as ++ rest) = some (as, rest) := by
  unfold list
  cases as with
  | nil =>
    simp only [writeList, List.singleton_append, hnone]
    exact if_pos rfl
  | cons a as =>
    have hfirst := has a List.mem_cons_self _ (separated_writeTail write as rest)
    have hrest := tail_undoes hclose (fun b hb => has b (List.mem_cons_of_mem _ hb)) hfuel rest
    simp only [writeList, List.append_assoc, hfirst, hrest, Option.map_some]

theorem length_write_le (write : α → List Char) (close : Char) {as : List α} {a : α} (ha : a ∈ as) :
    (write a).length ≤ (writeList write close as).length := by
  have htail : ∀ as : List α, a ∈ as →
      (write a).length ≤ (writeTail write close as).length := by
    intro as
    induction as with
    | nil => exact fun h => absurd h List.not_mem_nil
    | cons b as ih =>
      intro ha
      simp only [writeTail, List.length_cons, List.length_append]
      rcases List.mem_cons.mp ha with rfl | ha
      · omega
      · have := ih ha
        omega
  cases as with
  | nil => exact absurd ha List.not_mem_nil
  | cons b as =>
    simp only [writeList, List.length_append]
    rcases List.mem_cons.mp ha with rfl | ha
    · omega
    · have := htail as ha
      omega

theorem length_le_writeList (write : α → List Char) (close : Char) (as : List α) :
    as.length ≤ (writeList write close as).length := by
  have htail : ∀ as : List α, as.length < (writeTail write close as).length := by
    intro as
    induction as with
    | nil => exact Nat.one_pos
    | cons b as ih =>
      simp only [writeTail, List.length_cons, List.length_append]
      omega
  cases as with
  | nil => exact Nat.zero_le _
  | cons b as =>
    have := htail as
    simp only [writeList, List.length_cons, List.length_append]
    omega

end Lists

end Reader
