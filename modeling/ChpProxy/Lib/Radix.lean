import ChpProxy.Lib.Text
import Mathlib.Data.Nat.Notation
import Mathlib.Tactic.Linarith

/-! Unsigned numbers written in a radix, and the reader of the Rust standard library. -/
namespace Radix

variable {radix limit acc n : ℕ} {digits : List Char}

def digit? (radix : ℕ) (c : Char) : Option ℕ :=
  let digit :=
    if '0' ≤ c ∧ c ≤ '9' then c.toNat - '0'.toNat
    else if 'a' ≤ c ∧ c ≤ 'z' then c.toNat - 'a'.toNat + 10
    else if 'A' ≤ c ∧ c ≤ 'Z' then c.toNat - 'A'.toNat + 10
    else radix
  if digit < radix then some digit else none

/-- The number that digits stand for when they follow `acc`. -/
def valueFrom (radix : ℕ) : List Char → ℕ → Option ℕ
  | [], acc => some acc
  | c :: digits, acc => (digit? radix c).bind fun d => valueFrom radix digits (acc * radix + d)

/-- `checked_mul` and `checked_add` refuse what exceeds the limit. -/
def parseFrom (radix limit : ℕ) : List Char → ℕ → Option ℕ
  | [], acc => some acc
  | c :: digits, acc => (digit? radix c).bind fun d =>
    if limit < acc * radix + d then none else parseFrom radix limit digits (acc * radix + d)

def fromStrRadix (radix limit : ℕ) : List Char → Option ℕ
  | [] | ['+'] | ['-'] => none
  | '+' :: digits => parseFrom radix limit digits 0
  | digits => parseFrom radix limit digits 0

theorem le_of_valueFrom (hradix : 0 < radix) (h : valueFrom radix digits acc = some n) :
    acc ≤ n := by
  induction digits generalizing acc with
  | nil => exact (Option.some.inj h).le
  | cons c digits ih =>
    obtain ⟨d, -, hrest⟩ := Option.bind_eq_some_iff.mp h
    have hstep := ih hrest
    have hmul := Nat.le_mul_of_pos_right acc hradix
    omega

theorem parseFrom_eq (hradix : 0 < radix) (hn : n ≤ limit)
    (h : valueFrom radix digits acc = some n) : parseFrom radix limit digits acc = some n := by
  induction digits generalizing acc with
  | nil => exact h
  | cons c digits ih =>
    obtain ⟨d, hd, hrest⟩ := Option.bind_eq_some_iff.mp h
    have hle := le_of_valueFrom hradix hrest
    have hfits : ¬limit < acc * radix + d := by omega
    unfold parseFrom
    rw [hd, Option.bind_some, if_neg hfits]
    exact ih hrest

theorem digit?_plus (radix : ℕ) : digit? radix '+' = none := by
  change (if radix < radix then some radix else none) = none
  rw [if_neg (Nat.lt_irrefl radix)]

theorem digit?_minus (radix : ℕ) : digit? radix '-' = none := by
  change (if radix < radix then some radix else none) = none
  rw [if_neg (Nat.lt_irrefl radix)]

theorem exists_digit_of_valueFrom (h : valueFrom radix digits acc = some n) {c : Char}
    (hc : c ∈ digits) : ∃ d, digit? radix c = some d := by
  induction digits generalizing acc with
  | nil => exact absurd hc List.not_mem_nil
  | cons a digits ih =>
    obtain ⟨d, hd, hrest⟩ := Option.bind_eq_some_iff.mp h
    rcases List.mem_cons.mp hc with rfl | hc
    · exact ⟨d, hd⟩
    · exact ih hrest hc

theorem isAlphanum_of_digit? {c : Char} {d : ℕ} (h : digit? radix c = some d) :
    c.isAlphanum = true := by
  unfold digit? at h
  rw [Text.isAlphanum_iff]
  split_ifs at h with hdecimal hlower hupper
  · exact .inr (.inr hdecimal)
  · exact .inr (.inl hlower)
  · exact .inl hupper
  · change (if radix < radix then some radix else none) = some d at h
    rw [if_neg (Nat.lt_irrefl radix)] at h
    cases h

theorem toNat_lt_of_digit? {c : Char} {d : ℕ} (h : digit? radix c = some d) : c.toNat < 128 := by
  rcases Text.isAlphanum_iff.mp (isAlphanum_of_digit? h) with ⟨-, hle⟩ | ⟨-, hle⟩ | ⟨-, hle⟩
  · exact Nat.lt_of_le_of_lt hle (by decide)
  · exact Nat.lt_of_le_of_lt hle (by decide)
  · exact Nat.lt_of_le_of_lt hle (by decide)

theorem digit?_lt {c : Char} {d : ℕ} (h : digit? radix c = some d) : d < radix := by
  have hfits : ∀ n : ℕ, (if n < radix then some n else none) = some d → d < radix := by
    intro n hn
    split_ifs at hn with hlt
    rwa [← Option.some.inj hn]
  exact hfits _ h

theorem digit?_mono {radix' : ℕ} (hle : radix ≤ radix') {c : Char} {d : ℕ}
    (h : digit? radix c = some d) : digit? radix' c = some d := by
  have hlt := digit?_lt h
  unfold digit? at h ⊢
  dsimp only at h ⊢
  split_ifs at h ⊢ with h1 h2 h3 h4 h5
  all_goals first
    | exact h
    | (have hd := Option.some.inj h; omega)

theorem fromStrRadix_digits (hradix : 0 < radix) (hne : digits ≠ []) (hn : n ≤ limit)
    (h : valueFrom radix digits 0 = some n) : fromStrRadix radix limit digits = some n := by
  obtain ⟨c, rest, rfl⟩ := List.exists_cons_of_ne_nil hne
  obtain ⟨d, hd, -⟩ := Option.bind_eq_some_iff.mp h
  have hplus : c ≠ '+' := by
    rintro rfl
    rw [digit?_plus] at hd
    cases hd
  have hminus : c ≠ '-' := by
    rintro rfl
    rw [digit?_minus] at hd
    cases hd
  unfold fromStrRadix
  split
  · next heq => cases heq
  · next heq => exact absurd (List.cons.inj heq).1 hplus
  · next heq => exact absurd (List.cons.inj heq).1 hminus
  · next heq => exact absurd (List.cons.inj heq).1 hplus
  · exact parseFrom_eq hradix hn h

/-- The numerals that `from_str_radix` reads: digits, perhaps after a plus sign. -/
inductive Numeral (radix : ℕ) : List Char → ℕ → Prop
  | digits {digits : List Char} {n : ℕ} (hne : digits ≠ [])
      (h : valueFrom radix digits 0 = some n) : Numeral radix digits n
  | plus {digits : List Char} {n : ℕ} (hne : digits ≠ [])
      (h : valueFrom radix digits 0 = some n) : Numeral radix ('+' :: digits) n

theorem parseFrom_eq_some (hacc : acc ≤ limit) (h : parseFrom radix limit digits acc = some n) :
    valueFrom radix digits acc = some n ∧ n ≤ limit := by
  induction digits generalizing acc with
  | nil =>
    obtain rfl := Option.some.inj h
    exact ⟨rfl, hacc⟩
  | cons c digits ih =>
    obtain ⟨d, hd, hrest⟩ := Option.bind_eq_some_iff.mp h
    split_ifs at hrest with hlarge
    obtain ⟨hvalue, hn⟩ := ih (Nat.le_of_not_lt hlarge) hrest
    refine ⟨?_, hn⟩
    rw [valueFrom, hd, Option.bind_some, hvalue]

/-- `from_str_radix` reads the numerals up to the limit, and nothing else. -/
theorem fromStrRadix_eq_some_iff (hradix : 0 < radix) :
    fromStrRadix radix limit digits = some n ↔ Numeral radix digits n ∧ n ≤ limit := by
  constructor
  · intro h
    unfold fromStrRadix at h
    split at h
    · cases h
    · cases h
    · cases h
    · next _ digits hplus =>
      obtain ⟨hvalue, hn⟩ := parseFrom_eq_some (Nat.zero_le limit) h
      refine ⟨.plus ?_ hvalue, hn⟩
      rintro rfl
      exact hplus rfl
    · next hnil _ _ _ =>
      obtain ⟨hvalue, hn⟩ := parseFrom_eq_some (Nat.zero_le limit) h
      exact ⟨.digits hnil hvalue, hn⟩
  · rintro ⟨hnumeral, hn⟩
    cases hnumeral with
    | digits hne h => exact fromStrRadix_digits hradix hne hn h
    | plus hne h =>
      obtain ⟨c, rest, rfl⟩ := List.exists_cons_of_ne_nil hne
      exact parseFrom_eq hradix hn h

theorem Numeral.visible (h : Numeral radix digits n) {c : Char} (hc : c ∈ digits) :
    c = '+' ∨ c.isAlphanum = true := by
  have hdigit : ∀ {ds : List Char} {c : Char}, valueFrom radix ds 0 = some n → c ∈ ds →
      c.isAlphanum = true := by
    intro ds c hvalue hc
    obtain ⟨d, hd⟩ := exists_digit_of_valueFrom hvalue hc
    exact isAlphanum_of_digit? hd
  cases h with
  | digits _ hvalue => exact .inr (hdigit hvalue hc)
  | plus _ hvalue => exact (List.mem_cons.mp hc).imp_right (hdigit hvalue)

/-! Numbers as they are written. -/

theorem valueFrom_append (digits more : List Char) (acc : ℕ) :
    valueFrom radix (digits ++ more) acc =
      (valueFrom radix digits acc).bind fun n => valueFrom radix more n := by
  induction digits generalizing acc with
  | nil => rfl
  | cons c digits ih =>
    rw [List.cons_append, valueFrom, valueFrom, Option.bind_assoc]
    congr 1
    funext d
    exact ih (acc * radix + d)

/-- The characters that Lean writes for digits are read as those digits. -/
def Writes (radix : ℕ) : Prop := ∀ d < radix, digit? radix d.digitChar = some d

theorem writes_ten : Writes 10 := by
  have hall : ∀ d : Fin 10, digit? 10 d.val.digitChar = some d.val := by decide
  exact fun d hd => hall ⟨d, hd⟩

theorem writes_sixteen : Writes 16 := by
  have hall : ∀ d : Fin 16, digit? 16 d.val.digitChar = some d.val := by decide
  exact fun d hd => hall ⟨d, hd⟩

theorem valueFrom_toDigits (hwrites : Writes radix) (hradix : 1 < radix) (n : ℕ) :
    valueFrom radix (Nat.toDigits radix n) 0 = some n := by
  induction n using Nat.strong_induction_on with
  | _ n ih =>
    by_cases hn : n < radix
    · rw [Nat.toDigits_of_lt_base hn, valueFrom, hwrites n hn, Option.bind_some, Nat.zero_mul,
        Nat.zero_add]
      rfl
    · have hle : radix ≤ n := Nat.le_of_not_lt hn
      have hlt : n / radix < n := Nat.div_lt_self (by omega) hradix
      have hdigit := hwrites (n % radix) (Nat.mod_lt n (by omega))
      rw [Nat.toDigits_of_base_le hradix hle, valueFrom_append, ih _ hlt, Option.bind_some,
        valueFrom, hdigit, Option.bind_some, Nat.mul_comm, Nat.div_add_mod]
      rfl

theorem repr_inj {m n : ℕ} (h : (Nat.repr m).toList = (Nat.repr n).toList) : m = n := by
  have hm := valueFrom_toDigits writes_ten (by decide) m
  have hn := valueFrom_toDigits writes_ten (by decide) n
  have hdigits : Nat.toDigits 10 m = Nat.toDigits 10 n := by simpa [Nat.repr] using h
  rw [hdigits, hn] at hm
  exact (Option.some.inj hm).symm

end Radix
