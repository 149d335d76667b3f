import Mathlib.Algebra.Group.Nat.Defs
import Mathlib.Tactic.Ring

/-! The Gregorian calendar, and the texts that RFC 3339 has for instants in UTC. Instants are counted
in nanoseconds from 1970. -/

namespace Calendar

structure Date where
  year : ℤ
  month : ℕ
  day : ℕ
deriving DecidableEq

/-- The date `n` days after 1 March of the year 0. A leap day comes last in its year, in its four
years, in its century but for every fourth, and in its four centuries. -/
def ofDays (n : ℤ) : Date :=
  let inEra := (n % 146097).toNat
  let century := min (inEra / 36524) 3
  let inCentury := inEra - 36524 * century
  let year := min (inCentury % 1461 / 365) 3
  let inYear := inCentury % 1461 - 365 * year
  let month := (5 * inYear + 2) / 153
  ⟨400 * (n / 146097) + 100 * century + 4 * (inCentury / 1461 : ℕ) + year +
      if month < 10 then 0 else 1,
    if month < 10 then month + 3 else month - 9, inYear - (153 * month + 2) / 5 + 1⟩

def toDays (d : Date) : ℤ :=
  let month := if 3 ≤ d.month then d.month - 3 else d.month + 9
  let year := if 3 ≤ d.month then d.year else d.year - 1
  146097 * (year / 400) + 36524 * (year % 400 / 100) + 1461 * (year % 100 / 4) + 365 * (year % 4) +
    ((153 * month + 2) / 5 + d.day - 1 : ℕ)

theorem ofDays_cases (n : ℤ) : ∃ century quad year month day : ℕ,
    century ≤ 3 ∧ quad ≤ 24 ∧ year ≤ 3 ∧ month ≤ 11 ∧ day ≤ 30 ∧
    n = 146097 * (n / 146097) + 36524 * century + 1461 * quad + 365 * year +
      ((153 * month + 2) / 5 + day : ℕ) ∧
    ofDays n = ⟨400 * (n / 146097) + 100 * century + 4 * quad + year + if month < 10 then 0 else 1,
      if month < 10 then month + 3 else month - 9, day + 1⟩ := by
  unfold ofDays
  dsimp only
  have hera : ((n % 146097).toNat : ℤ) = n % 146097 := Int.toNat_of_nonneg (by omega)
  have hsplit : n = 146097 * (n / 146097) + (n % 146097).toNat := by omega
  have hlt : (n % 146097).toNat < 146097 := by omega
  generalize (n % 146097).toNat = inEra at *
  clear hera
  obtain ⟨century, hcentury⟩ : ∃ c, c = min (inEra / 36524) 3 := ⟨_, rfl⟩
  rw [← hcentury]
  have hcentury' : century ≤ 3 ∧ 36524 * century ≤ inEra ∧ inEra - 36524 * century ≤ 36524 := by
    omega
  clear hcentury
  obtain ⟨inCentury, hinCentury⟩ : ∃ r, r = inEra - 36524 * century := ⟨_, rfl⟩
  rw [← hinCentury]
  obtain ⟨year, hyear⟩ : ∃ y, y = min (inCentury % 1461 / 365) 3 := ⟨_, rfl⟩
  rw [← hyear]
  have hyear' : year ≤ 3 ∧ 365 * year ≤ inCentury % 1461 ∧
      inCentury % 1461 - 365 * year ≤ 365 := by omega
  clear hyear
  obtain ⟨inYear, hinYear⟩ : ∃ r, r = inCentury % 1461 - 365 * year := ⟨_, rfl⟩
  rw [← hinYear]
  refine ⟨century, inCentury / 1461, year, (5 * inYear + 2) / 153,
    inYear - (153 * ((5 * inYear + 2) / 153) + 2) / 5, hcentury'.1, ?_, hyear'.1, ?_, ?_, ?_, rfl⟩
  · omega
  · omega
  · omega
  · omega

theorem toDays_eq {era : ℤ} {century quad year month day : ℕ} {d : Date} (hcentury : century ≤ 3)
    (hquad : quad ≤ 24) (hyear : year ≤ 3)
    (hd : (if 3 ≤ d.month then d.year else d.year - 1) =
      400 * era + 100 * century + 4 * quad + year)
    (hmonth : (if 3 ≤ d.month then d.month - 3 else d.month + 9) = month) (hday : d.day = day + 1) :
    toDays d = 146097 * era + 36524 * century + 1461 * quad + 365 * year +
      ((153 * month + 2) / 5 + day : ℕ) := by
  unfold toDays
  rw [hd, hmonth, hday]
  dsimp only
  omega

theorem toDays_ofDays (n : ℤ) : toDays (ofDays n) = n := by
  obtain ⟨century, quad, year, month, day, hcentury, hquad, hyear, hmonth, hday, hn, hdate⟩ :=
    ofDays_cases n
  refine (toDays_eq hcentury hquad hyear ?_ ?_ ?_).trans hn.symm
  · rw [hdate]
    by_cases hm : month < 10
    · simp [hm]
    · simp only [hm, if_false]
      rw [if_neg (by omega)]
      ring
  · rw [hdate]
    by_cases hm : month < 10
    · simp [hm]
    · simp only [hm, if_false]
      rw [if_neg (by omega)]
      omega
  · rw [hdate]

theorem month_day_ofDays (n : ℤ) : (ofDays n).month < 100 ∧ (ofDays n).day < 100 := by
  obtain ⟨century, quad, year, month, day, -, -, -, hmonth, hday, -, hdate⟩ := ofDays_cases n
  rw [hdate]
  constructor
  · dsimp only
    split_ifs <;> omega
  · dsimp only
    omega

theorem year_ofDays {n : ℤ} (hlow : -60 ≤ n) (hhigh : n < 3652365) :
    0 ≤ (ofDays n).year ∧ (ofDays n).year < 10000 := by
  obtain ⟨century, quad, year, month, day, hcentury, hquad, hyear, hmonth, hday, hn, hdate⟩ :=
    ofDays_cases n
  generalize n / 146097 = era at hn hdate
  rw [hdate]
  dsimp only
  have hera : -1 ≤ era ∧ era ≤ 24 := by omega
  -- Only the last months of the year before 0 and of 9999 are at stake.
  have hfirst : era = -1 → century = 3 ∧ quad = 24 ∧ year = 3 ∧ 10 ≤ month := by
    rintro rfl
    refine ⟨by omega, by omega, by omega, by omega⟩
  have hlast : era = 24 → century = 3 → quad = 24 → year = 3 → month < 10 := by
    rintro rfl rfl rfl rfl
    omega
  split_ifs with hm
  · omega
  · omega

/-! Numbers of a fixed width. -/

def fixed : ℕ → ℕ → List Char
  | 0, _ => []
  | width + 1, n => fixed width (n / 10) ++ [(n % 10).digitChar]

@[simp] theorem length_fixed (width n : ℕ) : (fixed width n).length = width := by
  induction width generalizing n with
  | zero => rfl
  | succ width ih => simp [fixed, ih]

theorem isDigit_of_mem_fixed {width n : ℕ} {c : Char} (hc : c ∈ fixed width n) :
    c.isDigit = true := by
  induction width generalizing n with
  | zero => cases hc
  | succ width ih =>
    rcases List.mem_append.mp hc with hc | hc
    · exact ih hc
    · rw [List.mem_singleton.mp hc, Nat.isDigit_digitChar, decide_eq_true_eq]
      omega

theorem ofDigitChars_fixed {width n : ℕ} (h : n < 10 ^ width) :
    Nat.ofDigitChars 10 (fixed width n) 0 = n := by
  induction width generalizing n with
  | zero =>
    rw [Nat.pow_zero] at h
    exact (Nat.lt_one_iff.mp h).symm
  | succ width ih =>
    have hdigit : ∀ d < 10, d.digitChar.toNat - '0'.toNat = d := by decide
    rw [fixed, Nat.ofDigitChars_append, ih (by rw [Nat.pow_succ] at h; omega),
      Nat.ofDigitChars_cons, hdigit _ (Nat.mod_lt n (by decide))]
    exact Nat.div_add_mod n 10

/-! Instants. -/

def nanosOfDay : ℕ := 86400 * 10 ^ 9

/-- From 1 March of the year 0 to 1 January 1970. -/
def epoch : ℤ := 719468

/-- Years beyond the four digits have a sign. -/
def writeYear (year : ℤ) : List Char :=
  if 0 ≤ year ∧ year < 10000 then fixed 4 year.toNat
  else (if year < 0 then '-' else '+') ::
    (if year.natAbs < 10000 then fixed 4 year.natAbs else Nat.toDigits 10 year.natAbs)

/-- The instant up to its seconds. -/
def writeSeconds (t : ℤ) : List Char :=
  let date := ofDays (t / nanosOfDay + epoch)
  let second := (t % nanosOfDay).toNat / 10 ^ 9
  writeYear date.year ++ ('-' :: fixed 2 date.month) ++ ('-' :: fixed 2 date.day) ++
    ('T' :: fixed 2 (second / 3600)) ++ (':' :: fixed 2 (second / 60 % 60)) ++
    (':' :: fixed 2 (second % 60))

/-- The instant with a fraction of `width` digits, at most nine. -/
def write (width : ℕ) (t : ℤ) : List Char :=
  writeSeconds t ++ '.' :: fixed width ((t % nanosOfDay).toNat % 10 ^ 9 / 10 ^ (9 - width)) ++ ['Z']

/-- The number in the `width` characters from position `start`. -/
def field (text : List Char) (start width : ℕ) : ℕ :=
  Nat.ofDigitChars 10 ((text.drop start).take width) 0

/-- The instant whose numbers stand where `write 9` puts them. -/
def instant (text : List Char) : ℤ :=
  (toDays ⟨field text 0 4, field text 5 2, field text 8 2⟩ - epoch) * nanosOfDay +
    ((field text 11 2 * 3600 + field text 14 2 * 60 + field text 17 2) * 10 ^ 9 +
      field text 20 9 : ℕ)

/-- Reads what `write 9` writes, and nothing else. -/
def read (text : List Char) : Option ℤ :=
  if write 9 (instant text) = text then some (instant text) else none

theorem field_eq {text after : List Char} (before : List Char) {start width n : ℕ}
    (htext : text = before ++ (fixed width n ++ after)) (hstart : before.length = start)
    (hn : n < 10 ^ width) : field text start width = n := by
  subst htext hstart
  unfold field
  rw [List.drop_left, List.take_left' (length_fixed width n), ofDigitChars_fixed hn]

theorem instant_parts {year month day hour minute second nanos : ℕ} (hyear : year < 10 ^ 4)
    (hmonth : month < 10 ^ 2) (hday : day < 10 ^ 2) (hhour : hour < 10 ^ 2)
    (hminute : minute < 10 ^ 2) (hsecond : second < 10 ^ 2) (hnanos : nanos < 10 ^ 9) :
    instant (fixed 4 year ++ ('-' :: fixed 2 month) ++ ('-' :: fixed 2 day) ++
      ('T' :: fixed 2 hour) ++ (':' :: fixed 2 minute) ++ (':' :: fixed 2 second) ++
      '.' :: fixed 9 nanos ++ ['Z']) =
    (toDays ⟨year, month, day⟩ - epoch) * nanosOfDay +
      ((hour * 3600 + minute * 60 + second) * 10 ^ 9 + nanos : ℕ) := by
  simp only [List.append_assoc, List.cons_append]
  generalize htext : fixed 4 year ++ _ = text
  have hyear' : field text 0 4 = year := field_eq [] htext.symm rfl hyear
  have hmonth' : field text 5 2 = month :=
    field_eq (fixed 4 year ++ ['-']) (htext.symm.trans (by simp; rfl)) (by simp) hmonth
  have hday' : field text 8 2 = day :=
    field_eq (fixed 4 year ++ '-' :: fixed 2 month ++ ['-']) (htext.symm.trans (by simp; rfl))
      (by simp) hday
  have hhour' : field text 11 2 = hour :=
    field_eq (fixed 4 year ++ '-' :: fixed 2 month ++ '-' :: fixed 2 day ++ ['T'])
      (htext.symm.trans (by simp; rfl)) (by simp) hhour
  have hminute' : field text 14 2 = minute :=
    field_eq (fixed 4 year ++ '-' :: fixed 2 month ++ '-' :: fixed 2 day ++ 'T' :: fixed 2 hour ++
      [':']) (htext.symm.trans (by simp; rfl)) (by simp) hminute
  have hsecond' : field text 17 2 = second :=
    field_eq (fixed 4 year ++ '-' :: fixed 2 month ++ '-' :: fixed 2 day ++ 'T' :: fixed 2 hour ++
      ':' :: fixed 2 minute ++ [':']) (htext.symm.trans (by simp; rfl)) (by simp) hsecond
  have hnanos' : field text 20 9 = nanos :=
    field_eq (fixed 4 year ++ '-' :: fixed 2 month ++ '-' :: fixed 2 day ++ 'T' :: fixed 2 hour ++
      ':' :: fixed 2 minute ++ ':' :: fixed 2 second ++ ['.']) (htext.symm.trans (by simp; rfl))
      (by simp) hnanos
  unfold instant
  rw [hyear', hmonth', hday', hhour', hminute', hsecond', hnanos']

/-- The instants from 0000-01-01 up to 10000-01-01 are read back. -/
theorem read_write {t : ℤ} (hlow : -62167219200 * 10 ^ 9 ≤ t) (hhigh : t < 253402300800 * 10 ^ 9) :
    read (write 9 t) = some t := by
  have hnanos : (nanosOfDay : ℤ) = 86400000000000 := by decide
  have hyear : 0 ≤ (ofDays (t / nanosOfDay + epoch)).year ∧
      (ofDays (t / nanosOfDay + epoch)).year < 10000 := by
    rw [hnanos]
    exact year_ofDays (by unfold epoch; omega) (by unfold epoch; omega)
  have hmonth := month_day_ofDays (t / nanosOfDay + epoch)
  have hdays := toDays_ofDays (t / nanosOfDay + epoch)
  have hrest : (t % nanosOfDay).toNat < 86400000000000 := by
    rw [hnanos]
    omega
  have hsplit : t = t / nanosOfDay * nanosOfDay + (t % nanosOfDay).toNat := by
    rw [hnanos]
    omega
  suffices h : instant (write 9 t) = t by
    unfold read
    rw [h, if_pos rfl]
  unfold write writeSeconds
  dsimp only
  generalize hdate : ofDays (t / nanosOfDay + epoch) = date at hyear hmonth hdays ⊢
  generalize (t % nanosOfDay).toNat = rest at hrest hsplit ⊢
  rw [writeYear, if_pos hyear, instant_parts (by omega) hmonth.1 hmonth.2 (by omega) (by omega)
    (by omega) (by omega), Int.toNat_of_nonneg hyear.1, hdays, add_sub_cancel_right]
  refine Eq.trans ?_ hsplit.symm
  congr 2
  omega

end Calendar
