import ChpProxy.Lib.Radix
import ChpProxy.Lib.Utf8

/-! Percent-encoding. An octet stands for itself, or is written as a percent sign and two hexadecimal
digits. -/
namespace Percent

/-- Every percent sign is followed by two hexadecimal digits. -/
def WellEscaped (text : List Char) : Prop :=
  ∀ before rest, text = before ++ '%' :: rest → ∃ high low tail, rest = high :: low :: tail ∧
    (Radix.digit? 16 high).isSome ∧ (Radix.digit? 16 low).isSome

def hexValue (c : Char) : ℕ := (Radix.digit? 16 c).getD 0

/-- The octets that a text stands for. -/
def unescape : List Char → List UInt8
  | [] => []
  | c :: rest =>
    if c = '%' then
      match rest with
      | high :: low :: rest => UInt8.ofNat (16 * hexValue high + hexValue low) :: unescape rest
      | _ => []
    else String.utf8EncodeChar c ++ unescape rest

theorem unescape_cons {c : Char} (h : c ≠ '%') (rest : List Char) :
    unescape (c :: rest) = String.utf8EncodeChar c ++ unescape rest := by
  rw [unescape.eq_def]
  exact if_neg h

theorem wellEscaped_nil : WellEscaped [] := by
  intro before rest h
  simp at h

theorem wellEscaped_cons_iff {c : Char} (h : c ≠ '%') {rest : List Char} :
    WellEscaped (c :: rest) ↔ WellEscaped rest := by
  constructor
  · intro hescaped before tail htext
    exact hescaped (c :: before) tail (by rw [htext, List.cons_append])
  · intro hescaped before tail htext
    cases before with
    | nil => exact absurd (List.cons.inj htext).1 h
    | cons d before => exact hescaped before tail (List.cons.inj htext).2

theorem ne_percent_of_digit {c : Char} (h : (Radix.digit? 16 c).isSome) : c ≠ '%' := by
  rintro rfl
  exact absurd h (by decide)

theorem wellEscaped_percent_iff {text : List Char} :
    WellEscaped ('%' :: text) ↔ ∃ high low rest, text = high :: low :: rest ∧
      (Radix.digit? 16 high).isSome ∧ (Radix.digit? 16 low).isSome ∧ WellEscaped rest := by
  constructor
  · intro h
    obtain ⟨high, low, rest, rfl, hhigh, hlow⟩ := h [] text rfl
    refine ⟨high, low, rest, rfl, hhigh, hlow, ?_⟩
    intro before tail htext
    exact h ('%' :: high :: low :: before) tail (by rw [htext]; rfl)
  · rintro ⟨high, low, rest, rfl, hhigh, hlow, hrest⟩ before tail htext
    cases before with
    | nil =>
      obtain rfl := (List.cons.inj htext).2
      exact ⟨high, low, rest, rfl, hhigh, hlow⟩
    | cons c before =>
      -- the digits are no percent signs themselves
      have hdigits : WellEscaped (high :: low :: rest) :=
        (wellEscaped_cons_iff (ne_percent_of_digit hhigh)).mpr
          ((wellEscaped_cons_iff (ne_percent_of_digit hlow)).mpr hrest)
      exact hdigits before tail (List.cons.inj htext).2

/-! Encoding. -/

def hexDigit (nibble : UInt8) : Char :=
  Char.ofNat (if nibble < 10 then '0'.toNat + nibble.toNat else 'A'.toNat + nibble.toNat - 10)

def encodeByte (literal : UInt8 → Bool) (byte : UInt8) : List Char :=
  if literal byte then [Char.ofNat byte.toNat]
  else ['%', hexDigit (byte >>> 4), hexDigit (byte &&& 0x0f)]

def encode (literal : UInt8 → Bool) (bytes : List UInt8) : List Char :=
  bytes.flatMap (encodeByte literal)

/-- A text of allowed characters and of escapes with capital digits. -/
inductive Spelled (allowed : Char → Bool) : List Char → Prop
  | nil : Spelled allowed []
  | literal {c : Char} {rest : List Char} (ok : allowed c = true) (tail : Spelled allowed rest) :
      Spelled allowed (c :: rest)
  | escape {high low : Char} {rest : List Char} (ok : high ∈ "0123456789ABCDEF".toList)
      (ok' : low ∈ "0123456789ABCDEF".toList) (tail : Spelled allowed rest) :
      Spelled allowed ('%' :: high :: low :: rest)

theorem digit?_hexDigit {nibble : UInt8} (h : nibble < 16) :
    Radix.digit? 16 (hexDigit nibble) = some nibble.toNat ∧
      hexDigit nibble ∈ "0123456789ABCDEF".toList := by
  have hall : ∀ n : Fin 16, Radix.digit? 16 (hexDigit (UInt8.ofNat n)) = some n.val ∧
      hexDigit (UInt8.ofNat n) ∈ "0123456789ABCDEF".toList := by
    decide +kernel
  have hn := hall ⟨nibble.toNat, h⟩
  rwa [UInt8.ofNat_toNat] at hn

theorem nibbles (byte : UInt8) : byte >>> 4 < 16 ∧ byte &&& 0x0f < 16 ∧
    UInt8.ofNat (16 * (byte >>> 4).toNat + (byte &&& 0x0f).toNat) = byte := by
  have hbyte := byte.toNat_lt
  have hhigh : (byte >>> 4).toNat = byte.toNat / 16 := by
    rw [UInt8.toNat_shiftRight, Nat.shiftRight_eq_div_pow]
    rfl
  have hlow : (byte &&& 0x0f).toNat = byte.toNat % 16 := by
    rw [UInt8.toNat_and]
    exact Nat.and_two_pow_sub_one_eq_mod byte.toNat 4
  refine ⟨?_, ?_, ?_⟩
  · rw [UInt8.lt_iff_toNat_lt, hhigh]
    change _ < 16
    omega
  · rw [UInt8.lt_iff_toNat_lt, hlow]
    change _ < 16
    omega
  · rw [hhigh, hlow, Nat.div_add_mod, UInt8.ofNat_toNat]

theorem hexValue_hexDigit {nibble : UInt8} (h : nibble < 16) :
    hexValue (hexDigit nibble) = nibble.toNat := by
  rw [hexValue, (digit?_hexDigit h).1, Option.getD_some]

section Literals

variable {literal : UInt8 → Bool}

/-- The characters that stand for themselves are in ASCII, and the percent sign is not one. -/
def Plain (literal : UInt8 → Bool) : Prop :=
  ∀ byte, literal byte = true → byte.toNat < 128 ∧ byte ≠ 0x25

theorem plain_of_forall (h : ∀ n : Fin 256, literal (UInt8.ofNat n) = true →
    n.val < 128 ∧ n.val ≠ 0x25) : Plain literal := by
  intro byte hbyte
  obtain ⟨hascii, hne⟩ := h ⟨byte.toNat, byte.toNat_lt⟩ (by rwa [UInt8.ofNat_toNat])
  refine ⟨hascii, ?_⟩
  rintro rfl
  exact hne rfl

theorem Plain.ne_percent (hplain : Plain literal) {byte : UInt8} (h : literal byte = true) :
    Char.ofNat byte.toNat ≠ '%' := by
  obtain ⟨hascii, hne⟩ := hplain byte h
  intro heq
  have hnat : byte.toNat = 0x25 := by rw [← Utf8.toNat_ofNat_of_ascii hascii, heq]; rfl
  exact hne (UInt8.toNat_inj.mp hnat)

theorem Plain.encodeByte_append (hplain : Plain literal) (byte : UInt8) (rest : List Char) :
    (WellEscaped (encodeByte literal byte ++ rest) ↔ WellEscaped rest) ∧
      unescape (encodeByte literal byte ++ rest) = byte :: unescape rest := by
  unfold encodeByte
  split_ifs with h
  · have hne := hplain.ne_percent h
    have hascii := Utf8.toNat_ofNat_of_ascii (hplain byte h).1
    rw [List.singleton_append, unescape_cons hne, wellEscaped_cons_iff hne,
      Utf8.utf8EncodeChar_of_ascii (by rw [hascii]; exact (hplain byte h).1), hascii,
      UInt8.ofNat_toNat, List.singleton_append]
    exact ⟨Iff.rfl, rfl⟩
  · obtain ⟨hhigh, hlow, hjoined⟩ := nibbles byte
    constructor
    · change WellEscaped ('%' :: _) ↔ _
      rw [wellEscaped_percent_iff]
      constructor
      · rintro ⟨high, low, tail, htext, -, -, hrest⟩
        obtain ⟨-, htext⟩ := List.cons.inj htext
        obtain ⟨-, rfl⟩ := List.cons.inj htext
        exact hrest
      · intro hrest
        refine ⟨_, _, rest, rfl, ?_, ?_, hrest⟩
        · rw [(digit?_hexDigit hhigh).1, Option.isSome_some]
        · rw [(digit?_hexDigit hlow).1, Option.isSome_some]
    · change UInt8.ofNat (16 * hexValue _ + hexValue _) :: unescape rest = _
      rw [hexValue_hexDigit hhigh, hexValue_hexDigit hlow, hjoined]

theorem Plain.unescape_encode (hplain : Plain literal) (bytes : List UInt8) :
    WellEscaped (encode literal bytes) ∧ unescape (encode literal bytes) = bytes := by
  induction bytes with
  | nil => exact ⟨wellEscaped_nil, rfl⟩
  | cons byte bytes ih =>
    obtain ⟨hescaped, hbytes⟩ := hplain.encodeByte_append byte (encode literal bytes)
    change WellEscaped (encodeByte literal byte ++ encode literal bytes) ∧
      unescape (encodeByte literal byte ++ encode literal bytes) = byte :: bytes
    rw [hescaped, hbytes, ih.2]
    exact ⟨ih.1, rfl⟩

theorem spelled_encode {allowed : Char → Bool}
    (hallowed : ∀ byte, literal byte = true → allowed (Char.ofNat byte.toNat) = true)
    (bytes : List UInt8) : Spelled allowed (encode literal bytes) := by
  induction bytes with
  | nil => exact .nil
  | cons byte bytes ih =>
    change Spelled allowed (encodeByte literal byte ++ encode literal bytes)
    unfold encodeByte
    split_ifs with h
    · exact .literal (hallowed byte h) ih
    · obtain ⟨hhigh, hlow, -⟩ := nibbles byte
      exact .escape (digit?_hexDigit hhigh).2 (digit?_hexDigit hlow).2 ih

end Literals

theorem Spelled.forall_mem {allowed P : Char → Bool} {text : List Char} (h : Spelled allowed text)
    (hallowed : ∀ c, allowed c = true → P c = true)
    (hescape : ('%' :: "0123456789ABCDEF".toList).all P = true) :
    ∀ c ∈ text, P c = true := by
  have hhex : ∀ c ∈ '%' :: "0123456789ABCDEF".toList, P c = true := List.all_eq_true.mp hescape
  induction h with
  | nil =>
    intro c hc
    cases hc
  | literal ok _ ih =>
    intro c hc
    rcases List.mem_cons.mp hc with rfl | hc
    · exact hallowed c ok
    · exact ih c hc
  | escape ok ok' _ ih =>
    intro c hc
    rcases List.mem_cons.mp hc with rfl | hc
    · exact hhex _ List.mem_cons_self
    rcases List.mem_cons.mp hc with rfl | hc
    · exact hhex _ (List.mem_cons_of_mem _ ok)
    rcases List.mem_cons.mp hc with rfl | hc
    · exact hhex _ (List.mem_cons_of_mem _ ok')
    · exact ih c hc

end Percent
