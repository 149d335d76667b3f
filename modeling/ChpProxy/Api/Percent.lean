import ChpProxy.Api.Octets
import ChpProxy.Lib.Percent

/-! What `percent_decode` accepts, and what it makes of an encoded text. -/
namespace ChpProxy.Api

theorem percentDecodeBytes_percent_iff {bytes decoded : List UInt8} :
    percentDecodeBytes (0x25 :: bytes) = some decoded ↔
      ∃ high low rest h l tail, bytes = high :: low :: rest ∧ hexValue high = some h ∧
        hexValue low = some l ∧ percentDecodeBytes rest = some tail ∧
        decoded = (h <<< 4 ||| l) :: tail := by
  constructor
  · intro hdecode
    rw [percentDecodeBytes.eq_def] at hdecode
    dsimp only at hdecode
    rw [if_pos rfl] at hdecode
    split at hdecode
    · next high low rest =>
      obtain ⟨h, hhigh, hdecode⟩ := Option.bind_eq_some_iff.mp hdecode
      obtain ⟨l, hlow, hdecode⟩ := Option.bind_eq_some_iff.mp hdecode
      obtain ⟨tail, htail, hdecode⟩ := Option.bind_eq_some_iff.mp hdecode
      exact ⟨high, low, rest, h, l, tail, rfl, hhigh, hlow, htail, (Option.some.inj hdecode).symm⟩
    · cases hdecode
  · rintro ⟨high, low, rest, h, l, tail, rfl, hhigh, hlow, htail, rfl⟩
    rw [percentDecodeBytes.eq_def]
    dsimp only
    rw [if_pos rfl, hhigh, hlow, htail]
    rfl

theorem percentDecodeBytes_append {bytes : List UInt8} (h : (0x25 : UInt8) ∉ bytes)
    (rest : List UInt8) :
    percentDecodeBytes (bytes ++ rest) = (percentDecodeBytes rest).map (bytes ++ ·) := by
  induction bytes with
  | nil => exact Option.map_id'.symm
  | cons byte bytes ih =>
    rw [List.mem_cons, not_or] at h
    rw [List.cons_append, percentDecodeBytes_cons_of_ne (Ne.symm h.1), ih h.2, Option.map_map]
    rfl

/-! Characters and their octets. -/

theorem percent_not_mem {c : Char} (h : c ≠ '%') : (0x25 : UInt8) ∉ String.utf8EncodeChar c := by
  intro hmem
  by_cases hascii : c.toNat < 128
  · rw [Utf8.utf8EncodeChar_of_ascii hascii, List.mem_singleton, ← UInt8.toNat_inj] at hmem
    have hsize : c.toNat < UInt8.size := Nat.lt_trans hascii (by decide)
    rw [UInt8.toNat_ofNat_of_lt' hsize] at hmem
    exact h (Char.toNat_inj.mp hmem.symm)
  · exact absurd (Utf8.le_of_mem_utf8EncodeChar hascii hmem) (by decide)

theorem hexValue_ascii {c : Char} (h : c.toNat < 128) :
    hexValue (UInt8.ofNat c.toNat) = (Radix.digit? 16 c).map UInt8.ofNat := by
  have hall : ∀ n : Fin 128, hexValue (UInt8.ofNat n) =
      (Radix.digit? 16 (Char.ofNat n)).map UInt8.ofNat := by
    decide +kernel
  have hc := hall ⟨c.toNat, h⟩
  rwa [Char.ofNat_toNat] at hc

theorem hexValue_eq_none {byte : UInt8} (h : 128 ≤ byte.toNat) : hexValue byte = none := by
  have hall : ∀ n : Fin 256, 128 ≤ n.val → hexValue (UInt8.ofNat n) = none := by
    decide +kernel
  have hbyte := hall ⟨byte.toNat, byte.toNat_lt⟩ h
  rwa [UInt8.ofNat_toNat] at hbyte

theorem encode_eq_hex {text : List Char} {byte h : UInt8} {rest : List UInt8}
    (htext : Utf8.encode text = byte :: rest) (hhex : hexValue byte = some h) :
    ∃ c tail n, text = c :: tail ∧ rest = Utf8.encode tail ∧ Radix.digit? 16 c = some n ∧
      h = UInt8.ofNat n := by
  cases text with
  | nil => cases htext
  | cons c tail =>
    rw [Utf8.encode_cons] at htext
    by_cases hascii : c.toNat < 128
    · rw [Utf8.utf8EncodeChar_of_ascii hascii, List.singleton_append] at htext
      obtain ⟨rfl, rfl⟩ := List.cons.inj htext
      rw [hexValue_ascii hascii] at hhex
      obtain ⟨n, hn, rfl⟩ := Option.map_eq_some_iff.mp hhex
      exact ⟨c, tail, n, rfl, rfl, hn, rfl⟩
    · obtain ⟨lead, more, hchar, -⟩ := Utf8.exists_utf8EncodeChar_eq c
      rw [hchar, List.cons_append] at htext
      obtain ⟨rfl, -⟩ := List.cons.inj htext
      have hle := Utf8.le_of_mem_utf8EncodeChar hascii (hchar ▸ List.mem_cons_self)
      rw [hexValue_eq_none hle] at hhex
      cases hhex

theorem encode_digit {c : Char} {n : ℕ} (h : Radix.digit? 16 c = some n) (tail : List Char) :
    Utf8.encode (c :: tail) = UInt8.ofNat c.toNat :: Utf8.encode tail ∧
      hexValue (UInt8.ofNat c.toNat) = some (UInt8.ofNat n) := by
  have hascii := Radix.toNat_lt_of_digit? h
  rw [Utf8.encode_cons, Utf8.utf8EncodeChar_of_ascii hascii, hexValue_ascii hascii, h]
  exact ⟨rfl, rfl⟩

theorem join_nibbles {m n : ℕ} (hm : m < 16) (hn : n < 16) :
    UInt8.ofNat m <<< 4 ||| UInt8.ofNat n = UInt8.ofNat (16 * m + n) := by
  have hall : ∀ m n : Fin 16, UInt8.ofNat m <<< 4 ||| UInt8.ofNat n =
      UInt8.ofNat (16 * m.val + n.val) := by
    decide +kernel
  exact hall ⟨m, hm⟩ ⟨n, hn⟩

theorem hexValue_eq {c : Char} {n : ℕ} (h : Radix.digit? 16 c = some n) :
    Percent.hexValue c = n := by
  rw [Percent.hexValue, h, Option.getD_some]

/-- The octets of a text decode if every percent sign is followed by two digits. -/
theorem percentDecodeBytes_encode_iff {text : List Char} {bytes : List UInt8} :
    percentDecodeBytes (Utf8.encode text) = some bytes ↔
      Percent.WellEscaped text ∧ Percent.unescape text = bytes := by
  -- an escape is three characters, so the induction is on the length
  induction hlen : text.length using Nat.strong_induction_on generalizing text bytes with
  | _ length ih =>
    subst hlen
    cases text with
    | nil =>
      rw [show percentDecodeBytes (Utf8.encode []) = some [] from rfl, Option.some.injEq]
      exact ⟨fun h => ⟨Percent.wellEscaped_nil, h⟩, And.right⟩
    | cons c text =>
      by_cases hc : c = '%'
      · subst hc
        rw [Percent.wellEscaped_percent_iff]
        change percentDecodeBytes (0x25 :: Utf8.encode text) = some bytes ↔ _
        rw [percentDecodeBytes_percent_iff]
        constructor
        · rintro ⟨high, low, rest, h, l, tail, hbytes, hhigh, hlow, hrest, rfl⟩
          obtain ⟨c, text, m, rfl, hlowBytes, hm, rfl⟩ := encode_eq_hex hbytes hhigh
          obtain ⟨d, text, n, rfl, rfl, hn, rfl⟩ := encode_eq_hex hlowBytes.symm hlow
          have hshort : text.length < ('%' :: c :: d :: text).length := by
            simp only [List.length_cons]
            omega
          obtain ⟨hescaped, rfl⟩ := (ih text.length hshort rfl).mp hrest
          refine ⟨⟨c, d, text, rfl, by rw [hm]; rfl, by rw [hn]; rfl, hescaped⟩, ?_⟩
          rw [join_nibbles (Radix.digit?_lt hm) (Radix.digit?_lt hn), ← hexValue_eq hm, ← hexValue_eq hn]
          rfl
        · rintro ⟨⟨high, low, rest, rfl, hhigh, hlow, hrest⟩, rfl⟩
          obtain ⟨m, hm⟩ := Option.isSome_iff_exists.mp hhigh
          obtain ⟨n, hn⟩ := Option.isSome_iff_exists.mp hlow
          have hshort : rest.length < ('%' :: high :: low :: rest).length := by
            simp only [List.length_cons]
            omega
          have htail := (ih rest.length hshort rfl).mpr ⟨hrest, rfl⟩
          refine ⟨_, _, _, _, _, _, ?_, (encode_digit hm (low :: rest)).2, (encode_digit hn rest).2,
            htail, ?_⟩
          · rw [(encode_digit hm (low :: rest)).1, (encode_digit hn rest).1]
          · rw [join_nibbles (Radix.digit?_lt hm) (Radix.digit?_lt hn), ← hexValue_eq hm, ← hexValue_eq hn]
            rfl
      · rw [Utf8.encode_cons, percentDecodeBytes_append (percent_not_mem hc),
          Percent.wellEscaped_cons_iff hc, Percent.unescape_cons hc, Option.map_eq_some_iff]
        constructor
        · rintro ⟨rest, hrest, rfl⟩
          obtain ⟨hescaped, rfl⟩ := (ih _ (by simp) rfl).mp hrest
          exact ⟨hescaped, rfl⟩
        · rintro ⟨hescaped, rfl⟩
          exact ⟨_, (ih _ (by simp) rfl).mpr ⟨hescaped, rfl⟩, rfl⟩

theorem percentDecode_eq_some_iff {input : List Char} {s : String} :
    percentDecode input = some s ↔
      Percent.WellEscaped input ∧ Percent.unescape input = Utf8.encode s.toList := by
  rw [percentDecode, asBytes_eq_encode, String.toList_ofList, Option.map_eq_some_iff]
  constructor
  · rintro ⟨text, htext, rfl⟩
    obtain ⟨bytes, hbytes, htext⟩ := Option.bind_eq_some_iff.mp htext
    obtain ⟨hescaped, rfl⟩ := percentDecodeBytes_encode_iff.mp hbytes
    rw [String.toList_ofList]
    exact ⟨hescaped, Utf8.decode_eq_some_iff.mp htext⟩
  · rintro ⟨hescaped, hbytes⟩
    refine ⟨s.toList, ?_, String.ofList_toList⟩
    rw [percentDecodeBytes_encode_iff.mpr ⟨hescaped, hbytes⟩, Option.bind_some]
    exact Utf8.decode_encode s.toList

theorem percentDecode_encode {literal : UInt8 → Bool} (hplain : Percent.Plain literal)
    (s : String) : percentDecode (Percent.encode literal (asBytes s)) = some s := by
  rw [percentDecode_eq_some_iff, ← asBytes_eq_encode]
  exact hplain.unescape_encode (asBytes s)

end ChpProxy.Api
