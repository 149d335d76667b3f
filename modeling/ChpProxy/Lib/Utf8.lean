import ChpProxy.Lib.Search

/-! UTF-8 on lists of octets. -/
namespace Utf8

variable {bytes : List UInt8} {text pattern : List Char}

def encode (text : List Char) : List UInt8 := text.flatMap String.utf8EncodeChar

def decode (bytes : List UInt8) : Option (List Char) :=
  (String.fromUTF8? bytes.toByteArray).map String.toList

theorem encode_cons (c : Char) (text : List Char) :
    encode (c :: text) = String.utf8EncodeChar c ++ encode text := rfl

theorem toByteArray_injective : Function.Injective List.toByteArray := by
  intro a b h
  have hdata := congrArg (fun array => array.data.toList) h
  simpa only [List.data_toByteArray, List.toList_toArray] using hdata

/-- Decoding succeeds on the octets of texts, and gives the text back. -/
theorem decode_eq_some_iff : decode bytes = some text ↔ bytes = encode text := by
  unfold decode String.fromUTF8?
  constructor
  · intro h
    obtain ⟨s, hs, rfl⟩ := Option.map_eq_some_iff.mp h
    split_ifs at hs with hvalid
    have hbytes : s.toByteArray = bytes.toByteArray := by rw [← Option.some.inj hs]; rfl
    refine toByteArray_injective ?_
    rw [← hbytes]
    conv_lhs => rw [← String.ofList_toList (s := s), String.toByteArray_ofList]
    rfl
  · rintro rfl
    have hvalid : (encode text).toByteArray.IsValidUTF8 := ⟨text, rfl⟩
    rw [dif_pos hvalid]
    have hs : String.fromUTF8 (encode text).toByteArray hvalid = String.ofList text := by
      rw [← String.toByteArray_inj, String.toByteArray_ofList]
      rfl
    rw [hs, Option.map_some, String.toList_ofList]

theorem decode_encode (text : List Char) : decode (encode text) = some text :=
  decode_eq_some_iff.mpr rfl

theorem toNat_ofNat_of_ascii {byte : UInt8} (h : byte.toNat < 128) :
    (Char.ofNat byte.toNat).toNat = byte.toNat := by
  have hvalid : byte.toNat.isValidChar := .inl (by omega)
  rw [Char.ofNat, dif_pos hvalid]
  rfl

theorem utf8EncodeChar_of_ascii {c : Char} (h : c.toNat < 128) :
    String.utf8EncodeChar c = [UInt8.ofNat c.toNat] := by
  have hle : c.val.toNat ≤ 127 := by
    change c.toNat ≤ 127
    omega
  unfold String.utf8EncodeChar
  rw [if_pos hle]
  rfl

theorem encode_append (text text' : List Char) :
    encode (text ++ text') = encode text ++ encode text' := List.flatMap_append

theorem le_of_mem_utf8EncodeChar {c : Char} (h : ¬c.toNat < 128) {b : UInt8}
    (hb : b ∈ String.utf8EncodeChar c) : 128 ≤ b.toNat := by
  have hgt : ¬c.val.toNat ≤ 127 := by
    change ¬c.toNat ≤ 127
    omega
  unfold String.utf8EncodeChar at hb
  simp only [hgt, if_false] at hb
  split_ifs at hb
  · rcases List.mem_pair.mp hb with rfl | rfl
    · simp only [UInt8.toNat_ofNat']
      omega
    · simp only [UInt8.toNat_ofNat']
      omega
  · simp only [List.mem_cons, List.not_mem_nil, or_false] at hb
    rcases hb with rfl | rfl | rfl
    all_goals
      simp only [UInt8.toNat_ofNat']
      omega
  · simp only [List.mem_cons, List.not_mem_nil, or_false] at hb
    rcases hb with rfl | rfl | rfl | rfl
    all_goals
      simp only [UInt8.toNat_ofNat']
      omega

theorem mem_of_mem_encode {c : Char} (hc : c.toNat < 128) (h : UInt8.ofNat c.toNat ∈ encode text) :
    c ∈ text := by
  obtain ⟨c', hc', hb⟩ := List.mem_flatMap.mp h
  have hascii : c'.toNat < 128 := by
    by_contra hwide
    have hle := le_of_mem_utf8EncodeChar hwide hb
    rw [UInt8.toNat_ofNat'] at hle
    omega
  rw [utf8EncodeChar_of_ascii hascii] at hb
  have hnat := congrArg UInt8.toNat (List.mem_singleton.mp hb)
  rw [UInt8.toNat_ofNat', UInt8.toNat_ofNat', Nat.mod_eq_of_lt (by omega),
    Nat.mod_eq_of_lt (by omega)] at hnat
  rw [Char.toNat_inj.mp hnat]
  exact hc'

/-- No encoding of a character begins the encoding of another one. -/
theorem eq_of_utf8EncodeChar_append {c c' : Char} {a b : List UInt8}
    (h : String.utf8EncodeChar c ++ a = String.utf8EncodeChar c' ++ b) : c = c' := by
  have hdecode : ∀ (c : Char) (a : List UInt8),
      ByteArray.utf8DecodeChar? (String.utf8EncodeChar c ++ a).toByteArray 0 = some c := by
    intro c a
    rw [List.toByteArray_append]
    exact ByteArray.utf8DecodeChar?_utf8EncodeChar_append
  have hsome := hdecode c a
  rw [h, hdecode c' b] at hsome
  exact (Option.some.inj hsome).symm

/-- A character is one leading octet and others that cannot lead. -/
theorem exists_utf8EncodeChar_eq (c : Char) : ∃ lead tail, String.utf8EncodeChar c = lead :: tail ∧
    lead.IsUTF8FirstByte ∧ ∀ b ∈ tail, ¬b.IsUTF8FirstByte := by
  obtain ⟨lead, tail, h⟩ := List.exists_cons_of_ne_nil (@String.utf8EncodeChar_ne_nil c)
  have hfirst : ∀ i (hi : i < (lead :: tail).length),
      (lead :: tail)[i].IsUTF8FirstByte ↔ i = 0 := by
    rw [← h]
    intro i hi
    exact UInt8.isUTF8FirstByte_getElem_utf8EncodeChar
  refine ⟨lead, tail, h, (hfirst 0 (by simp)).mpr rfl, fun b hb hbyte => ?_⟩
  obtain ⟨i, hi, rfl⟩ := List.mem_iff_getElem.mp hb
  have hzero := (hfirst (i + 1) (by simpa using hi)).mp (by simpa using hbyte)
  omega

theorem decode_eq_none_of_not_first {b : UInt8} (h : ¬b.IsUTF8FirstByte) (rest : List UInt8) :
    decode (b :: rest) = none := by
  cases hdecode : decode (b :: rest) with
  | none => rfl
  | some text =>
    have hbytes := decode_eq_some_iff.mp hdecode
    cases text with
    | nil => cases hbytes
    | cons c text =>
      obtain ⟨lead, tail, henc, hlead, -⟩ := exists_utf8EncodeChar_eq c
      rw [encode_cons, henc] at hbytes
      rw [(List.cons.inj hbytes).1] at h
      exact absurd hlead h

theorem prefix_of_prefix_encode (hascii : ∀ c ∈ pattern, c.toNat < 128)
    (h : encode pattern <+: encode text) : pattern <+: text := by
  induction pattern generalizing text with
  | nil => exact List.nil_prefix
  | cons p pattern ih =>
    obtain ⟨hp, hpattern⟩ := List.forall_mem_cons.mp hascii
    cases text with
    | nil =>
      have hnil := List.prefix_nil.mp h
      rw [encode_cons, utf8EncodeChar_of_ascii hp] at hnil
      cases hnil
    | cons c text =>
      rw [encode_cons, encode_cons, utf8EncodeChar_of_ascii hp] at h
      have hc : c.toNat < 128 := by
        by_contra hc
        have hmem : UInt8.ofNat p.toNat ∈ String.utf8EncodeChar c := by
          cases henc : String.utf8EncodeChar c with
          | nil => exact absurd henc String.utf8EncodeChar_ne_nil
          | cons b bs =>
            rw [henc] at h
            rw [(List.cons_prefix_cons.mp h).1]
            exact List.mem_cons_self
        have hle := le_of_mem_utf8EncodeChar hc hmem
        rw [UInt8.toNat_ofNat'] at hle
        omega
      rw [utf8EncodeChar_of_ascii hc] at h
      obtain ⟨hhead, htail⟩ := List.cons_prefix_cons.mp h
      have hpc : p = c := by
        have hnat := congrArg UInt8.toNat hhead
        rw [UInt8.toNat_ofNat', UInt8.toNat_ofNat', Nat.mod_eq_of_lt (by omega),
          Nat.mod_eq_of_lt (by omega)] at hnat
        exact Char.toNat_inj.mp hnat
      rw [hpc]
      exact List.cons_prefix_cons.mpr ⟨rfl, ih hpattern htail⟩

/-- An ASCII pattern among the octets of a text is a pattern of the text: no octet of another
character is an octet of the pattern. -/
theorem infix_of_infix_encode (hascii : ∀ c ∈ pattern, c.toNat < 128) (hne : pattern ≠ [])
    (h : encode pattern <:+: encode text) : pattern <:+: text := by
  obtain ⟨p, pattern', rfl⟩ := List.exists_cons_of_ne_nil hne
  have hp : p.toNat < 128 := hascii p List.mem_cons_self
  induction text with
  | nil =>
    have hnil := List.infix_nil.mp h
    rw [encode_cons, utf8EncodeChar_of_ascii hp] at hnil
    cases hnil
  | cons c text ih =>
    by_cases hpre : p :: pattern' <+: c :: text
    · exact hpre.isInfix
    · refine (ih ?_).trans (List.suffix_cons c text).isInfix
      by_cases hc : c.toNat < 128
      · rw [encode_cons c, utf8EncodeChar_of_ascii hc] at h
        rcases List.infix_cons_iff.mp h with hat | hin
        · refine absurd (prefix_of_prefix_encode hascii ?_) hpre
          rw [encode_cons c, utf8EncodeChar_of_ascii hc]
          exact hat
        · exact hin
      · rw [encode_cons p, utf8EncodeChar_of_ascii hp] at h ⊢
        refine Search.infix_of_infix_append (fun hb => ?_) h
        have hle := le_of_mem_utf8EncodeChar hc hb
        rw [UInt8.toNat_ofNat'] at hle
        omega

end Utf8
