import ChpProxy.Api.Token

/-! Which configured tokens a client can present. -/
namespace ChpProxy.Api

/-- The characters of `\s`. -/
def isJavascriptWhitespace (c : Char) : Bool :=
  let n := c.toNat
  (9 ≤ n && n ≤ 13) || n = 0x20 || n = 0xa0 || n = 0x1680 || (0x2000 ≤ n && n ≤ 0x200a) ||
    n = 0x2028 || n = 0x2029 || n = 0x202f || n = 0x205f || n = 0x3000 || n = 0xfeff

theorem isUTF8FirstByte_of_contains {b : UInt8}
    (h : [0x20, 0x09, 0x0a, 0x0b, 0x0c, 0x0d, 0xa0].contains b = true) (hne : b ≠ 0xa0) :
    b.IsUTF8FirstByte ∧ ((9 ≤ b.toNat ∧ b.toNat ≤ 13) ∨ b.toNat = 0x20) := by
  simp only [List.contains_eq_mem, decide_eq_true_eq, List.mem_cons, List.not_mem_nil,
    or_false] at h
  rcases h with rfl | rfl | rfl | rfl | rfl | rfl | rfl
  · decide
  · decide
  · decide
  · decide
  · decide
  · decide
  · exact absurd rfl hne

/-- Whatever follows it, a character is whitespace where it begins only if it is in `\s`. -/
theorem javascriptWhitespaceWidth_of_visible {c : Char} (hc : isJavascriptWhitespace c = false)
    (more : List UInt8) : javascriptWhitespaceWidth (String.utf8EncodeChar c ++ more) = none := by
  obtain ⟨lead, tail, henc, hlead, -⟩ := Utf8.exists_utf8EncodeChar_eq c
  have hsingle : ¬[0x20, 0x09, 0x0a, 0x0b, 0x0c, 0x0d, 0xa0].contains lead = true := by
    intro hcontains
    have hne : lead ≠ 0xa0 := by
      rintro rfl
      exact absurd hlead (by decide)
    have hrange := (isUTF8FirstByte_of_contains hcontains hne).2
    by_cases hascii : c.toNat < 128
    · rw [Utf8.utf8EncodeChar_of_ascii hascii] at henc
      have heq := congrArg UInt8.toNat (List.cons.inj henc).1
      rw [UInt8.toNat_ofNat', Nat.mod_eq_of_lt (by omega)] at heq
      simp [isJavascriptWhitespace] at hc
      omega
    · have hle := Utf8.le_of_mem_utf8EncodeChar hascii (henc ▸ List.mem_cons_self : lead ∈ _)
      omega
  have hbytes : String.utf8EncodeChar c ++ more = lead :: (tail ++ more) := by
    rw [henc]
    rfl
  rw [hbytes, javascriptWhitespaceWidth, if_neg hsingle, ← hbytes]
  split
  · next character text htext =>
    have heq : character = c := by
      have hencode := Utf8.decode_eq_some_iff.mp htext
      rw [Utf8.encode_cons] at hencode
      exact (Utf8.eq_of_utf8EncodeChar_append hencode).symm
    subst heq
    simp [isJavascriptWhitespace] at hc ⊢
    omega
  · rfl

/-- Within a character only one octet is taken for whitespace. -/
theorem javascriptWhitespaceWidth_of_not_first {b : UInt8} (hb : ¬b.IsUTF8FirstByte)
    (rest : List UInt8) :
    javascriptWhitespaceWidth (b :: rest) = if b = 0xa0 then some 1 else none := by
  split_ifs with heq
  · rw [heq]
    rfl
  · have hsingle : ¬[0x20, 0x09, 0x0a, 0x0b, 0x0c, 0x0d, 0xa0].contains b = true := fun h =>
      hb (isUTF8FirstByte_of_contains h heq).1
    have hnone : fromUtf8 (b :: rest) = none := Utf8.decode_eq_none_of_not_first hb rest
    rw [javascriptWhitespaceWidth, if_neg hsingle, hnone]

/-- Octets of which a token keeps all, or those before the first that is taken for whitespace. -/
def Cuts (bytes : List UInt8) : Prop :=
  ∀ more, untilWhitespace (bytes ++ more) =
    if (0xa0 : UInt8) ∈ bytes then bytes.takeWhile (· != 0xa0) else bytes ++ untilWhitespace more

theorem takeWhile_append_of_mem {a : List UInt8} (h : (0xa0 : UInt8) ∈ a) (b : List UInt8) :
    (a ++ b).takeWhile (· != 0xa0) = a.takeWhile (· != 0xa0) := by
  rw [List.takeWhile_append, if_neg]
  intro hlength
  have hself := (List.takeWhile_prefix (· != (0xa0 : UInt8))).eq_of_length hlength
  have hall := List.takeWhile_eq_self_iff.mp hself 0xa0 h
  exact absurd hall (by decide)

theorem takeWhile_append_of_not_mem {a : List UInt8} (h : (0xa0 : UInt8) ∉ a) (b : List UInt8) :
    (a ++ b).takeWhile (· != 0xa0) = a ++ b.takeWhile (· != 0xa0) := by
  refine List.takeWhile_append_of_pos fun byte hbyte => ?_
  rw [bne_iff_ne]
  rintro rfl
  exact h hbyte

theorem takeWhile_eq_self_iff_not_mem {a : List UInt8} :
    a.takeWhile (· != 0xa0) = a ↔ (0xa0 : UInt8) ∉ a := by
  rw [List.takeWhile_eq_self_iff]
  constructor
  · intro hall hmem
    exact absurd (hall 0xa0 hmem) (by decide)
  · intro hnot byte hbyte
    rw [bne_iff_ne]
    rintro rfl
    exact hnot hbyte

theorem Cuts.append {a b : List UInt8} (ha : Cuts a) (hb : Cuts b) : Cuts (a ++ b) := by
  intro more
  rw [List.append_assoc, ha (b ++ more), hb more]
  by_cases hmem : (0xa0 : UInt8) ∈ a
  · rw [if_pos hmem, if_pos (List.mem_append_left b hmem), takeWhile_append_of_mem hmem]
  · rw [if_neg hmem, takeWhile_append_of_not_mem hmem, List.append_assoc]
    have hiff : (0xa0 : UInt8) ∈ a ++ b ↔ (0xa0 : UInt8) ∈ b := by simp [hmem]
    rw [if_congr hiff rfl rfl]
    split_ifs
    · rfl
    · rfl

theorem cuts_of_not_first {bytes : List UInt8} (h : ∀ b ∈ bytes, ¬b.IsUTF8FirstByte) :
    Cuts bytes := by
  induction bytes with
  | nil => exact fun more => rfl
  | cons b bytes ih =>
    obtain ⟨hb, hbytes⟩ := List.forall_mem_cons.mp h
    have hone : Cuts [b] := by
      intro more
      rw [List.singleton_append, untilWhitespace, javascriptWhitespaceWidth_of_not_first hb]
      by_cases heq : b = 0xa0
      · rw [heq]
        rfl
      · have hnot : (0xa0 : UInt8) ∉ [b] := fun hmem => heq (List.mem_singleton.mp hmem).symm
        rw [if_neg heq, if_neg hnot]
        rfl
    exact hone.append (ih hbytes)

theorem cuts_utf8EncodeChar {c : Char} (hc : isJavascriptWhitespace c = false) :
    Cuts (String.utf8EncodeChar c) := by
  intro more
  have hwidth := javascriptWhitespaceWidth_of_visible hc more
  obtain ⟨lead, tail, henc, hlead, htail⟩ := Utf8.exists_utf8EncodeChar_eq c
  have hne : lead ≠ 0xa0 := by
    rintro rfl
    exact absurd hlead (by decide)
  rw [henc] at hwidth ⊢
  have hiff : (0xa0 : UInt8) ∈ lead :: tail ↔ (0xa0 : UInt8) ∈ tail := by simp [Ne.symm hne]
  rw [List.cons_append] at hwidth ⊢
  rw [untilWhitespace, hwidth, if_pos Option.isNone_none, cuts_of_not_first htail more,
    if_congr hiff rfl rfl, List.takeWhile_cons_of_pos (by rwa [bne_iff_ne])]
  split_ifs
  · rfl
  · rfl

theorem cuts_encode {text : List Char} (h : ∀ c ∈ text, isJavascriptWhitespace c = false) :
    Cuts (Utf8.encode text) := by
  induction text with
  | nil => exact fun more => rfl
  | cons c text ih =>
    obtain ⟨hc, htext⟩ := List.forall_mem_cons.mp h
    exact (cuts_utf8EncodeChar hc).append (ih htext)

/-- What is found after the marker and a space: the token, or its part before the octet that is
taken for whitespace. -/
theorem extractToken_of_token {T : String} (hne : T ≠ "")
    (hvisible : T.toList.any isJavascriptWhitespace = false) {more : List UInt8}
    (hmore : more = [] ∨ ∃ rest, more = 0x20 :: rest) :
    extractToken (asBytes "token " ++ asBytes T ++ more) =
      some ((asBytes T).takeWhile (· != 0xa0)) := by
  have hall : ∀ c ∈ T.toList, isJavascriptWhitespace c = false := fun c hc =>
    Bool.eq_false_iff.mpr (List.any_eq_false.mp hvisible c hc)
  obtain ⟨c, text, htext⟩ : ∃ c text, T.toList = c :: text := by
    refine List.exists_cons_of_ne_nil fun hnil => hne ?_
    rw [← String.ofList_toList (s := T), hnil]
  have hhead : isJavascriptWhitespace c = false := by
    refine hall c ?_
    rw [htext]
    exact List.mem_cons_self
  have hend : untilWhitespace more = [] := by
    rcases hmore with rfl | ⟨rest, rfl⟩
    · rfl
    · rfl
  have hbytes : asBytes "token " ++ asBytes T ++ more =
      marker ++ 0x20 :: (Utf8.encode T.toList ++ more) := by
    rw [asBytes_eq_encode T, List.append_assoc]
    rfl
  have hstart : javascriptWhitespaceWidth (Utf8.encode T.toList ++ more) = none := by
    rw [htext, Utf8.encode_cons, List.append_assoc]
    exact javascriptWhitespaceWidth_of_visible hhead _
  have hspace : javascriptWhitespaceWidth (0x20 :: (Utf8.encode T.toList ++ more)) = some 1 := rfl
  have hskip : skipWhitespace 0 (0x20 :: (Utf8.encode T.toList ++ more)) =
      Utf8.encode T.toList ++ more := by
    rw [skipWhitespace_of_some hspace]
    exact skipWhitespace_of_none hstart
  have htoken : untilWhitespace (Utf8.encode T.toList ++ more) =
      (Utf8.encode T.toList).takeWhile (· != 0xa0) := by
    rw [cuts_encode hall more, hend, List.append_nil]
    split_ifs with hmem
    · rfl
    · exact (takeWhile_eq_self_iff_not_mem.mpr hmem).symm
  have hnonempty : (Utf8.encode T.toList).takeWhile (· != 0xa0) ≠ [] := by
    obtain ⟨lead, tail, henc, hlead, -⟩ := Utf8.exists_utf8EncodeChar_eq c
    have hlead' : (lead != 0xa0) = true := by
      rw [bne_iff_ne]
      rintro rfl
      exact absurd hlead (by decide)
    rw [htext, Utf8.encode_cons, henc, List.cons_append, List.takeWhile_cons, if_pos hlead']
    exact List.cons_ne_nil _ _
  have hsome : tokenAfter (0x20 :: (Utf8.encode T.toList ++ more)) =
      some ((Utf8.encode T.toList).takeWhile (· != 0xa0)) := by
    unfold tokenAfter
    dsimp only
    rw [hskip, htoken, if_pos]
    rw [Bool.and_eq_true, decide_eq_true_eq, List.length_cons]
    exact ⟨Nat.lt_succ_self _, by simpa using hnonempty⟩
  rw [hbytes, extractToken, extractTokenFrom_of_marker (List.prefix_append _ _), List.drop_left,
    hsome, asBytes_eq_encode]
  rfl

/-- A client that presents the configured token is authorized if and only if no octet of the token
is taken for whitespace, whatever follows after a space. -/
theorem usable_token_authenticates_iff {T : String} (hne : T ≠ "")
    (hvisible : T.toList.any isJavascriptWhitespace = false) {more : List UInt8}
    (hmore : more = [] ∨ ∃ rest, more = 0x20 :: rest) {headers : HeaderMap}
    (hheader : headers.get? "authorization" = some (asBytes "token " ++ asBytes T ++ more)) :
    authorized (ApiState.new (some T)) headers = true ↔ (0xa0 : UInt8) ∉ asBytes T := by
  have hstate : ApiState.new (some T) = ⟨some (asBytes T)⟩ := by
    have hnonempty : (!T.isEmpty) = true := by simpa using hne
    rw [ApiState.new, Option.filter_some, if_pos hnonempty]
    rfl
  have hfound := extractToken_of_token hne hvisible hmore
  rw [hstate, authorized_iff, hheader]
  constructor
  · rintro ⟨header, hget, htoken⟩
    obtain rfl := Option.some.inj hget
    rw [hfound] at htoken
    exact takeWhile_eq_self_iff_not_mem.mp (Option.some.inj htoken)
  · intro hmem
    refine ⟨_, rfl, ?_⟩
    rw [hfound, takeWhile_eq_self_iff_not_mem.mpr hmem]

def presenting (T : String) : HeaderMap :=
  MultiMap.empty.insert "authorization" (asBytes "token " ++ asBytes T ++ [])

theorem get?_presenting (T : String) :
    (presenting T).get? "authorization" = some (asBytes "token " ++ asBytes T ++ []) := rfl

theorem usable_token_authenticates_secret :
    authorized (ApiState.new (some "secret")) (presenting "secret") = true :=
  (usable_token_authenticates_iff (by decide) (by decide) (.inl rfl)
    (get?_presenting "secret")).mpr (by decide)

/-- The last octet of `à` is taken for a space. -/
theorem accented_token_refused : ("à" ≠ "" ∧ "à".toList.any isJavascriptWhitespace = false) ∧
    (presenting "à").get? "authorization" = some (asBytes "token " ++ asBytes "à" ++ []) ∧
    authorized (ApiState.new (some "à")) (presenting "à") = false := by
  refine ⟨⟨by decide, by decide⟩, rfl, ?_⟩
  rw [Bool.eq_false_iff]
  intro hauthorized
  obtain ⟨header, hget, htoken⟩ := authorized_iff.mp hauthorized
  obtain rfl := Option.some.inj hget
  rw [extractToken_of_token (by decide) (by decide) (.inl rfl)] at htoken
  exact absurd htoken (by decide)

end ChpProxy.Api
