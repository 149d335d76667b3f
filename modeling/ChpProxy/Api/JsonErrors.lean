import ChpProxy.Api.Octets
import ChpProxy.Api.Router

/-! The complaint about a body that is not JSON, with the panics of the source: a slice that is not
between characters, a difference below zero, a counter that overflows. It is built before the
request is authenticated. -/
namespace ChpProxy.Api

/-! Offsets in octets. -/

theorem utf8Len_cons (c : Char) (s : List Char) : utf8Len (c :: s) = c.utf8Size + utf8Len s := by
  simp [utf8Len]

theorem utf8Len_append (s t : List Char) : utf8Len (s ++ t) = utf8Len s + utf8Len t := by
  simp [utf8Len]

theorem takeUtf8_append (before rest : List Char) :
    takeUtf8 (utf8Len before) (before ++ rest) = before := by
  induction before with
  | nil =>
    cases rest with
    | nil => rfl
    | cons c rest => exact if_neg (Nat.not_le.mpr c.utf8Size_pos)
  | cons c before ih =>
    rw [utf8Len_cons, List.cons_append, takeUtf8, if_pos (Nat.le_add_right _ _),
      Nat.add_sub_cancel_left, ih]

theorem dropUtf8_append (before rest : List Char) :
    dropUtf8 (utf8Len before) (before ++ rest) = rest := by
  rw [dropUtf8, takeUtf8_append, List.drop_left]

/-- An offset between two characters of the text, or at one of its ends. -/
def IsBoundary (text : List Char) (offset : ℕ) : Prop :=
  ∃ before rest, text = before ++ rest ∧ utf8Len before = offset

theorem IsBoundary.le {text : List Char} {offset : ℕ} (h : IsBoundary text offset) :
    offset ≤ utf8Len text := by
  obtain ⟨before, rest, rfl, rfl⟩ := h
  rw [utf8Len_append]
  exact Nat.le_add_right _ _

namespace Checked

def sliceTo (input : List Char) (offset : ℕ) : Option (List Char) :=
  let before := takeUtf8 offset input
  if utf8Len before = offset then some before else none

def sliceFrom (input : List Char) (offset : ℕ) : Option (List Char) :=
  if utf8Len (takeUtf8 offset input) = offset then some (dropUtf8 offset input) else none

theorem sliceTo_append (before rest : List Char) :
    sliceTo (before ++ rest) (utf8Len before) = some before := by
  simp [sliceTo, takeUtf8_append]

theorem sliceFrom_append (before rest : List Char) :
    sliceFrom (before ++ rest) (utf8Len before) = some rest := by
  simp [sliceFrom, takeUtf8_append, dropUtf8_append]

def charIndicesFrom (offset : ℕ) : List Char → List (ℕ × Char)
  | [] => []
  | c :: rest => (offset, c) :: charIndicesFrom (offset + c.utf8Size) rest

def charIndices (input : List Char) : List (ℕ × Char) := charIndicesFrom 0 input

def isVisible (entry : ℕ × Char) : Bool := !Text.isWhitespace entry.2

def isBrace (entry : ℕ × Char) : Bool := entry.2 = '\x7b'

/-- An `i32` incremented. -/
def increment (n : ℕ) : Option ℕ := if n < 0x7fffffff then some (n + 1) else none

def countQuotes : (escaped : Bool) → (quotes : ℕ) → List Char → Option ℕ
  | _, quotes, [] => some quotes
  | escaped, quotes, character :: rest => do
    let quotes ← if character = '"' && !escaped then increment quotes else some quotes
    let escaped := character = '\\' && !escaped
    countQuotes (if character ≠ '\\' then false else escaped) quotes rest

def hasUnterminatedString (input : List Char) : Option Bool :=
  (countQuotes false 0 input).map fun quotes => quotes % 2 = 1

def trailingDataPosition (libraries : Libraries) (input : List Char) : Option (Option ℕ) :=
  match libraries.firstValueEnd input with
  | none => some none
  | some offset => do
    let rest ← sliceFrom input offset
    return ((charIndices rest).find? isVisible).map fun (position, _) => offset + position

def unquotedPropertyPosition (input : List Char) : Option (Option ℕ) :=
  match (charIndices input).find? isBrace with
  | none => some none
  | some (brace, _) => do
    let rest ← sliceFrom input (brace + 1)
    return ((charIndices rest).find? isVisible).bind fun (position, character) =>
      if character ≠ '"' && character ≠ '\x7d' then some (brace + 1 + position) else none

/-- The two numbers of `syntax_error_at`. -/
def lineAndColumn (input : List Char) (position : ℕ) : Option (ℕ × ℕ) := do
  let before ← sliceTo input (min position (utf8Len input))
  let line := (asBytes (String.ofList before)).count 0x0a + 1
  let column :=
    if '\n' ∈ before then utf8Len (Text.afterLast '\n' before) + 1 else utf8Len before + 1
  return (line, column)

def syntaxErrorAt (message : String) (input : List Char) (position : ℕ) : Option String := do
  let (line, column) ← lineAndColumn input position
  return s!"SyntaxError: {message} at position {position} (line {line} column {column})"

def javascriptJsonError (libraries : Libraries) (body : List UInt8) (error : JsonError) :
    Option String :=
  match fromUtf8 body with
  | none => some s!"SyntaxError: {error.display}"
  | some text => do
    let trimmed := Text.trimEnd text
    if ← hasUnterminatedString trimmed then
      syntaxErrorAt "Unterminated string in JSON" text (utf8Len text)
    else if ['\x7b'].isSuffixOf trimmed then
      syntaxErrorAt "Expected property name or '\x7d' in JSON" text (utf8Len trimmed)
    else if error.isEof then some "SyntaxError: Unexpected end of JSON input"
    else match ← trailingDataPosition libraries text with
      | some position =>
        syntaxErrorAt "Unexpected non-whitespace character after JSON" text position
      | none =>
        if [',', '\x7d'].isSuffixOf trimmed then
          if 1 ≤ utf8Len trimmed then
            syntaxErrorAt "Expected double-quoted property name in JSON" text (utf8Len trimmed - 1)
          else none
        else if [',', ']'].isSuffixOf trimmed then
          let quoted := (libraries.quote text).getD "\"\""
          some s!"SyntaxError: Unexpected token ']', {quoted} is not valid JSON"
        else match ← unquotedPropertyPosition text with
          | some position =>
            syntaxErrorAt "Expected property name or '\x7d' in JSON" text position
          | none => some s!"SyntaxError: {error.display}"

theorem charIndicesFrom_eq (offset : ℕ) (s : List Char) :
    charIndicesFrom offset s = (charIndices s).map fun (n, c) => (offset + n, c) := by
  have hshift : ∀ n : ℕ, charIndicesFrom (offset + n) s =
      (charIndicesFrom n s).map fun (n, c) => (offset + n, c) := by
    induction s with
    | nil => exact fun _ => rfl
    | cons c s ih =>
      intro n
      simp only [charIndicesFrom, List.map_cons]
      rw [Nat.add_assoc, ih]
  exact hshift 0

theorem firstVisible_eq_find (offset : ℕ) (s : List Char) :
    firstVisible offset s = (charIndicesFrom offset s).find? isVisible := by
  induction s generalizing offset with
  | nil => rfl
  | cons c s ih =>
    rw [firstVisible, charIndicesFrom, List.find?_cons, isVisible]
    cases hc : Text.isWhitespace c with
    | true => exact ih _
    | false => rfl

theorem firstVisible_eq (offset : ℕ) (s : List Char) : firstVisible offset s =
    ((charIndices s).find? isVisible).map fun (n, c) => (offset + n, c) := by
  rw [firstVisible_eq_find, charIndicesFrom_eq, List.find?_map]
  rfl

theorem firstVisible_eq_some {offset : ℕ} {s : List Char} {entry : ℕ × Char}
    (h : firstVisible offset s = some entry) :
    ∃ before rest, s = before ++ entry.2 :: rest ∧ entry.1 = offset + utf8Len before := by
  induction s generalizing offset with
  | nil => cases h
  | cons c s ih =>
    rw [firstVisible] at h
    split at h
    · obtain ⟨before, rest, rfl, hoffset⟩ := ih h
      refine ⟨c :: before, rest, rfl, ?_⟩
      rw [hoffset, utf8Len_cons, Nat.add_assoc]
    · obtain rfl := Option.some.inj h
      exact ⟨[], s, rfl, rfl⟩

theorem afterBrace_eq (offset : ℕ) (s : List Char) :
    (∃ before rest, s = before ++ '\x7b' :: rest ∧
      afterBrace offset s = some (offset + utf8Len before + 1, rest) ∧
      (charIndicesFrom offset s).find? isBrace =
        some (offset + utf8Len before, '\x7b')) ∨
    (afterBrace offset s = none ∧
      (charIndicesFrom offset s).find? isBrace = none) := by
  induction s generalizing offset with
  | nil => exact .inr ⟨rfl, rfl⟩
  | cons c s ih =>
    rw [afterBrace, charIndicesFrom, List.find?_cons, isBrace]
    by_cases hc : c = '\x7b'
    · subst hc
      exact .inl ⟨[], s, rfl, rfl, rfl⟩
    · simp only [if_neg hc, decide_eq_false hc]
      rcases ih (offset + c.utf8Size) with ⟨before, rest, hs, hbrace, hfind⟩ | hnone
      · refine .inl ⟨c :: before, rest, by rw [hs, List.cons_append], ?_, ?_⟩
        · rw [hbrace, utf8Len_cons, Nat.add_assoc offset]
        · rw [utf8Len_cons, ← Nat.add_assoc offset]
          exact hfind
      · exact .inr hnone

theorem countQuotes_eq {escaped : Bool} {quotes : ℕ} {s : List Char}
    (h : quotes + s.length ≤ 0x7fffffff) :
    countQuotes escaped quotes s = some (scanQuotes escaped quotes s) := by
  induction s generalizing escaped quotes with
  | nil => rfl
  | cons c s ih =>
    rw [List.length_cons] at h
    have hescaped : (if c ≠ '\\' then false else decide (c = '\\') && !escaped) =
        (decide (c = '\\') && !escaped) := by
      by_cases hc : c = '\\'
      · exact if_neg (not_not.mpr hc)
      · rw [if_pos hc, decide_eq_false hc, Bool.false_and]
    simp only [countQuotes, scanQuotes, hescaped]
    by_cases hquote : (decide (c = '"') && !escaped) = true
    · rw [if_pos hquote, if_pos hquote, increment, if_pos (by omega)]
      exact ih (by omega)
    · rw [if_neg hquote, if_neg hquote]
      exact ih (by omega)

theorem hasUnterminatedString_eq {s : List Char} (h : s.length ≤ 0x7fffffff) :
    hasUnterminatedString s = some (Api.hasUnterminatedString s) := by
  rw [hasUnterminatedString, countQuotes_eq (by omega)]
  rfl

theorem trailingDataPosition_eq {libraries : Libraries} {text : List Char}
    (hoffset : ∀ offset, libraries.firstValueEnd text = some offset → IsBoundary text offset) :
    trailingDataPosition libraries text = some (Api.trailingDataPosition libraries text) ∧
      ∀ position ∈ Api.trailingDataPosition libraries text, IsBoundary text position := by
  unfold trailingDataPosition Api.trailingDataPosition
  cases hvalue : libraries.firstValueEnd text with
  | none => exact ⟨rfl, by simp⟩
  | some offset =>
    obtain ⟨before, rest, rfl, rfl⟩ := hoffset offset hvalue
    simp only [Option.bind_some, dropUtf8_append, sliceFrom_append]
    constructor
    · rw [firstVisible_eq, Option.map_map]
      rfl
    · intro position hposition
      obtain ⟨entry, hentry, rfl⟩ := Option.map_eq_some_iff.mp hposition
      obtain ⟨skipped, visible, rfl, hlen⟩ := firstVisible_eq_some hentry
      refine ⟨before ++ skipped, entry.2 :: visible, by rw [List.append_assoc], ?_⟩
      rw [utf8Len_append, hlen]

theorem unquotedPropertyPosition_eq (text : List Char) :
    unquotedPropertyPosition text = some (Api.unquotedPropertyPosition text) ∧
      ∀ position ∈ Api.unquotedPropertyPosition text, IsBoundary text position := by
  unfold unquotedPropertyPosition Api.unquotedPropertyPosition charIndices
  rcases afterBrace_eq 0 text with ⟨before, rest, rfl, hbrace, hfind⟩ | ⟨hbrace, hfind⟩
  · have hlen : 0 + utf8Len before + 1 = utf8Len (before ++ ['\x7b']) := by
      rw [utf8Len_append, Nat.zero_add]
      rfl
    have hslice : sliceFrom (before ++ '\x7b' :: rest) (0 + utf8Len before + 1) = some rest := by
      rw [hlen, List.append_cons, sliceFrom_append]
    simp only [hbrace, hfind, hslice, Option.bind_some]
    constructor
    · rw [firstVisible_eq, Option.bind_map]
      rfl
    · intro position hposition
      obtain ⟨entry, hentry, hchosen⟩ := Option.bind_eq_some_iff.mp hposition
      obtain ⟨skipped, visible, rfl, hoffset⟩ := firstVisible_eq_some hentry
      have hposition : entry.1 = position := by
        split at hchosen
        · exact Option.some.inj hchosen
        · cases hchosen
      refine ⟨before ++ ['\x7b'] ++ skipped, entry.2 :: visible, by simp, ?_⟩
      rw [utf8Len_append, ← hlen, ← hoffset, hposition]
  · rw [hbrace, hfind]
    exact ⟨rfl, by simp⟩

end Checked

/-! Lines and columns. -/

/-- The octet at `position` is in this line, and in this column of it: one more than the newlines
before it, and than the octets since the last of them. -/
def Located (text : List Char) (position line column : ℕ) : Prop :=
  ∃ lines current rest, text = lines ++ current ++ rest ∧ utf8Len (lines ++ current) = position ∧
    (lines = [] ∨ ['\n'] <:+ lines) ∧ '\n' ∉ current ∧
    line = lines.count '\n' + 1 ∧ column = utf8Len current + 1

theorem afterLast_of_line {lines current : List Char} (hlines : lines = [] ∨ ['\n'] <:+ lines)
    (hcurrent : '\n' ∉ current) : Text.afterLast '\n' (lines ++ current) = current := by
  rcases hlines with rfl | ⟨earlier, rfl⟩
  · exact Text.afterLast_of_not_mem hcurrent
  · rw [List.append_assoc, List.singleton_append, Text.afterLast_append,
      Text.afterLast_of_not_mem hcurrent]

theorem exists_line (before : List Char) : ∃ lines current, before = lines ++ current ∧
    (lines = [] ∨ ['\n'] <:+ lines) ∧ '\n' ∉ current := by
  induction before with
  | nil => exact ⟨[], [], rfl, .inl rfl, List.not_mem_nil⟩
  | cons c before ih =>
    obtain ⟨lines, current, rfl, hlines, hcurrent⟩ := ih
    rcases hlines with rfl | ⟨earlier, rfl⟩
    · by_cases hc : c = '\n'
      · exact ⟨[c], current, rfl, .inr ⟨[], by rw [hc, List.nil_append]⟩, hcurrent⟩
      · exact ⟨[], c :: current, rfl, .inl rfl, by simp [Ne.symm hc, hcurrent]⟩
    · exact ⟨c :: (earlier ++ ['\n']), current, rfl, .inr ⟨c :: earlier, rfl⟩, hcurrent⟩

theorem located_append_iff {before rest : List Char} {line column : ℕ} :
    Located (before ++ rest) (utf8Len before) line column ↔
      line = before.count '\n' + 1 ∧ column = utf8Len (Text.afterLast '\n' before) + 1 := by
  constructor
  · rintro ⟨lines, current, rest', htext, hposition, hlines, hcurrent, hline, hcolumn⟩
    have hbefore : before = lines ++ current := by
      rw [← takeUtf8_append before rest, htext, ← hposition, takeUtf8_append]
    rw [hbefore, afterLast_of_line hlines hcurrent, List.count_append,
      List.count_eq_zero_of_not_mem hcurrent]
    exact ⟨hline, hcolumn⟩
  · rintro ⟨hline, hcolumn⟩
    obtain ⟨lines, current, rfl, hlines, hcurrent⟩ := exists_line before
    rw [List.count_append, List.count_eq_zero_of_not_mem hcurrent] at hline
    rw [afterLast_of_line hlines hcurrent] at hcolumn
    exact ⟨lines, current, rest, rfl, rfl, hlines, hcurrent, hline, hcolumn⟩

theorem Located.unique {text : List Char} {position line column line' column' : ℕ}
    (h : Located text position line column) (h' : Located text position line' column') :
    line' = line ∧ column' = column := by
  obtain ⟨lines, current, rest, rfl, rfl, -⟩ := id h
  obtain ⟨rfl, rfl⟩ := located_append_iff.mp h
  exact located_append_iff.mp h'

/-- Newlines are the octets `0A`, as no other character has one in its encoding. -/
theorem count_newline_asBytes (s : List Char) :
    (asBytes (String.ofList s)).count 0x0a = s.count '\n' := by
  rw [asBytes_eq_encode, String.toList_ofList]
  induction s with
  | nil => rfl
  | cons c s ih =>
    have hchar : (String.utf8EncodeChar c).count 0x0a = if c = '\n' then 1 else 0 := by
      by_cases hascii : c.toNat < 128
      · have hiff : (UInt8.ofNat c.toNat == 0x0a) = decide (c = '\n') := by
          have hsize : c.toNat < UInt8.size := Nat.lt_trans hascii (by decide)
          rw [Bool.eq_iff_iff, beq_iff_eq, decide_eq_true_iff, ← UInt8.toNat_inj, ← Char.toNat_inj,
            UInt8.toNat_ofNat_of_lt' hsize]
          rfl
        rw [Utf8.utf8EncodeChar_of_ascii hascii, List.count_singleton, hiff]
        simp
      · rw [if_neg (by rintro rfl; exact hascii (by decide)), List.count_eq_zero]
        intro hmem
        have hle := Utf8.le_of_mem_utf8EncodeChar hascii hmem
        exact absurd hle (by decide)
    rw [Utf8.encode_cons, List.count_append, ih, hchar, List.count_cons, Nat.add_comm]
    simp

namespace Checked

theorem lineAndColumn_append (before rest : List Char) :
    lineAndColumn (before ++ rest) (utf8Len before) =
      some (before.count '\n' + 1, utf8Len (Text.afterLast '\n' before) + 1) := by
  have hmin : min (utf8Len before) (utf8Len (before ++ rest)) = utf8Len before :=
    min_eq_left (IsBoundary.le ⟨before, rest, rfl, rfl⟩)
  have hcolumn : (if '\n' ∈ before then utf8Len (Text.afterLast '\n' before) + 1
      else utf8Len before + 1) = utf8Len (Text.afterLast '\n' before) + 1 := by
    split_ifs with hnewline
    · rfl
    · rw [Text.afterLast_of_not_mem hnewline]
  rw [lineAndColumn, hmin, sliceTo_append, ← count_newline_asBytes, ← hcolumn]
  rfl

theorem syntaxErrorAt_eq {text : List Char} {position : ℕ} (message : String)
    (h : IsBoundary text position) :
    ∃ line column, Located text position line column ∧
      Api.syntaxErrorAt message text position =
        s!"SyntaxError: {message} at position {position} (line {line} column {column})" ∧
      syntaxErrorAt message text position =
        some s!"SyntaxError: {message} at position {position} (line {line} column {column})" := by
  obtain ⟨before, rest, rfl, rfl⟩ := h
  refine ⟨_, _, located_append_iff.mpr ⟨rfl, rfl⟩, ?_, ?_⟩
  · unfold Api.syntaxErrorAt
    rw [takeUtf8_append]
  · simp only [syntaxErrorAt, lineAndColumn_append]
    rfl

end Checked

/-- What is reported about a text: a position between characters with its line and column, which
are the only ones it has, or a message without a position. -/
inductive Rendered (libraries : Libraries) (text : List Char) (error : JsonError) : String → Prop
  | located {message : String} {position line column : ℕ}
      (boundary : IsBoundary text position) (place : Located text position line column)
      (line_pos : 1 ≤ line) (column_pos : 1 ≤ column)
      (determined : ∀ line' column', Located text position line' column' →
        line' = line ∧ column' = column) :
      Rendered libraries text error
        s!"SyntaxError: {message} at position {position} (line {line} column {column})"
  | ended : Rendered libraries text error "SyntaxError: Unexpected end of JSON input"
  | bracket : Rendered libraries text error
      (let quoted := (libraries.quote text).getD "\"\""
      s!"SyntaxError: Unexpected token ']', {quoted} is not valid JSON")
  | display : Rendered libraries text error s!"SyntaxError: {error.display}"

theorem Located.pos {text : List Char} {position line column : ℕ}
    (h : Located text position line column) : 1 ≤ line ∧ 1 ≤ column := by
  obtain ⟨lines, current, rest, -, -, -, -, rfl, rfl⟩ := h
  exact ⟨Nat.le_add_left _ _, Nat.le_add_left _ _⟩

theorem rendered_syntaxErrorAt {text : List Char} {position : ℕ} (libraries : Libraries)
    (error : JsonError) (message : String) (h : IsBoundary text position) :
    Checked.syntaxErrorAt message text position = some (syntaxErrorAt message text position) ∧
      Rendered libraries text error (syntaxErrorAt message text position) := by
  obtain ⟨line, column, hplace, hwritten, hchecked⟩ := Checked.syntaxErrorAt_eq message h
  rw [hchecked, hwritten]
  exact ⟨rfl, .located h hplace hplace.pos.1 hplace.pos.2 fun _ _ => hplace.unique⟩

theorem isBoundary_utf8Len (text : List Char) : IsBoundary text (utf8Len text) :=
  ⟨text, [], (List.append_nil text).symm, rfl⟩

theorem exists_trimEnd_append (text : List Char) :
    ∃ blank, text = Text.trimEnd text ++ blank := by
  obtain ⟨blank, hblank⟩ := (List.dropWhile_suffix Text.isWhitespace : _ <:+ text.reverse)
  refine ⟨blank.reverse, ?_⟩
  rw [Text.trimEnd, ← List.reverse_append, hblank, List.reverse_reverse]

theorem isBoundary_trimEnd (text : List Char) : IsBoundary text (utf8Len (Text.trimEnd text)) := by
  obtain ⟨blank, hblank⟩ := exists_trimEnd_append text
  exact ⟨_, blank, hblank, rfl⟩

theorem isBoundary_before_brace {text : List Char}
    (h : [',', '\x7d'].isSuffixOf (Text.trimEnd text) = true) :
    1 ≤ utf8Len (Text.trimEnd text) ∧ IsBoundary text (utf8Len (Text.trimEnd text) - 1) := by
  obtain ⟨before, hbefore⟩ := List.isSuffixOf_iff_suffix.mp h
  obtain ⟨blank, hblank⟩ := exists_trimEnd_append text
  have hlen : utf8Len (Text.trimEnd text) = utf8Len (before ++ [',']) + 1 := by
    rw [← hbefore, utf8Len_append, utf8Len_append]
    rfl
  rw [hlen, Nat.add_sub_cancel]
  refine ⟨Nat.le_add_left _ _, before ++ [','], '\x7d' :: blank, ?_, rfl⟩
  rw [hblank, ← hbefore]
  simp

theorem length_le_of_fromUtf8 {body : List UInt8} {text : List Char}
    (h : fromUtf8 body = some text) : text.length ≤ body.length := by
  rw [Utf8.decode_eq_some_iff.mp h]
  clear h
  induction text with
  | nil => exact Nat.zero_le _
  | cons c text ih =>
    have hsize := c.utf8Size_pos
    rw [Utf8.encode_cons, List.length_append, String.length_utf8EncodeChar, List.length_cons]
    omega

theorem length_trimEnd_le (text : List Char) : (Text.trimEnd text).length ≤ text.length := by
  obtain ⟨blank, hblank⟩ := exists_trimEnd_append text
  have hlen := congrArg List.length hblank
  rw [List.length_append] at hlen
  omega

theorem rendered_of_text {libraries : Libraries} {body : List UInt8} {text : List Char}
    (hoffset : ∀ offset, libraries.firstValueEnd text = some offset → IsBoundary text offset)
    (htext : fromUtf8 body = some text) (hlimit : (Text.trimEnd text).length ≤ 0x7fffffff)
    (error : JsonError) :
    Checked.javascriptJsonError libraries body error =
        some (javascriptJsonError libraries body error) ∧
      Rendered libraries text error (javascriptJsonError libraries body error) := by
  obtain ⟨htrailing, htrailingAt⟩ := Checked.trailingDataPosition_eq hoffset
  obtain ⟨hproperty, hpropertyAt⟩ := Checked.unquotedPropertyPosition_eq text
  have hlocated : ∀ message position, IsBoundary text position →
      Checked.syntaxErrorAt message text position = some (syntaxErrorAt message text position) ∧
        Rendered libraries text error (syntaxErrorAt message text position) :=
    fun message _ => rendered_syntaxErrorAt libraries error message
  unfold Checked.javascriptJsonError javascriptJsonError
  simp only [htext, Checked.hasUnterminatedString_eq hlimit, htrailing, hproperty,
    Option.bind_eq_bind, Option.bind_some]
  by_cases hquotes : hasUnterminatedString (Text.trimEnd text) = true
  · rw [if_pos hquotes, if_pos hquotes]
    exact hlocated _ _ (isBoundary_utf8Len text)
  rw [if_neg hquotes, if_neg hquotes]
  by_cases hopen : ['\x7b'].isSuffixOf (Text.trimEnd text) = true
  · rw [if_pos hopen, if_pos hopen]
    exact hlocated _ _ (isBoundary_trimEnd text)
  rw [if_neg hopen, if_neg hopen]
  by_cases heof : error.isEof = true
  · rw [if_pos heof, if_pos heof]
    exact ⟨rfl, .ended⟩
  rw [if_neg heof, if_neg heof]
  cases hdata : trailingDataPosition libraries text with
  | some position => exact hlocated _ _ (htrailingAt position hdata)
  | none =>
    dsimp only
    split_ifs with hbrace hlen hbracket
    · exact hlocated _ _ (isBoundary_before_brace hbrace).2
    · exact absurd (isBoundary_before_brace hbrace).1 hlen
    · exact ⟨rfl, .bracket⟩
    · cases hname : unquotedPropertyPosition text with
      | some position => exact hlocated _ _ (hpropertyAt position hname)
      | none => exact ⟨rfl, .display⟩

/-- Whatever the octets of a body within the limit, the complaint about it is written without a
panic, and a position in it lies between characters and determines the line and column. -/
theorem json_error_always_rendered (libraries : Libraries)
    (hoffset : ∀ text offset, libraries.firstValueEnd text = some offset → IsBoundary text offset)
    (body : List UInt8) (hbody : body.length ≤ maxJsonBodyBytes) (error : JsonError) :
    Checked.javascriptJsonError libraries body error =
        some (javascriptJsonError libraries body error) ∧
      ∀ text, fromUtf8 body = some text →
        Rendered libraries text error (javascriptJsonError libraries body error) := by
  cases htext : fromUtf8 body with
  | none =>
    constructor
    · rw [Checked.javascriptJsonError, javascriptJsonError, htext]
    · intro text h
      cases h
  | some text =>
    have hlimit : (Text.trimEnd text).length ≤ 0x7fffffff := by
      have htrim := length_trimEnd_le text
      have hchars := length_le_of_fromUtf8 htext
      unfold maxJsonBodyBytes at hbody
      omega
    obtain ⟨hchecked, hrendered⟩ := rendered_of_text (hoffset text) htext hlimit error
    refine ⟨hchecked, ?_⟩
    intro text' h
    obtain rfl := Option.some.inj h
    exact hrendered

/-- Libraries that read the value `1`, and refuse what follows it. -/
def readingOne : Libraries :=
  { plain with
    fromSlice := fun _ => .error ⟨false, "trailing characters"⟩
    firstValueEnd := fun text => if text.head? = some '1' then some 1 else none }

/-- The value `1`, an ideographic space, a newline and a letter of two octets. -/
def afterWideSpace : List UInt8 := [0x31, 0xe3, 0x80, 0x80, 0x0a, 0xc3, 0xa9]

theorem json_error_rendered_after_wide_space :
    javascriptJsonError readingOne afterWideSpace ⟨false, "trailing characters"⟩ =
        "SyntaxError: Unexpected non-whitespace character after JSON at position 5 (line 2 column 1)" ∧
      Checked.javascriptJsonError readingOne afterWideSpace ⟨false, "trailing characters"⟩ =
        some (javascriptJsonError readingOne afterWideSpace ⟨false, "trailing characters"⟩) := by
  have hoffset : ∀ text offset, readingOne.firstValueEnd text = some offset →
      IsBoundary text offset := by
    intro text offset h
    have hsplit : (if text.head? = some '1' then some 1 else none) = some offset := h
    split_ifs at hsplit with hhead
    · obtain ⟨rest, rfl⟩ : ∃ rest, text = '1' :: rest := List.head?_eq_some_iff.mp hhead
      obtain rfl := Option.some.inj hsplit
      exact ⟨['1'], rest, rfl, rfl⟩
  exact ⟨by decide +kernel,
    (json_error_always_rendered readingOne hoffset afterWideSpace (by decide) _).1⟩

end ChpProxy.Api
