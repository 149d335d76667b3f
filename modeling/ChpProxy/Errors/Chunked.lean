import ChpProxy.Lib.Radix
import ChpProxy.Lib.Search
import ChpProxy.Lib.Text
import ChpProxy.Lib.Utf8

/-! The chunked bodies of custom-error responses (`errors.rs`). -/
namespace ChpProxy.Errors

def maxErrorHeaderBytes : ℕ := 16 * 1024
def maxErrorBodyBytes : ℕ := 1024 * 1024
def maxUnixWireBytes : ℕ := maxErrorHeaderBytes + maxErrorBodyBytes + 64 * 1024

/-- The largest `usize` of a 64-bit platform. -/
def usizeMax : ℕ := 2 ^ 64 - 1

def crlf : List UInt8 := [0x0d, 0x0a]

/-- The size that the line before a chunk declares. Extensions follow a semicolon. -/
def chunkSize (line : List UInt8) : Option ℕ :=
  (Utf8.decode line).bind fun text =>
    Radix.fromStrRadix 16 usizeMax (Text.trim (text.takeWhile (· ≠ ';')))

/-- The loop of `decode_chunked`. Every turn consumes a line and a chunk that is not empty. -/
def decodeChunkedFrom (input output : List UInt8) : Option (List UInt8) :=
  match Search.position crlf input with
  | none => none
  | some lineEnd => match chunkSize (input.take lineEnd) with
    | none => none
    | some size =>
      let rest := input.drop (lineEnd + 2)
      if size = 0 then if crlf <+: rest then some output else none
      else if rest.length < size then none
      else if maxErrorBodyBytes < (output ++ rest.take size).length then none
      else if crlf <+: rest.drop size then
        decodeChunkedFrom ((rest.drop size).drop 2) (output ++ rest.take size)
      else none
termination_by input.length
decreasing_by
  simp only [List.length_drop, rest] at *
  omega

def decodeChunked (input : List UInt8) : Option (List UInt8) := decodeChunkedFrom input []

/-- A text that declares a size: a hexadecimal numeral between whitespace, perhaps with extensions
after a semicolon. -/
inductive Declares : List Char → ℕ → Prop
  | intro (before digits after extensions : List Char) (size : ℕ)
      (hspace : ∀ c ∈ before ++ after, Text.isWhitespace c = true)
      (hsize : Radix.Numeral 16 digits size) (hfits : size ≤ usizeMax)
      (hextensions : extensions = [] ∨ extensions.head? = some ';') :
      Declares (before ++ (digits ++ after) ++ extensions) size

/-- A line that declares a size. -/
structure SizeLine (line : List UInt8) (size : ℕ) : Prop where
  oneLine : ¬crlf <:+: line
  declared : ∃ text, line = Utf8.encode text ∧ Declares text size

/-- An input that begins with chunks as long as declared, up to a chunk of size zero and an empty
line. What follows is not part of the body. -/
inductive Framed : List (List UInt8) → List UInt8 → Prop where
  | last {line trailing : List UInt8} :
    SizeLine line 0 → Framed [] (line ++ (crlf ++ (crlf ++ trailing)))
  | chunk {line data rest : List UInt8} {chunks : List (List UInt8)} :
    data ≠ [] → SizeLine line data.length → Framed chunks rest →
      Framed (data :: chunks) (line ++ (crlf ++ (data ++ (crlf ++ rest))))

variable {input output out line rest : List UInt8} {size : ℕ} {chunks : List (List UInt8)}

theorem numeral_visible {digits : List Char} (h : Radix.Numeral 16 digits size) {c : Char}
    (hc : c ∈ digits) : Text.isWhitespace c = false ∧ c ≠ ';' := by
  rcases h.visible hc with rfl | halnum
  · decide
  · refine ⟨Text.isWhitespace_of_isAlphanum halnum, ?_⟩
    rintro rfl
    exact absurd halnum (by decide)

theorem chunkSize_eq_some_iff :
    chunkSize line = some size ↔ ∃ text, line = Utf8.encode text ∧ Declares text size := by
  unfold chunkSize
  simp only [Option.bind_eq_some_iff, Utf8.decode_eq_some_iff]
  refine exists_congr fun text => and_congr_right fun _ => ?_
  rw [Radix.fromStrRadix_eq_some_iff (by decide)]
  constructor
  · rintro ⟨hsize, hfits⟩
    obtain ⟨before, after, hpad, hbefore, hafter⟩ := Text.exists_pad (text.takeWhile (· ≠ ';'))
    obtain ⟨extensions, htext, hextensions, -⟩ := Text.exists_cut ';' text
    have hdeclares := Declares.intro _ _ _ _ _
      (fun c hc => (List.mem_append.mp hc).elim (hbefore c) (hafter c)) hsize hfits hextensions
    rwa [← hpad, ← htext] at hdeclares
  · rintro ⟨before, digits, after, extensions, _, hspace, hsize, hfits, hextensions⟩
    have hbefore : ∀ c ∈ before, Text.isWhitespace c = true := fun c hc =>
      hspace c (List.mem_append_left _ hc)
    have hafter : ∀ c ∈ after, Text.isWhitespace c = true := fun c hc =>
      hspace c (List.mem_append_right _ hc)
    have hplain : ';' ∉ before ++ (digits ++ after) := by
      simp only [List.mem_append, not_or]
      refine ⟨fun hc => ?_, fun hc => (numeral_visible hsize hc).2 rfl, fun hc => ?_⟩
      · exact absurd (hbefore _ hc) (by decide)
      · exact absurd (hafter _ hc) (by decide)
    rw [Text.takeWhile_stop hplain hextensions,
      Text.trim_pad hbefore hafter fun c hc => (numeral_visible hsize hc).1]
    exact ⟨hsize, hfits⟩

theorem decodeChunkedFrom_line (h : SizeLine line size) (rest output : List UInt8) :
    decodeChunkedFrom (line ++ (crlf ++ rest)) output =
      if size = 0 then if crlf <+: rest then some output else none
      else if rest.length < size then none
      else if maxErrorBodyBytes < (output ++ rest.take size).length then none
      else if crlf <+: rest.drop size then
        decodeChunkedFrom ((rest.drop size).drop 2) (output ++ rest.take size)
      else none := by
  have hposition : Search.position crlf (line ++ (crlf ++ rest)) = some line.length :=
    Search.position_line (by decide) h.oneLine rest
  have hline : (line ++ (crlf ++ rest)).take line.length = line := List.take_left
  have hrest : (line ++ (crlf ++ rest)).drop (line.length + 2) = rest := by
    rw [← List.drop_drop, List.drop_left]
    rfl
  rw [decodeChunkedFrom, hposition]
  simp only [hline, chunkSize_eq_some_iff.mpr h.declared, hrest]

theorem exists_sizeLine (h : decodeChunkedFrom input output = some out) :
    ∃ line size rest, SizeLine line size ∧ input = line ++ (crlf ++ rest) := by
  rw [decodeChunkedFrom] at h
  split at h
  · cases h
  · next lineEnd hposition =>
    split at h
    · cases h
    · next size hsize =>
      have hne : crlf ≠ [] := by decide
      exact ⟨input.take lineEnd, size, input.drop (lineEnd + 2),
        ⟨Search.not_infix_take hne hposition, chunkSize_eq_some_iff.mp hsize⟩, Search.eq_append_of_position hne hposition⟩

theorem decodeChunkedFrom_cases (h : SizeLine line size)
    (hout : decodeChunkedFrom (line ++ (crlf ++ rest)) output = some out) :
    (size = 0 ∧ crlf <+: rest ∧ out = output) ∨
    ∃ data after, data ≠ [] ∧ data.length = size ∧ rest = data ++ (crlf ++ after) ∧
      (output ++ data).length ≤ maxErrorBodyBytes ∧
      decodeChunkedFrom after (output ++ data) = some out := by
  rw [decodeChunkedFrom_line h] at hout
  split_ifs at hout with hzero hend hshort hlong hnext
  · exact .inl ⟨hzero, hend, (Option.some.inj hout).symm⟩
  · right
    have hlen : (rest.take size).length = size := by
      rw [List.length_take]
      omega
    have hafter : rest.drop size = crlf ++ (rest.drop size).drop 2 := by
      obtain ⟨after, hafter⟩ := hnext
      rw [← hafter]
      rfl
    have hsplit : rest = rest.take size ++ (crlf ++ (rest.drop size).drop 2) := by
      rw [← hafter, List.take_append_drop]
    have hdata : rest.take size ≠ [] := by
      intro hnil
      rw [hnil] at hlen
      exact hzero hlen.symm
    exact ⟨rest.take size, (rest.drop size).drop 2, hdata, hlen, hsplit, by omega, hout⟩

/-- The loop succeeds only on a framed input, and adds the data of its chunks. -/
theorem framed_of_decodeChunkedFrom (h : decodeChunkedFrom input output = some out) :
    ∃ chunks, Framed chunks input ∧ out = output ++ chunks.flatten ∧
      (chunks ≠ [] → out.length ≤ maxErrorBodyBytes) := by
  induction hn : input.length using Nat.strong_induction_on generalizing input output with
  | _ n ih =>
    obtain ⟨line, size, rest, hline, rfl⟩ := exists_sizeLine h
    rcases decodeChunkedFrom_cases hline h with ⟨rfl, ⟨trailing, rfl⟩, rfl⟩ |
      ⟨data, after, hdata, rfl, rfl, hfits, hafter⟩
    · exact ⟨[], .last hline, by simp, fun hne => absurd rfl hne⟩
    · have hshorter : after.length < n := by
        rw [← hn]
        simp only [List.length_append, crlf, List.length_cons]
        omega
      obtain ⟨chunks, hframed, hout, hbound⟩ := ih _ hshorter hafter rfl
      refine ⟨data :: chunks, .chunk hdata hline hframed, by simp [hout], fun _ => ?_⟩
      by_cases hnil : chunks = []
      · rw [hout, hnil]
        simpa using hfits
      · exact hbound hnil

/-- The loop decodes every framed input whose data is within the bound. -/
theorem decodeChunkedFrom_of_framed (h : Framed chunks input)
    (hbound : (output ++ chunks.flatten).length ≤ maxErrorBodyBytes) :
    decodeChunkedFrom input output = some (output ++ chunks.flatten) := by
  induction h generalizing output with
  | last hline =>
    rw [decodeChunkedFrom_line hline, if_pos rfl, if_pos (List.prefix_append _ _)]
    simp
  | @chunk line data rest chunks hdata hline _ ih =>
    have hzero : data.length ≠ 0 := by simpa using hdata
    have hflat : output ++ (data :: chunks).flatten = (output ++ data) ++ chunks.flatten := by
      simp
    have hfits : ¬maxErrorBodyBytes < (output ++ data).length := by
      rw [hflat, List.length_append] at hbound
      omega
    rw [decodeChunkedFrom_line hline, if_neg hzero, if_neg (by simp), List.take_left,
      List.drop_left, if_neg hfits, if_pos (List.prefix_append _ _)]
    rw [hflat] at hbound ⊢
    exact ih hbound

theorem decodeChunked_eq_some_iff :
    decodeChunked input = some out ↔
      ∃ chunks, Framed chunks input ∧ out = chunks.flatten ∧ out.length ≤ maxErrorBodyBytes := by
  constructor
  · intro h
    obtain ⟨chunks, hframed, hout, hbound⟩ := framed_of_decodeChunkedFrom h
    refine ⟨chunks, hframed, by simpa using hout, ?_⟩
    by_cases hnil : chunks = []
    · simp [hout, hnil]
    · exact hbound hnil
  · rintro ⟨chunks, hframed, rfl, hbound⟩
    exact decodeChunkedFrom_of_framed hframed (by simpa using hbound)

theorem SizeLine.length_eq {line' rest' : List UInt8} {size' : ℕ} (h : SizeLine line size)
    (h' : SizeLine line' size') (heq : line ++ (crlf ++ rest) = line' ++ (crlf ++ rest')) :
    line.length = line'.length := by
  have hline : Search.position crlf (line ++ (crlf ++ rest)) = some line.length :=
    Search.position_line (by decide) h.oneLine rest
  have hline' : Search.position crlf (line' ++ (crlf ++ rest')) = some line'.length :=
    Search.position_line (by decide) h'.oneLine rest'
  rw [heq] at hline
  exact Option.some.inj (hline.symm.trans hline')

theorem SizeLine.unique {line' rest' : List UInt8} {size' : ℕ} (h : SizeLine line size)
    (h' : SizeLine line' size') (heq : line ++ (crlf ++ rest) = line' ++ (crlf ++ rest')) :
    size = size' ∧ rest = rest' := by
  obtain ⟨rfl, hrest⟩ := List.append_inj heq (h.length_eq h' heq)
  have hsize := (chunkSize_eq_some_iff.mpr h.declared).symm.trans
    (chunkSize_eq_some_iff.mpr h'.declared)
  exact ⟨Option.some.inj hsize, (List.append_cancel_left_eq _ _ _).mp hrest⟩

/-- Data is never taken for a line or for the end of a chunk: an input is framed in one way. -/
theorem Framed.unique {chunks' : List (List UInt8)} (h : Framed chunks input)
    (h' : Framed chunks' input) : chunks = chunks' := by
  induction h generalizing chunks' with
  | last hline =>
    generalize hinput : _ ++ (crlf ++ (crlf ++ _)) = input' at h'
    cases h' with
    | last => rfl
    | chunk hdata hline' =>
      obtain ⟨hsize, -⟩ := hline.unique hline' hinput
      exact absurd (List.length_eq_zero_iff.mp hsize.symm) hdata
  | chunk hdata hline _ ih =>
    generalize hinput : _ ++ (crlf ++ (_ ++ (crlf ++ _))) = input' at h'
    cases h' with
    | last hline' =>
      obtain ⟨hsize, -⟩ := hline.unique hline' hinput
      exact absurd (List.length_eq_zero_iff.mp hsize) hdata
    | chunk hdata' hline' hrest' =>
      obtain ⟨hsize, hrest⟩ := hline.unique hline' hinput
      obtain ⟨rfl, hafter⟩ := List.append_inj hrest hsize
      rw [List.append_cancel_left_eq] at hafter
      rw [ih (hafter ▸ hrest')]

/-- A chunk as a server may write it: the length of the data in hexadecimal digits of either case
with any number of leading zeros, perhaps an extension, and the data. -/
structure Chunk where
  digits : List Char
  extension : Option (List Char)
  data : List UInt8
  nonempty : data ≠ []
  size : Radix.valueFrom 16 digits 0 = some data.length
  oneLine : ∀ text ∈ extension, ¬['\r', '\n'] <:+: text

namespace Chunk

def header (chunk : Chunk) : List Char := chunk.digits ++ chunk.extension.elim [] (';' :: ·)

def wire (chunk : Chunk) : List UInt8 :=
  Utf8.encode chunk.header ++ (crlf ++ (chunk.data ++ crlf))

theorem isAlphanum_of_mem_digits (chunk : Chunk) {c : Char} (hc : c ∈ chunk.digits) :
    c.isAlphanum = true := by
  obtain ⟨d, hd⟩ := Radix.exists_digit_of_valueFrom chunk.size hc
  exact Radix.isAlphanum_of_digit? hd

theorem not_infix_header (chunk : Chunk) : ¬['\r', '\n'] <:+: chunk.header := by
  intro h
  have hdigits : '\r' ∉ chunk.digits := fun hc =>
    absurd (chunk.isAlphanum_of_mem_digits hc) (by decide)
  have hrest := Search.infix_of_infix_append hdigits h
  cases hext : chunk.extension with
  | none =>
    rw [hext] at hrest
    exact absurd (List.infix_nil.mp hrest) (by decide)
  | some text =>
    rw [hext] at hrest
    have hsemicolon : '\r' ∉ [';'] := by decide
    exact chunk.oneLine text hext (Search.infix_of_infix_append hsemicolon hrest)

theorem sizeLine (chunk : Chunk) (hsize : chunk.data.length ≤ usizeMax) :
    SizeLine (Utf8.encode chunk.header) chunk.data.length := by
  have hdigits : chunk.digits ≠ [] := by
    intro hnil
    have hzero := chunk.size
    rw [hnil] at hzero
    exact chunk.nonempty (List.length_eq_zero_iff.mp (Option.some.inj hzero).symm)
  have hascii : ∀ c ∈ ['\r', '\n'], c.toNat < 128 := by
    intro c hc
    rcases List.mem_pair.mp hc with rfl | rfl
    · decide
    · decide
  refine ⟨fun hinfix => chunk.not_infix_header ?_, ?_⟩
  · exact Utf8.infix_of_infix_encode hascii (by decide) hinfix
  · refine ⟨chunk.header, rfl, ?_⟩
    have hheader : chunk.header = [] ++ (chunk.digits ++ []) ++
        chunk.extension.elim [] (';' :: ·) := by
      rw [List.nil_append, List.append_nil]
      rfl
    rw [hheader]
    refine .intro _ _ _ _ _ (by simp) (.digits hdigits chunk.size) hsize ?_
    cases chunk.extension with
    | none => exact .inl rfl
    | some text => exact .inr rfl

end Chunk

/-- Chunks as written, the last chunk, and whatever comes after the body. -/
def encodeChunked (chunks : List Chunk) (trailing : List UInt8) : List UInt8 :=
  chunks.flatMap Chunk.wire ++ (Utf8.encode ['0'] ++ (crlf ++ (crlf ++ trailing)))

theorem framed_encodeChunked {chunks : List Chunk}
    (h : ∀ chunk ∈ chunks, chunk.data.length ≤ usizeMax) (trailing : List UInt8) :
    Framed (chunks.map Chunk.data) (encodeChunked chunks trailing) := by
  induction chunks with
  | nil =>
    refine .last ⟨by decide, ['0'], rfl, ?_⟩
    exact .intro [] ['0'] [] [] 0 (by simp) (.digits (by simp) rfl) (by decide) (.inl rfl)
  | cons chunk chunks ih =>
    obtain ⟨hchunk, hchunks⟩ := List.forall_mem_cons.mp h
    have hcons : encodeChunked (chunk :: chunks) trailing = Utf8.encode chunk.header ++
        (crlf ++ (chunk.data ++ (crlf ++ encodeChunked chunks trailing))) := by
      simp [encodeChunked, Chunk.wire]
    rw [hcons]
    exact .chunk chunk.nonempty (chunk.sizeLine hchunk) (ih hchunks)

/-- Decoding gives back the data of every list of chunks within the bound. Whatever input it
accepts is framed, in one way, by chunks whose data it returns; it is a total function. -/
theorem decodeChunked_undoes_encodeChunked :
    (∀ (chunks : List Chunk) (trailing : List UInt8),
      (chunks.flatMap Chunk.data).length ≤ maxErrorBodyBytes →
      decodeChunked (encodeChunked chunks trailing) = some (chunks.flatMap Chunk.data)) ∧
    ∀ input out, decodeChunked input = some out → out.length ≤ maxErrorBodyBytes ∧
      ∃ chunks, Framed chunks input ∧ chunks.flatten = out ∧
        ∀ chunks', Framed chunks' input → chunks' = chunks := by
  constructor
  · intro chunks trailing hbound
    have hsizes : ∀ chunk ∈ chunks, chunk.data.length ≤ usizeMax := by
      intro chunk hchunk
      have hle : chunk.data.length ≤ (chunks.flatMap Chunk.data).length :=
        (List.flatMap_def .. ▸ List.sublist_flatten_of_mem (List.mem_map_of_mem hchunk)).length_le
      exact (hle.trans hbound).trans (by decide)
    refine decodeChunked_eq_some_iff.mpr ⟨_, framed_encodeChunked hsizes trailing, ?_, hbound⟩
    exact List.flatMap_def ..
  · intro input out h
    obtain ⟨chunks, hframed, hout, hbound⟩ := decodeChunked_eq_some_iff.mp h
    exact ⟨hbound, chunks, hframed, hout.symm, fun chunks' hframed' => hframed'.unique hframed⟩

end ChpProxy.Errors
