import ChpProxy.Errors.Chunked
import ChpProxy.Http

/-! Reading a custom-error response (`errors.rs`): the head, the framing of the body, and the loops
that parse again after every read. -/
namespace ChpProxy.Errors

/-- What `httparse::Response::parse` found in a head, with room for 128 headers. -/
structure ParsedResponse where
  /-- The octets consumed, if the head was complete. -/
  complete : Option ℕ
  code : Option ℕ
  headers : List (String × List UInt8)

/-- The parsers of `httparse` and `http`. -/
structure Parsers where
  /-- `httparse::Response::parse`; `none` is an error. -/
  parseResponse : List UInt8 → Option ParsedResponse
  /-- `HeaderValue::from_bytes`. -/
  fromBytes : List UInt8 → Option HeaderValue

structure RenderedError where
  body : List UInt8
  contentType : Option HeaderValue
  contentEncoding : Option HeaderValue
  deriving DecidableEq

/-- The headers that the renderer reads. -/
structure Head where
  contentType : Option HeaderValue
  contentEncoding : Option HeaderValue
  chunked : Bool
  contentLength : Option ℕ

def Head.empty : Head := ⟨none, none, false, none⟩

def headerEndMark : List UInt8 := crlf ++ crlf

def toAsciiLowercase (byte : UInt8) : UInt8 :=
  if 0x41 ≤ byte ∧ byte ≤ 0x5a then byte + 0x20 else byte

variable (parsers : Parsers)

/-- The loop over the headers. The last type and encoding count; a framing header that is repeated
or not understood refuses the response. -/
def readHeaders : List (String × List UInt8) → Head → Option Head
  | [], head => some head
  | (name, value) :: headers, head =>
    let named := fun text : String => Text.eqIgnoreAsciiCase name.toList text.toList
    if named "content-type" then
      readHeaders headers { head with contentType := parsers.fromBytes value }
    else if named "content-encoding" then
      readHeaders headers { head with contentEncoding := parsers.fromBytes value }
    else if named "transfer-encoding" then
      if head.chunked ∨ value.map toAsciiLowercase ≠ Utf8.encode "chunked".toList then none
      else readHeaders headers { head with chunked := true }
    else if named "content-length" then
      if head.contentLength.isSome then none
      else match (Utf8.decode value).bind (Radix.fromStrRadix 10 usizeMax) with
        | none => none
        | some length =>
          if maxErrorBodyBytes < length then none
          else readHeaders headers { head with contentLength := some length }
    else readHeaders headers head

/-- The part of `parse_http_response` that sees the head alone. -/
def parseHead (head : List UInt8) : Option Head :=
  match parsers.parseResponse head with
  | none => none
  | some parsed =>
    if parsed.complete ≠ some head.length then none
    else if parsed.code.isNone then none
    else match readHeaders parsers parsed.headers .empty with
      | none => none
      | some head => if head.chunked ∧ head.contentLength.isSome then none else some head

/-- The body that the head announces; without a length it lasts until the end of the stream. -/
def readBody (head : Head) (rawBody : List UInt8) (eof : Bool) : Option (List UInt8) :=
  if head.chunked then decodeChunked rawBody
  else match head.contentLength with
    | some length => if rawBody.length < length then none else some (rawBody.take length)
    | none => if eof ∧ rawBody.length ≤ maxErrorBodyBytes then some rawBody else none

def parseHttpResponse (response : List UInt8) (eof : Bool) : Option RenderedError :=
  match Search.position headerEndMark response with
  | none => none
  | some headerEnd =>
    if maxErrorHeaderBytes < headerEnd + 4 then none
    else match parseHead parsers (response.take (headerEnd + 4)) with
      | none => none
      | some head => (readBody head (response.drop (headerEnd + 4)) eof).map fun body =>
        ⟨body, head.contentType, head.contentEncoding⟩

/-- A read loop, given what its reads return. An empty read is the end of the stream. -/
def readLoop : List (List UInt8) → List UInt8 → Option RenderedError
  | [], response => parseHttpResponse parsers response true
  | chunk :: reads, response =>
    if chunk.isEmpty then parseHttpResponse parsers response true
    else if maxUnixWireBytes < response.length + chunk.length then none
    else if (Search.position headerEndMark (response ++ chunk)).isNone ∧
        maxErrorHeaderBytes < (response ++ chunk).length then none
    else match parseHttpResponse parsers (response ++ chunk) false with
      | some rendered => some rendered
      | none => readLoop reads (response ++ chunk)

def boundedRequestInner (reads : List (List UInt8)) : Option RenderedError :=
  readLoop parsers reads []

def unixCustomErrorInner (reads : List (List UInt8)) : Option RenderedError :=
  readLoop parsers reads []

variable {parsers} {response more input out : List UInt8} {eof : Bool} {rendered : RenderedError}

theorem headerEndMark_ne_nil : headerEndMark ≠ [] := by decide

theorem Framed.append {chunks : List (List UInt8)} (h : Framed chunks input)
    (more : List UInt8) : Framed chunks (input ++ more) := by
  induction h with
  | last hline =>
    simp only [List.append_assoc]
    exact .last hline
  | chunk hdata hline _ ih =>
    simp only [List.append_assoc]
    exact .chunk hdata hline ih

theorem decodeChunked_append (h : decodeChunked input = some out) (more : List UInt8) :
    decodeChunked (input ++ more) = some out := by
  obtain ⟨chunks, hframed, hout, hbound⟩ := decodeChunked_eq_some_iff.mp h
  exact decodeChunked_eq_some_iff.mpr ⟨chunks, hframed.append more, hout, hbound⟩

theorem readBody_append {head : Head} (h : readBody head input false = some out)
    (more : List UInt8) (eof : Bool) : readBody head (input ++ more) eof = some out := by
  unfold readBody at h ⊢
  by_cases hchunked : head.chunked = true
  · rw [if_pos hchunked] at h ⊢
    exact decodeChunked_append h more
  · rw [if_neg hchunked] at h ⊢
    cases hlength : head.contentLength with
    | none =>
      rw [hlength] at h
      simp at h
    | some length =>
      rw [hlength] at h
      dsimp only at h ⊢
      split_ifs at h with hshort
      have hlong : ¬(input ++ more).length < length := by
        rw [List.length_append]
        omega
      rw [if_neg hlong, List.take_append_of_le_length (by omega)]
      exact h

/-- A response that was complete before the end of the stream stays as it is. -/
theorem parseHttpResponse_append (h : parseHttpResponse parsers response false = some rendered)
    (more : List UInt8) (eof : Bool) :
    parseHttpResponse parsers (response ++ more) eof = some rendered := by
  unfold parseHttpResponse at h
  split at h
  · cases h
  · next headerEnd hposition =>
    split_ifs at h with hlong
    have hlen : headerEnd + 4 ≤ response.length :=
      Search.le_length_of_position headerEndMark_ne_nil hposition
    split at h
    · cases h
    · next head hhead =>
      obtain ⟨body, hbody, hrendered⟩ := Option.map_eq_some_iff.mp h
      unfold parseHttpResponse
      rw [Search.position_append headerEndMark_ne_nil hposition]
      dsimp only
      rw [if_neg hlong, List.take_append_of_le_length hlen, hhead,
        List.drop_append_of_le_length hlen]
      dsimp only
      rw [readBody_append hbody more eof, Option.map_some, hrendered]

/-- A head that is too long already refuses the whole stream. -/
theorem parseHttpResponse_eq_none (h : Search.position headerEndMark response = none)
    (hlong : maxErrorHeaderBytes < response.length) (more : List UInt8) (eof : Bool) :
    parseHttpResponse parsers (response ++ more) eof = none := by
  unfold parseHttpResponse
  split
  · rfl
  · next headerEnd hposition =>
    have hbeyond : response.length < headerEnd + 4 := by
      by_contra hwithin
      have hfound := Search.position_of_append headerEndMark_ne_nil hposition
        (Nat.le_of_not_lt hwithin)
      rw [h] at hfound
      cases hfound
    rw [if_pos (by omega)]

/-- Wherever the loop stands, it returns what the whole stream parses to. -/
theorem readLoop_eq {reads : List (List UInt8)} (hreads : ∀ chunk ∈ reads, chunk ≠ [])
    (hwire : (response ++ reads.flatten).length ≤ maxUnixWireBytes) :
    readLoop parsers reads response =
      parseHttpResponse parsers (response ++ reads.flatten) true := by
  induction reads generalizing response with
  | nil => simp [readLoop]
  | cons chunk reads ih =>
    obtain ⟨hchunk, hreads⟩ := List.forall_mem_cons.mp hreads
    have hflat : response ++ (chunk :: reads).flatten = (response ++ chunk) ++ reads.flatten := by
      simp
    rw [hflat] at hwire ⊢
    have hempty : chunk.isEmpty = false := by simpa using hchunk
    have hfits : ¬maxUnixWireBytes < response.length + chunk.length := by
      simp only [List.length_append] at hwire
      omega
    unfold readLoop
    rw [hempty, if_neg Bool.false_ne_true, if_neg hfits]
    split_ifs with hlong
    · exact (parseHttpResponse_eq_none (by simpa using hlong.1) hlong.2 _ _).symm
    · cases hparse : parseHttpResponse parsers (response ++ chunk) false with
      | some rendered => exact (parseHttpResponse_append hparse _ _).symm
      | none => exact ih hreads hwire

variable (parsers)

/-- However a stream is split into reads, both loops return what the whole stream parses to, and a
prefix that parses decides the result of every longer prefix. -/
theorem response_independent_of_reads :
    (∀ wire reads, wire.length ≤ maxUnixWireBytes → reads.flatten = wire →
      (∀ chunk ∈ reads, chunk ≠ [] ∧ chunk.length ≤ 8192) →
      boundedRequestInner parsers reads = parseHttpResponse parsers wire true ∧
      unixCustomErrorInner parsers reads = parseHttpResponse parsers wire true) ∧
    ∀ (start longer : List UInt8) (rendered : RenderedError), start <+: longer →
      parseHttpResponse parsers start false = some rendered →
      ∀ eof, parseHttpResponse parsers longer eof = some rendered := by
  constructor
  · rintro wire reads hwire rfl hreads
    have hloop : readLoop parsers reads [] = parseHttpResponse parsers reads.flatten true :=
      readLoop_eq (fun chunk hchunk => (hreads chunk hchunk).1) hwire
    exact ⟨hloop, hloop⟩
  · rintro start longer rendered ⟨more, rfl⟩ hparse eof
    exact parseHttpResponse_append hparse more eof

end ChpProxy.Errors
