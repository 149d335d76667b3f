import ChpProxy.Http
import ChpProxy.Lib.Text
import ChpProxy.Route

/-! How the management API (`api.rs`) reads a request: the authorization header, the route in the
path, the query, and the complaint about a body that is not JSON. -/
namespace ChpProxy.Api

structure JsonError where
  isEof : Bool
  display : String

/-- What the handlers use of `url`, `chrono` and `serde_json`. -/
structure Libraries where
  /-- `Url::parse`, then `Url::path`. -/
  urlPath : String → Option String
  /-- `url::form_urlencoded::parse`. -/
  parseForm : String → List (String × String)
  /-- `DateTime::parse_from_rfc3339`, in UTC. -/
  parseRfc3339 : String → Option DateTime
  /-- `NaiveDate::parse_from_str` with `%Y-%m-%d`, then midnight in UTC. -/
  parseDate : String → Option (Option DateTime)
  /-- `DateTime::parse_from_rfc2822`, in UTC. -/
  parseRfc2822 : String → Option DateTime
  /-- `DateTime::parse_from_str` with `%Y-%m-%d %H:%M:%S%.f%#z`, in UTC. -/
  parseSpaced : String → Option DateTime
  /-- `serde_json::from_slice` into a value. -/
  fromSlice : List UInt8 → Except JsonError Value
  /-- The offset after the first value of a stream, if it has one. -/
  firstValueEnd : List Char → Option ℕ
  /-- `serde_json::to_string` of a text. -/
  quote : List Char → Option String

def fromUtf8 (bytes : List UInt8) : Option (List Char) := Utf8.decode bytes

def asBytes (s : String) : List UInt8 := s.toUTF8.data.toList

/-! The token of the `Authorization` header. -/

def javascriptWhitespaceWidth (input : List UInt8) : Option ℕ :=
  match input with
  | [] => none
  | first :: _ =>
    if [0x20, 0x09, 0x0a, 0x0b, 0x0c, 0x0d, 0xa0].contains first then some 1
    else match fromUtf8 input with
      | some (character :: _) =>
        let n := character.toNat
        if n = 0xa0 || n = 0x1680 || (0x2000 ≤ n && n ≤ 0x200a) || n = 0x2028 || n = 0x2029 ||
          n = 0x202f || n = 0x205f || n = 0x3000 || n = 0xfeff then some character.utf8Size
        else none
      | _ => none

/-- Drop whitespace; `skip` octets belong to the character found before. -/
def skipWhitespace : (skip : ℕ) → List UInt8 → List UInt8
  | _, [] => []
  | skip + 1, _ :: rest => skipWhitespace skip rest
  | 0, first :: rest => match javascriptWhitespaceWidth (first :: rest) with
    | some width => skipWhitespace (width - 1) rest
    | none => first :: rest

def untilWhitespace : List UInt8 → List UInt8
  | [] => []
  | first :: rest =>
    if (javascriptWhitespaceWidth (first :: rest)).isNone then first :: untilWhitespace rest else []

/-- What follows a marker: whitespace and then a token. -/
def tokenAfter (rest : List UInt8) : Option (List UInt8) :=
  let start := skipWhitespace 0 rest
  let token := untilWhitespace start
  if start.length < rest.length && !token.isEmpty then some token else none

def marker : List UInt8 := [0x74, 0x6f, 0x6b, 0x65, 0x6e]

/-- Search on; `skip` octets belong to a marker without a token. -/
def extractTokenFrom : (skip : ℕ) → List UInt8 → Option (List UInt8)
  | _, [] => none
  | skip + 1, _ :: rest => extractTokenFrom skip rest
  | 0, first :: rest =>
    if marker.isPrefixOf (first :: rest) then
      match tokenAfter ((first :: rest).drop marker.length) with
      | some token => some token
      | none => extractTokenFrom (marker.length - 1) rest
    else extractTokenFrom 0 rest

def extractToken (header : List UInt8) : Option (List UInt8) := extractTokenFrom 0 header

/-- The part of `ApiState` that is fixed when the server starts. -/
structure ApiState where
  authToken : Option (List UInt8)

def ApiState.new (authToken : Option String) : ApiState :=
  ⟨(authToken.filter fun token => !token.isEmpty).map asBytes⟩

/-- `constant_time_eq` compares octets. -/
def constantTimeEq (a b : List UInt8) : Bool := a = b

def authorized (state : ApiState) (headers : HeaderMap) : Bool :=
  match state.authToken with
  | none => true
  | some expected => match (headers.get? "authorization").bind extractToken with
    | none => false
    | some candidate =>
      let equalLength := candidate.length = expected.length
      let compared := if equalLength then candidate else expected
      equalLength && constantTimeEq compared expected

/-! The route in the path. -/

inductive RoutePathError where
  | badRequest
  | notFound
  deriving DecidableEq

def hexValue (byte : UInt8) : Option UInt8 :=
  if 0x30 ≤ byte && byte ≤ 0x39 then some (byte - 0x30)
  else if 0x61 ≤ byte && byte ≤ 0x66 then some (byte - 0x61 + 10)
  else if 0x41 ≤ byte && byte ≤ 0x46 then some (byte - 0x41 + 10)
  else none

def percentDecodeBytes : List UInt8 → Option (List UInt8)
  | [] => some []
  | byte :: rest =>
    if byte = 0x25 then
      match rest with
      | high :: low :: rest => do
        let high ← hexValue high
        let low ← hexValue low
        let decoded ← percentDecodeBytes rest
        return (high <<< 4 ||| low) :: decoded
      | _ => none
    else (percentDecodeBytes rest).map (byte :: ·)

def percentDecode (input : List Char) : Option String :=
  ((percentDecodeBytes (asBytes (String.ofList input))).bind fromUtf8).map String.ofList

def whatwgNormalizedPathname (libraries : Libraries) (path : String) : Option String :=
  libraries.urlPath ("http://route.invalid" ++ path)

def routesPath : List Char := "/api/routes".toList

def routeKeyFromUri (libraries : Libraries) (path : String) (cleanCount : ℕ) :
    Except RoutePathError RouteKey :=
  match whatwgNormalizedPathname libraries path with
  | none => .error .badRequest
  | some pathname =>
    if routesPath.isPrefixOf pathname.toList then
      match percentDecode (pathname.toList.drop routesPath.length) with
      | none => .error .badRequest
      | some decoded =>
        let key := RouteKey.parse (if decoded.isEmpty then "/" else decoded)
        .ok (Nat.repeat (fun key => RouteKey.parse key.text) (cleanCount - 1) key)
    else .error .notFound

/-! The time in the query. -/

def firstValue (parameters : List (String × String)) (key : String) : Option String :=
  (parameters.find? (·.1 = key)).map (·.2)

def parsePinnedDateParseSubset (libraries : Libraries) (raw : String) : Option DateTime :=
  match libraries.parseRfc3339 raw with
  | some timestamp => some timestamp
  | none => match libraries.parseDate raw with
    | some midnight => midnight
    | none => match libraries.parseRfc2822 raw with
      | some timestamp => some timestamp
      | none => libraries.parseSpaced raw

def inactiveSince (libraries : Libraries) (query : Option String) :
    Except String (Option DateTime) :=
  let parameters := query.elim [] libraries.parseForm
  let nonempty := fun key => (firstValue parameters key).filter fun value => !value.isEmpty
  match (nonempty "inactiveSince").or (nonempty "inactive_since") with
  | none => .ok none
  | some raw => match parsePinnedDateParseSubset libraries raw with
    | some timestamp => .ok (some timestamp)
    | none => .error s!"Invalid datestamp '{raw}' must be ISO8601."

/-! The complaint about a body that is not JSON. -/

def utf8Len (s : List Char) : ℕ := (s.map Char.utf8Size).sum

/-- The characters within the first `n` octets. -/
def takeUtf8 : ℕ → List Char → List Char
  | _, [] => []
  | n, c :: rest => if c.utf8Size ≤ n then c :: takeUtf8 (n - c.utf8Size) rest else []

def dropUtf8 (n : ℕ) (s : List Char) : List Char := s.drop (takeUtf8 n s).length

def syntaxErrorAt (message : String) (input : List Char) (position : ℕ) : String :=
  let before := takeUtf8 position input
  let line := before.count '\n' + 1
  let column := utf8Len (Text.afterLast '\n' before) + 1
  s!"SyntaxError: {message} at position {position} (line {line} column {column})"

/-- One character of the scan: whether it is escaped, and the quotes so far. -/
def scanQuotes : (escaped : Bool) → (quotes : ℕ) → List Char → ℕ
  | _, quotes, [] => quotes
  | escaped, quotes, character :: rest =>
    scanQuotes (character = '\\' && !escaped)
      (if character = '"' && !escaped then quotes + 1 else quotes) rest

def hasUnterminatedString (input : List Char) : Bool := scanQuotes false 0 input % 2 = 1

/-- The offset of the first character that is not whitespace, and the character. -/
def firstVisible : (offset : ℕ) → List Char → Option (ℕ × Char)
  | _, [] => none
  | offset, c :: rest =>
    if Text.isWhitespace c then firstVisible (offset + c.utf8Size) rest else some (offset, c)

def trailingDataPosition (libraries : Libraries) (input : List Char) : Option ℕ :=
  (libraries.firstValueEnd input).bind fun offset =>
    (firstVisible offset (dropUtf8 offset input)).map (·.1)

/-- The offset after the first opening brace, and what follows it. -/
def afterBrace : (offset : ℕ) → List Char → Option (ℕ × List Char)
  | _, [] => none
  | offset, c :: rest =>
    if c = '\x7b' then some (offset + 1, rest) else afterBrace (offset + c.utf8Size) rest

def unquotedPropertyPosition (input : List Char) : Option ℕ :=
  (afterBrace 0 input).bind fun (offset, rest) =>
    (firstVisible offset rest).bind fun (position, character) =>
      if character ≠ '"' && character ≠ '\x7d' then some position else none

def javascriptJsonError (libraries : Libraries) (body : List UInt8) (error : JsonError) : String :=
  match fromUtf8 body with
  | none => s!"SyntaxError: {error.display}"
  | some text =>
    let trimmed := Text.trimEnd text
    if hasUnterminatedString trimmed then
      syntaxErrorAt "Unterminated string in JSON" text (utf8Len text)
    else if ['\x7b'].isSuffixOf trimmed then
      syntaxErrorAt "Expected property name or '\x7d' in JSON" text (utf8Len trimmed)
    else if error.isEof then "SyntaxError: Unexpected end of JSON input"
    else match trailingDataPosition libraries text with
      | some position =>
        syntaxErrorAt "Unexpected non-whitespace character after JSON" text position
      | none =>
        if [',', '\x7d'].isSuffixOf trimmed then
          syntaxErrorAt "Expected double-quoted property name in JSON" text (utf8Len trimmed - 1)
        else if [',', ']'].isSuffixOf trimmed then
          let quoted := (libraries.quote text).getD "\"\""
          s!"SyntaxError: Unexpected token ']', {quoted} is not valid JSON"
        else match unquotedPropertyPosition text with
          | some position =>
            syntaxErrorAt "Expected property name or '\x7d' in JSON" text position
          | none => s!"SyntaxError: {error.display}"

end ChpProxy.Api
