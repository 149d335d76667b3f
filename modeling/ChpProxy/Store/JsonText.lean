import ChpProxy.Lib.Radix
import ChpProxy.Lib.Calendar
import ChpProxy.Lib.Reader
import ChpProxy.Lib.Utf8
import ChpProxy.Store.Json

/-! Compact JSON texts without floating-point numbers, and timestamps of RFC 3339. They have
the laws that the stores rely on, so what is proved from these laws is about something. -/
namespace ChpProxy

namespace JsonText

def writeChar (c : Char) : List Char :=
  if c = '"' ∨ c = '\\' then ['\\', c]
  else if c.toNat < 32 then
    ['\\', 'u', '0', '0', Nat.digitChar (c.toNat / 16), Nat.digitChar (c.toNat % 16)]
  else [c]

def writeString (s : String) : List Char := '"' :: (s.toList.flatMap writeChar ++ ['"'])

def writeNumber : Number → List Char
  | .posInt n => Reader.writeInteger n.toNat
  | .negInt n => Reader.writeInteger n.toInt
  | .float _ => ['?']

mutual

def write : Value → List Char
  | .null => ['n', 'u', 'l', 'l']
  | .bool true => ['t', 'r', 'u', 'e']
  | .bool false => ['f', 'a', 'l', 's', 'e']
  | .number n => writeNumber n
  | .string s => writeString s
  | .array [] => ['[', ']']
  | .array (v :: items) => '[' :: (write v ++ writeItems items)
  | .object [] => ['{', '}']
  | .object ((name, v) :: members) =>
    '{' :: (writeString name ++ ':' :: write v ++ writeMembers members)

def writeItems : List Value → List Char
  | [] => [']']
  | v :: items => ',' :: (write v ++ writeItems items)

def writeMembers : List (String × Value) → List Char
  | [] => ['}']
  | (name, v) :: members => ',' :: (writeString name ++ ':' :: write v ++ writeMembers members)

end

def writeMember (p : String × Value) : List Char := writeString p.1 ++ ':' :: write p.2

/-- The characters of a string, up to its closing quote. -/
def readChars : Reader (List Char)
  | [] => none
  | '"' :: text => some ([], text)
  | '\\' :: 'u' :: '0' :: '0' :: high :: low :: text =>
    (Radix.digit? 16 high).bind fun h => (Radix.digit? 16 low).bind fun l =>
      (readChars text).map fun p => (Char.ofNat (16 * h + l) :: p.1, p.2)
  | '\\' :: c :: text =>
    if c = '"' ∨ c = '\\' then (readChars text).map fun p => (c :: p.1, p.2) else none
  | c :: text => (readChars text).map fun p => (c :: p.1, p.2)

def readString : Reader String
  | '"' :: text => (readChars text).map fun p => (String.ofList p.1, p.2)
  | _ => none

/-- The representation that `serde_json` chooses for an integer. -/
def number? (z : ℤ) : Option Number :=
  if 0 ≤ z then if z < 2 ^ 64 then some (.posInt (.ofNat z.toNat)) else none
  else if -2 ^ 63 ≤ z then some (.negInt (.ofInt z)) else none

def readNumber : Reader Value := fun text =>
  (Reader.integer text).bind fun p => (number? p.1).map fun n => (.number n, p.2)

def readMember (read : Reader Value) : Reader (String × Value) := fun text =>
  (readString text).bind fun p => match p.2 with
    | ':' :: rest => (read rest).map fun q => ((p.1, q.1), q.2)
    | _ => none

def read : ℕ → Reader Value
  | 0, _ => none
  | _ + 1, [] => none
  | fuel + 1, c :: text =>
    if c = 'n' then if ['u', 'l', 'l'] <+: text then some (.null, text.drop 3) else none
    else if c = 't' then if ['r', 'u', 'e'] <+: text then some (.bool true, text.drop 3) else none
    else if c = 'f' then
      if ['a', 'l', 's', 'e'] <+: text then some (.bool false, text.drop 4) else none
    else if c = '"' then (readString ('"' :: text)).map fun p => (.string p.1, p.2)
    else if c = '[' then (Reader.list (read fuel) ']' fuel text).map fun p => (.array p.1, p.2)
    else if c = '{' then
      (Reader.list (readMember (read fuel)) '}' fuel text).map fun p => (.object p.1, p.2)
    else readNumber (c :: text)

theorem write_array (items : List Value) :
    write (.array items) = '[' :: Reader.writeList write ']' items := by
  have htail : ∀ items, writeItems items = Reader.writeTail write ']' items := by
    intro items
    induction items with
    | nil => rfl
    | cons v items ih => rw [writeItems, ih, Reader.writeTail]
  cases items with
  | nil => rfl
  | cons v items => rw [write, htail, Reader.writeList]

theorem write_object (members : List (String × Value)) :
    write (.object members) = '{' :: Reader.writeList writeMember '}' members := by
  have htail : ∀ members, writeMembers members = Reader.writeTail writeMember '}' members := by
    intro members
    induction members with
    | nil => rfl
    | cons p members ih => rw [writeMembers, ih, Reader.writeTail, writeMember]
  cases members with
  | nil => rfl
  | cons p members => rw [write, htail, Reader.writeList, writeMember]

theorem digit?_digitChar : ∀ n < 16, Radix.digit? 16 (Nat.digitChar n) = some n := by decide

theorem readChars_writeChar (c : Char) (text : List Char) :
    readChars (writeChar c ++ text) = (readChars text).map fun p => (c :: p.1, p.2) := by
  unfold writeChar
  split_ifs with hquoted hcontrol
  · rcases hquoted with rfl | rfl
    · rfl
    · rfl
  · have hhigh := digit?_digitChar (c.toNat / 16) (by omega)
    have hlow := digit?_digitChar (c.toNat % 16) (by omega)
    have hc : Char.ofNat (16 * (c.toNat / 16) + c.toNat % 16) = c := by
      rw [Nat.div_add_mod, Char.ofNat_toNat]
    change readChars ('\\' :: 'u' :: '0' :: '0' :: Nat.digitChar (c.toNat / 16) ::
      Nat.digitChar (c.toNat % 16) :: text) = _
    rw [readChars, hhigh, Option.bind_some, hlow, Option.bind_some, hc]
  · rw [not_or] at hquoted
    rw [List.singleton_append, readChars]
    · exact hquoted.1
    · rintro high low rest rfl
      exact fun _ => hquoted.2 rfl
    · rintro c' rest rfl
      exact fun _ => hquoted.2 rfl

theorem readString_undoes (s : String) :
    Reader.Undoes readString writeString (fun _ => True) s := by
  intro rest _
  have hchars : ∀ chars : List Char,
      readChars (chars.flatMap writeChar ++ '"' :: rest) = some (chars, rest) := by
    intro chars
    induction chars with
    | nil => rfl
    | cons c chars ih =>
      rw [List.flatMap_cons, List.append_assoc, readChars_writeChar, ih, Option.map_some]
  have htext : writeString s ++ rest = '"' :: (s.toList.flatMap writeChar ++ '"' :: rest) := by
    simp [writeString]
  rw [htext, readString, hchars, Option.map_some, String.ofList_toList]

theorem number?_natCast (n : UInt64) : number? n.toNat = some (.posInt n) := by
  have hlt := n.toNat_lt
  unfold number?
  rw [if_pos (Int.natCast_nonneg _), if_pos (by exact_mod_cast hlt), Int.toNat_natCast,
    UInt64.ofNat_toNat]

theorem number?_toInt {n : Int64} (hn : n < 0) : number? n.toInt = some (.negInt n) := by
  have hneg : n.toInt < 0 := Int64.lt_iff_toInt_lt.mp hn
  unfold number?
  rw [if_neg (not_le.mpr hneg), if_pos n.le_toInt, Int64.ofInt_toInt]

theorem readNumber_undoes {n : Number} (hn : (Value.number n).integral = true) :
    ∀ rest, Reader.NoDigit rest →
      readNumber (writeNumber n ++ rest) = some (.number n, rest) := by
  intro rest hrest
  unfold readNumber
  cases n with
  | posInt n =>
    rw [writeNumber, Reader.integer_undoes _ rest hrest, Option.bind_some, number?_natCast,
      Option.map_some]
  | negInt n =>
    rw [writeNumber, Reader.integer_undoes _ rest hrest, Option.bind_some,
      number?_toInt (of_decide_eq_true hn), Option.map_some]
  | float bits => cases hn

/-- What follows a value: nothing, or what separates the values of a list. -/
def Follows (rest : List Char) : Prop :=
  rest = [] ∨ Reader.Separated ']' rest ∨ Reader.Separated '}' rest

theorem Follows.noDigit {rest : List Char} (h : Follows rest) : Reader.NoDigit rest := by
  have hhead : ∀ d, rest.head? = some d → d.isDigit = false → Reader.NoDigit rest := by
    intro d hd hdigit c hc
    rw [Option.mem_def, hd] at hc
    rw [← Option.some.inj hc, hdigit]
  rcases h with rfl | (h | h) | (h | h)
  · exact fun c hc => nomatch hc
  · exact hhead _ h (by decide)
  · exact hhead _ h (by decide)
  · exact hhead _ h (by decide)
  · exact hhead _ h (by decide)

theorem read_number {c : Char} (hc : c = '-' ∨ c.isDigit = true) (fuel : ℕ) (text : List Char) :
    read (fuel + 1) (c :: text) = readNumber (c :: text) := by
  have hother : ∀ d : Char, d ≠ '-' → d.isDigit = false → c ≠ d := by
    rintro d hminus hdigit rfl
    rcases hc with h | h
    · exact hminus h
    · rw [hdigit] at h
      cases h
  rw [read, if_neg (hother 'n' (by decide) (by decide)), if_neg (hother 't' (by decide) (by decide)),
    if_neg (hother 'f' (by decide) (by decide)), if_neg (hother '"' (by decide) (by decide)),
    if_neg (hother '[' (by decide) (by decide)), if_neg (hother '{' (by decide) (by decide))]

theorem exists_head_writeNumber {n : Number} (hn : (Value.number n).integral = true) :
    ∃ c text, writeNumber n = c :: text ∧ (c = '-' ∨ c.isDigit = true) := by
  cases n with
  | posInt n => exact Reader.exists_head_writeInteger _
  | negInt n => exact Reader.exists_head_writeInteger _
  | float bits => cases hn

theorem read_bracket (fuel : ℕ) (rest : List Char) : read fuel (']' :: rest) = none := by
  cases fuel with
  | zero => rfl
  | succ fuel => rfl

theorem readMember_brace (read : Reader Value) (rest : List Char) :
    readMember read ('}' :: rest) = none := rfl

theorem readMember_undoes {read : Reader Value} {p : String × Value}
    (hread : Reader.Undoes read write Follows p.2) :
    Reader.Undoes (readMember read) writeMember (Reader.Separated '}') p := by
  intro rest hrest
  have htext : writeMember p ++ rest = writeString p.1 ++ ':' :: (write p.2 ++ rest) := by
    simp [writeMember]
  unfold readMember
  rw [htext, readString_undoes p.1 _ trivial, Option.bind_some]
  simp only [hread rest (.inr (.inr hrest)), Option.map_some]

/-- What was written is read back. The recursion of the reader is bounded by the length of the
text, the induction is on the value. -/
theorem read_undoes {v : Value} (hv : v.integral = true) :
    ∀ fuel, (write v).length ≤ fuel → Reader.Undoes (read fuel) write Follows v := by
  induction v using Value.nested_induction with
  | null =>
    rintro (_ | fuel) hfuel rest -
    · exact absurd hfuel (by decide)
    · simp [write, read]
  | bool b =>
    rintro (_ | fuel) hfuel rest -
    · cases b <;> exact absurd hfuel (by decide)
    · cases b <;> simp [write, read]
  | number n =>
    intro fuel hfuel rest hrest
    obtain ⟨c, text, htext, hc⟩ := exists_head_writeNumber hv
    have hread := readNumber_undoes hv rest hrest.noDigit
    rw [write] at hfuel ⊢
    rw [htext] at hfuel hread ⊢
    obtain ⟨fuel, rfl⟩ := Nat.exists_eq_add_one.mpr (Nat.zero_lt_of_lt hfuel)
    rw [List.cons_append, read_number hc]
    exact hread
  | string s =>
    rintro (_ | fuel) hfuel rest -
    · simp [write, writeString] at hfuel
    · have hread := readString_undoes s rest trivial
      simp only [write, writeString, List.cons_append, List.append_assoc,
        List.nil_append] at hread ⊢
      simp [read, hread]
  | array items ih =>
    intro fuel hfuel rest _
    rw [write_array, List.length_cons] at hfuel
    obtain ⟨fuel, rfl⟩ := Nat.exists_eq_add_one.mpr (Nat.zero_lt_of_lt hfuel)
    have hitems : Reader.list (read fuel) ']' fuel (Reader.writeList write ']' items ++ rest) =
        some (items, rest) := by
      refine Reader.list_undoes (by decide) (fun v hmem rest hrest => ?_) (read_bracket fuel) ?_ rest
      · have hlength := Reader.length_write_le write ']' hmem
        exact ih v hmem (Value.integralItems_iff.mp hv v hmem) fuel (by omega) rest
          (.inr (.inl hrest))
      · have hlength := Reader.length_le_writeList write ']' items
        omega
    rw [write_array]
    simp [read, hitems]
  | object members ih =>
    intro fuel hfuel rest _
    rw [write_object, List.length_cons] at hfuel
    obtain ⟨fuel, rfl⟩ := Nat.exists_eq_add_one.mpr (Nat.zero_lt_of_lt hfuel)
    have hmembers : Reader.list (readMember (read fuel)) '}' fuel
        (Reader.writeList writeMember '}' members ++ rest) = some (members, rest) := by
      refine Reader.list_undoes (by decide) (fun p hmem => ?_) (readMember_brace _) ?_ rest
      · have hlength := Reader.length_write_le writeMember '}' hmem
        have hvalue : (write p.2).length ≤ (writeMember p).length := by
          simp only [writeMember, List.length_append, List.length_cons]
          omega
        exact readMember_undoes
          (ih p hmem (Value.integralMembers_iff.mp hv p hmem) fuel (by omega))
      · have hlength := Reader.length_le_writeList writeMember '}' members
        omega
    rw [write_object]
    simp [read, hmembers]

end JsonText

/-- The whole text is one value. -/
def Json.text : Json where
  parse bytes := (Utf8.decode bytes).bind fun text =>
    (JsonText.read text.length text).bind fun p => if p.2 = [] then some p.1 else none
  print document := Utf8.encode (JsonText.write document)
  parse_print document hintegral := by
    have hread := JsonText.read_undoes hintegral _ le_rfl [] (.inl rfl)
    rw [List.append_nil] at hread
    rw [Utf8.decode_encode, Option.bind_some, hread, Option.bind_some, if_pos rfl]

/-- The timestamps of RFC 3339 in UTC, read in the form in which they are written. -/
def Chrono.rfc3339 : Chrono where
  toRfc3339 t := String.ofList (Calendar.write 9 t)
  toRfc3339Millis t := String.ofList (Calendar.write 3 t)
  parseFromRfc3339 raw := Calendar.read raw.toList
  parseDateTime raw := Calendar.read raw.toList
  nineDigitZ_toRfc3339 t := by
    refine ⟨Calendar.writeSeconds t, _, String.toList_ofList, Calendar.length_fixed 9 _, fun c => ?_⟩
    exact Calendar.isDigit_of_mem_fixed
  parseFromRfc3339_toRfc3339 t h := by
    rw [String.toList_ofList]
    exact Calendar.read_write h.1 h.2
  parseDateTime_toRfc3339 t h := by
    rw [String.toList_ofList]
    exact Calendar.read_write h.1 h.2

example : Chrono.rfc3339.toRfc3339 1000000001 = "1970-01-01T00:00:01.000000001Z" := by decide

end ChpProxy
