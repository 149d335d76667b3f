import ChpProxy.Lib.TreeMap
import ChpProxy.Store.Codec

/-! JSON documents between their text and the readers of the stores. A document is a value whose
objects list their members as written, in any order and perhaps repeated. -/
namespace ChpProxy

namespace Value

mutual

def depth : Value → ℕ
  | .array items => depthItems items + 1
  | .object members => depthMembers members + 1
  | .null | .bool _ | .number _ | .string _ => 0

def depthItems : List Value → ℕ
  | [] => 0
  | v :: items => max v.depth (depthItems items)

def depthMembers : List (String × Value) → ℕ
  | [] => 0
  | (_, v) :: members => max v.depth (depthMembers members)

end

mutual

/-- Every number is an integer, and `NegInt` is kept for the negative ones. -/
def integral : Value → Bool
  | .number (.float _) => false
  | .number (.negInt n) => n < 0
  | .array items => integralItems items
  | .object members => integralMembers members
  | .null | .bool _ | .number _ | .string _ => true

def integralItems : List Value → Bool
  | [] => true
  | v :: items => v.integral && integralItems items

def integralMembers : List (String × Value) → Bool
  | [] => true
  | (_, v) :: members => v.integral && integralMembers members

end

mutual

/-- What `serde_json` builds when it reads a document as a `Value`: of a repeated member the last
one counts, and a map sorts its members. -/
def normalize : Value → Value
  | .array items => .array (normalizeItems items)
  | .object members => .object (Std.ExtTreeMap.ofList (normalizeMembers members) : Map).toList
  | .null => .null
  | .bool b => .bool b
  | .number n => .number n
  | .string s => .string s

def normalizeItems : List Value → List Value
  | [] => []
  | v :: items => v.normalize :: normalizeItems items

def normalizeMembers : List (String × Value) → List (String × Value)
  | [] => []
  | (name, v) :: members => (name, v.normalize) :: normalizeMembers members

end

example : (Value.object [("b", .null), ("a", .bool true), ("b", .array [])]).normalize =
    .object [("a", .bool true), ("b", .array [])] := by decide

theorem normalizeItems_eq_map (items : List Value) : normalizeItems items = items.map normalize := by
  induction items with
  | nil => rfl
  | cons v items ih => rw [normalizeItems, ih, List.map_cons]

theorem normalizeMembers_eq_map (members : List (String × Value)) :
    normalizeMembers members = members.map fun p => (p.1, p.2.normalize) := by
  induction members with
  | nil => rfl
  | cons p members ih => rw [normalizeMembers, ih, List.map_cons]

theorem depthItems_le_iff {items : List Value} {n : ℕ} :
    depthItems items ≤ n ↔ ∀ v ∈ items, v.depth ≤ n := by
  induction items with
  | nil => simp [depthItems]
  | cons v items ih => simp [depthItems, ih]

theorem depthMembers_le_iff {members : List (String × Value)} {n : ℕ} :
    depthMembers members ≤ n ↔ ∀ p ∈ members, p.2.depth ≤ n := by
  induction members with
  | nil => simp [depthMembers]
  | cons p members ih => simp [depthMembers, ih]

theorem integralItems_iff {items : List Value} :
    integralItems items = true ↔ ∀ v ∈ items, v.integral = true := by
  induction items with
  | nil => simp [integralItems]
  | cons v items ih => simp [integralItems, ih]

theorem integralMembers_iff {members : List (String × Value)} :
    integralMembers members = true ↔ ∀ p ∈ members, p.2.integral = true := by
  induction members with
  | nil => simp [integralMembers]
  | cons p members ih => simp [integralMembers, ih]

theorem nested_induction {P : Value → Prop} (null : P .null) (bool : ∀ b, P (.bool b))
    (number : ∀ n, P (.number n)) (string : ∀ s, P (.string s))
    (array : ∀ items, (∀ v ∈ items, P v) → P (.array items))
    (object : ∀ members, (∀ p ∈ members, P p.2) → P (.object members)) (v : Value) : P v := by
  refine @Value.rec P (fun items => ∀ v ∈ items, P v) (fun members => ∀ p ∈ members, P p.2)
    (fun p => P p.2) null bool number string array object ?_ ?_ ?_ ?_ ?_ v
  · simp
  · intro v items hv hitems
    exact List.forall_mem_cons.mpr ⟨hv, hitems⟩
  · simp
  · intro p members hp hmembers
    exact List.forall_mem_cons.mpr ⟨hp, hmembers⟩
  · intro name v hv
    exact hv

theorem exists_of_mem_normalize {members : List (String × Value)} {p : String × Value}
    (h : p ∈ (Std.ExtTreeMap.ofList (normalizeMembers members) : Map).toList) :
    ∃ q ∈ members, p = (q.1, q.2.normalize) := by
  have hmem := TreeMap.mem_of_mem_toList_ofList h
  rw [normalizeMembers_eq_map] at hmem
  obtain ⟨q, hq, heq⟩ := List.mem_map.mp hmem
  exact ⟨q, hq, heq.symm⟩

theorem depth_normalize_le (v : Value) : v.normalize.depth ≤ v.depth := by
  induction v using nested_induction with
  | null | bool | number | string => exact le_rfl
  | array items ih =>
    refine Nat.succ_le_succ (depthItems_le_iff.mpr fun v hv => ?_)
    rw [normalizeItems_eq_map] at hv
    obtain ⟨v, hmem, rfl⟩ := List.mem_map.mp hv
    exact (ih v hmem).trans (depthItems_le_iff.mp le_rfl v hmem)
  | object members ih =>
    refine Nat.succ_le_succ (depthMembers_le_iff.mpr fun p hp => ?_)
    obtain ⟨q, hq, rfl⟩ := exists_of_mem_normalize hp
    exact (ih q hq).trans (depthMembers_le_iff.mp le_rfl q hq)

theorem integral_normalize {v : Value} (h : v.integral = true) : v.normalize.integral = true := by
  induction v using nested_induction with
  | null | bool | number | string => exact h
  | array items ih =>
    refine integralItems_iff.mpr fun v hv => ?_
    rw [normalizeItems_eq_map] at hv
    obtain ⟨v, hmem, rfl⟩ := List.mem_map.mp hv
    exact ih v hmem (integralItems_iff.mp h v hmem)
  | object members ih =>
    refine integralMembers_iff.mpr fun p hp => ?_
    obtain ⟨q, hq, rfl⟩ := exists_of_mem_normalize hp
    exact ih q hq (integralMembers_iff.mp h q hq)

/-- A value that was read is read back as it is. -/
theorem normalize_normalize (v : Value) : v.normalize.normalize = v.normalize := by
  induction v using nested_induction with
  | null | bool | number | string => rfl
  | array items ih =>
    simp only [normalize, normalizeItems_eq_map, List.map_map, array.injEq]
    exact List.map_congr_left fun v hv => ih v hv
  | object members ih =>
    have hsame : ∀ m : Map, m = .ofList (normalizeMembers members) →
        m.toList.map (fun p => (p.1, p.2.normalize)) = m.toList := by
      rintro m rfl
      refine (List.map_congr_left fun p hp => ?_).trans (List.map_id _)
      obtain ⟨q, hq, rfl⟩ := exists_of_mem_normalize hp
      simp [ih q hq]
    simp only [normalize]
    rw [normalizeMembers_eq_map (Std.ExtTreeMap.toList _), hsame _ rfl, TreeMap.ofList_toList]

end Value

/-- `serde_json` on documents: what a text denotes if nesting is not limited, and the text of a
document. Writing never fails, and what has no floating-point numbers is read back. -/
structure Json where
  parse : List UInt8 → Option Value
  print : Value → List UInt8
  parse_print : ∀ document, document.integral = true → parse (print document) = some document

/-- The nesting that `serde_json` accepts. -/
def recursionLimit : ℕ := 127

/-- `serde_json::from_slice`, up to what the caller reads the document as. -/
def Json.fromSlice (json : Json) (bytes : List UInt8) : Option Value :=
  (json.parse bytes).filter (·.depth ≤ recursionLimit)

/-- A text that was written is read back unless it nests too deep. -/
theorem Json.fromSlice_print (json : Json) {document : Value} (h : document.integral = true) :
    json.fromSlice (json.print document) =
      if document.depth ≤ recursionLimit then some document else none := by
  unfold Json.fromSlice
  rw [json.parse_print document h, Option.filter_some]
  simp only [decide_eq_true_eq]

/-- The years that RFC 3339 can name, as instants from 0000-01-01 up to 10000-01-01. -/
def DateTime.InFourDigitYears (t : DateTime) : Prop :=
  -62167219200 * 10 ^ 9 ≤ t ∧ t < 253402300800 * 10 ^ 9

instance (t : DateTime) : Decidable t.InFourDigitYears :=
  inferInstanceAs (Decidable (_ ∧ _))

/-- A text that ends in a fraction of nine digits and `Z`. -/
def NineDigitZ (text : String) : Prop :=
  ∃ whole fraction : List Char, text.toList = whole ++ '.' :: fraction ++ ['Z'] ∧
    fraction.length = 9 ∧ ∀ c ∈ fraction, c.isDigit = true

/-- `chrono` on timestamps in UTC. Formatting with nanoseconds and parsing are inverse. -/
structure Chrono where
  /-- `to_rfc3339_opts(SecondsFormat::Nanos, true)`. -/
  toRfc3339 : DateTime → String
  /-- `to_rfc3339_opts(SecondsFormat::Millis, true)`. -/
  toRfc3339Millis : DateTime → String
  /-- `DateTime::parse_from_rfc3339`, then `with_timezone(&Utc)`. -/
  parseFromRfc3339 : String → Option DateTime
  /-- The reader that `chrono` derives for `DateTime<Utc>`. -/
  parseDateTime : String → Option DateTime
  nineDigitZ_toRfc3339 : ∀ t, NineDigitZ (toRfc3339 t)
  parseFromRfc3339_toRfc3339 : ∀ t : DateTime, t.InFourDigitYears →
    parseFromRfc3339 (toRfc3339 t) = some t
  parseDateTime_toRfc3339 : ∀ t : DateTime, t.InFourDigitYears →
    parseDateTime (toRfc3339 t) = some t

/-- The members of a document that is an object, each read as a `Value`. -/
def readMembers : Value → Option (List (String × Value))
  | .object members => some (members.map fun p => (p.1, p.2.normalize))
  | _ => none

/-- The codecs of the stores over `serde_json` and `chrono`. -/
def Json.codec (json : Json) (chrono : Chrono) : Codec where
  toVec members := some (json.print (.object members))
  fromSlice bytes := (json.fromSlice bytes).bind readMembers
  toRfc3339 := chrono.toRfc3339
  parseFromRfc3339 := chrono.parseFromRfc3339
  parseDateTime := chrono.parseDateTime

end ChpProxy
