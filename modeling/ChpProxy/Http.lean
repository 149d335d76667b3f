import ChpProxy.Lib.MultiMap
import ChpProxy.Lib.Utf8

/-! Header maps and the conversions of the `http` crate that the proxy and the sidecar client
share. Names and values are texts and octets; what the conversions do is assumed in `Http`. -/
namespace ChpProxy

abbrev HeaderName := String

abbrev HeaderValue := List UInt8

abbrev HeaderMap := MultiMap HeaderName HeaderValue

/-- The octets that a readable header value consists of. -/
def Http.isVisible (n : ℕ) : Bool := n = 9 || (32 ≤ n && n < 127)

/-- The conversions of the `http` crate: `HeaderName::from_bytes` accepts some texts and lowers
their case, `HeaderValue::from_str` accepts some texts and keeps their octets, as `from_static` does
for visible ASCII, and `to_str` reads a value of visible ASCII. A value with an octet outside of
ASCII can be made but not read. -/
structure Http where
  fromBytes : String → Option HeaderName
  fromStr : String → Option HeaderValue
  fromStatic : String → HeaderValue
  toStr : HeaderValue → Option String
  fromBytes_lower : ∀ s n, fromBytes s = some n → n.toList = s.toList.map Char.toLower
  fromStr_octets : ∀ s v, fromStr s = some v → v = Utf8.encode s.toList
  fromStatic_octets : ∀ s, (∀ c ∈ s.toList, Http.isVisible c.toNat = true) →
    fromStatic s = Utf8.encode s.toList
  toStr_eq_some_iff : ∀ v s, toStr v = some s ↔
    (∀ b ∈ v, Http.isVisible b.toNat = true) ∧ v = Utf8.encode s.toList

namespace Http

def isTokenChar (c : Char) : Bool :=
  c.isAlphanum || "!#$%&'*+-.^_`|~".toList.contains c

def Visible (s : String) : Prop := ∀ c ∈ s.toList, isVisible c.toNat = true

instance (s : String) : Decidable (Visible s) := List.decidableBAll _ s.toList

def ofText (s : String) : HeaderValue := s.toList.map fun c => UInt8.ofNat c.toNat

def text? (v : HeaderValue) : Option String :=
  if v.all (isVisible ·.toNat) then some (String.ofList (v.map fun b => Char.ofNat b.toNat))
  else none

theorem lt_of_isVisible {n : ℕ} (h : isVisible n = true) : n < 127 := by
  simp [isVisible] at h
  omega

theorem ofText_eq_encode {s : String} (h : Visible s) : ofText s = Utf8.encode s.toList := by
  unfold ofText Utf8.encode
  rw [List.map_eq_flatMap]
  refine List.flatMap_congr fun c hc => ?_
  have hlt := lt_of_isVisible (h c hc)
  rw [Utf8.utf8EncodeChar_of_ascii (by omega)]

theorem isVisible_of_mem_ofText {s : String} (h : Visible s) {b : UInt8} (hb : b ∈ ofText s) :
    isVisible b.toNat = true := by
  obtain ⟨c, hc, rfl⟩ := List.mem_map.mp hb
  have hlt := lt_of_isVisible (h c hc)
  rw [UInt8.toNat_ofNat', Nat.mod_eq_of_lt (by omega)]
  exact h c hc

theorem toStr_eq_some (http : Http) {s : String} (h : Visible s) {v : HeaderValue} :
    http.toStr v = some s ↔ v = ofText s := by
  rw [http.toStr_eq_some_iff, ← ofText_eq_encode h]
  constructor
  · exact And.right
  · rintro rfl
    exact ⟨fun b hb => isVisible_of_mem_ofText h hb, rfl⟩

theorem visible_of_toStr (http : Http) {s : String} {v : HeaderValue} (h : http.toStr v = some s) :
    Visible s := by
  obtain ⟨hv, rfl⟩ := (http.toStr_eq_some_iff v s).mp h
  intro c hc
  by_cases hascii : c.toNat < 128
  · have hmem : UInt8.ofNat c.toNat ∈ String.utf8EncodeChar c := by
      rw [Utf8.utf8EncodeChar_of_ascii hascii]
      exact List.mem_singleton_self _
    have hb := hv _ (List.mem_flatMap.mpr ⟨c, hc, hmem⟩)
    rwa [UInt8.toNat_ofNat', Nat.mod_eq_of_lt (by omega)] at hb
  · obtain ⟨b, rest, hbytes⟩ := List.exists_cons_of_ne_nil (@String.utf8EncodeChar_ne_nil c)
    have hb : b ∈ String.utf8EncodeChar c := by rw [hbytes]; exact List.mem_cons_self
    have hle := Utf8.le_of_mem_utf8EncodeChar hascii hb
    have hlt := lt_of_isVisible (hv b (List.mem_flatMap.mpr ⟨c, hc, hb⟩))
    omega

theorem toStr_fromStatic (http : Http) {s : String} (h : Visible s) :
    http.toStr (http.fromStatic s) = some s := by
  rw [http.fromStatic_octets s h, toStr_eq_some http h, ofText_eq_encode h]

theorem text?_eq_some_iff (v : HeaderValue) (s : String) :
    text? v = some s ↔ (∀ b ∈ v, isVisible b.toNat = true) ∧ v = Utf8.encode s.toList := by
  have hencode : ∀ v : HeaderValue, (∀ b ∈ v, isVisible b.toNat = true) →
      Utf8.encode (v.map fun b => Char.ofNat b.toNat) = v := by
    intro v hv
    unfold Utf8.encode
    rw [List.flatMap_map]
    conv_rhs => rw [← List.flatMap_singleton' v]
    refine List.flatMap_congr fun b hb => ?_
    have hlt := lt_of_isVisible (hv b hb)
    have hbyte : (Char.ofNat b.toNat).toNat = b.toNat := Utf8.toNat_ofNat_of_ascii (by omega)
    rw [Utf8.utf8EncodeChar_of_ascii (by omega), hbyte, UInt8.ofNat_toNat]
  unfold text?
  constructor
  · intro h
    split_ifs at h with hall
    have hv : ∀ b ∈ v, isVisible b.toNat = true := by simpa using hall
    refine ⟨hv, ?_⟩
    rw [← Option.some.inj h, String.toList_ofList, hencode v hv]
  · rintro ⟨hv, rfl⟩
    have hall : (Utf8.encode s.toList).all (isVisible ·.toNat) = true := by simpa using hv
    have hdecode := congrArg Utf8.decode (hencode _ hv)
    rw [Utf8.decode_encode, Utf8.decode_encode] at hdecode
    rw [if_pos hall, Option.some.inj hdecode, String.ofList_toList]

/-- Visible ASCII and tabs in values, tokens in names. -/
def ascii : Http where
  fromBytes s :=
    if !s.toList.isEmpty && s.toList.all isTokenChar then
      some (String.ofList (s.toList.map Char.toLower))
    else none
  fromStr s := if s.toList.all (isVisible ·.toNat) then some (ofText s) else none
  fromStatic := ofText
  toStr := text?
  fromBytes_lower s n h := by
    split_ifs at h
    rw [← Option.some.inj h, String.toList_ofList]
  fromStr_octets s v h := by
    split_ifs at h with hall
    rw [← Option.some.inj h]
    exact ofText_eq_encode (by simpa [Visible] using hall)
  fromStatic_octets s h := ofText_eq_encode h
  toStr_eq_some_iff := text?_eq_some_iff

end Http

end ChpProxy
