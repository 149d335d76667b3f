import Mathlib.Data.List.Infix
import Mathlib.Order.Lattice
import Mathlib.Tactic.Linarith

/-! Normalized route keys and their persisted data (`route.rs`). -/
namespace ChpProxy

/-- An instant of `chrono::DateTime<Utc>`, counted in nanoseconds. Only its order is used
by the route table; the text form belongs to the store codecs. -/
abbrev DateTime := ℤ

/-- The three number representations of `serde_json`; a float is kept as its bits. -/
inductive Number where
  | posInt (n : UInt64)
  | negInt (n : Int64)
  | float (bits : UInt64)
  deriving DecidableEq, Repr

/-- A `serde_json::Value`. An object lists its members in ascending name order. -/
inductive Value where
  | null
  | bool (b : Bool)
  | number (n : Number)
  | string (s : String)
  | array (items : List Value)
  | object (members : List (String × Value))
  deriving Repr

mutual

def Value.decEq : (a b : Value) → Decidable (a = b)
  | .null, .null => isTrue rfl
  | .bool a, .bool b => decidable_of_iff (a = b) (by simp)
  | .number a, .number b => decidable_of_iff (a = b) (by simp)
  | .string a, .string b => decidable_of_iff (a = b) (by simp)
  | .array a, .array b =>
    match Value.decEqItems a b with
    | isTrue h => isTrue (by rw [h])
    | isFalse h => isFalse (by simpa using h)
  | .object a, .object b =>
    match Value.decEqMembers a b with
    | isTrue h => isTrue (by rw [h])
    | isFalse h => isFalse (by simpa using h)
  | .null, .bool _ | .null, .number _ | .null, .string _ | .null, .array _ | .null, .object _
  | .bool _, .null | .bool _, .number _ | .bool _, .string _ | .bool _, .array _
  | .bool _, .object _ | .number _, .null | .number _, .bool _ | .number _, .string _
  | .number _, .array _ | .number _, .object _ | .string _, .null | .string _, .bool _
  | .string _, .number _ | .string _, .array _ | .string _, .object _ | .array _, .null
  | .array _, .bool _ | .array _, .number _ | .array _, .string _ | .array _, .object _
  | .object _, .null | .object _, .bool _ | .object _, .number _ | .object _, .string _
  | .object _, .array _ => isFalse (by simp)

def Value.decEqItems : (a b : List Value) → Decidable (a = b)
  | [], [] => isTrue rfl
  | [], _ :: _ | _ :: _, [] => isFalse (by simp)
  | a :: as, b :: bs =>
    match Value.decEq a b, Value.decEqItems as bs with
    | isTrue h, isTrue hs => isTrue (by rw [h, hs])
    | isFalse h, _ => isFalse (by simp [h])
    | _, isFalse hs => isFalse (by simp [hs])

def Value.decEqMembers : (a b : List (String × Value)) → Decidable (a = b)
  | [], [] => isTrue rfl
  | [], _ :: _ | _ :: _, [] => isFalse (by simp)
  | (n, a) :: as, (m, b) :: bs =>
    match (inferInstance : Decidable (n = m)), Value.decEq a b, Value.decEqMembers as bs with
    | isTrue hn, isTrue h, isTrue hs => isTrue (by rw [hn, h, hs])
    | isFalse hn, _, _ => isFalse (by simp [hn])
    | _, isFalse h, _ => isFalse (by simp [h])
    | _, _, isFalse hs => isFalse (by simp [hs])

end

instance : DecidableEq Value := Value.decEq

/-- `serde_json::Map<String, Value>`, a sorted map. -/
abbrev Map := Std.ExtTreeMap String Value

/-- A cleaned route key. Every constructor of the source yields a leading slash. -/
structure RouteKey where
  text : String
  rooted : text.toList.head? = some '/'
  deriving DecidableEq, Repr

namespace RouteKey

def withLeadingSlash (input : List Char) : List Char :=
  if input.head? = some '/' then input else '/' :: input

def withoutTrailingSlash (input : List Char) : List Char :=
  if 1 < input.length ∧ input.getLast? = some '/' then input.dropLast else input

theorem head?_withLeadingSlash (input : List Char) :
    (withLeadingSlash input).head? = some '/' := by
  unfold withLeadingSlash
  split_ifs with h
  · exact h
  · rfl

theorem head?_withoutTrailingSlash (input : List Char) (h : input.head? = some '/') :
    (withoutTrailingSlash input).head? = some '/' := by
  unfold withoutTrailingSlash
  split_ifs with hl
  · match input, h, hl with
    | a :: b :: rest, h, _ => simpa using h
  · exact h

def normalize (input : String) : RouteKey where
  text := String.ofList (withoutTrailingSlash (withLeadingSlash input.toList))
  rooted := by
    rw [String.toList_ofList]
    exact head?_withoutTrailingSlash _ (head?_withLeadingSlash _)

/-- Cleanup is infallible (`RouteError` has no values). -/
def parse (input : String) : RouteKey := normalize input

def asStr (key : RouteKey) : String := key.text

example : (["", "/", "//", "///", "route", "//route", "/route/", "/route///"].map parse).map asStr =
    ["/", "/", "/", "//", "/route", "//route", "/route", "/route//"] := by decide

/-- Keys are ordered as their texts, as the derived `Ord` of the source. -/
instance : Ord RouteKey := ⟨fun a b => compare a.text b.text⟩

instance : Std.TransOrd RouteKey where
  eq_swap {a b} := @Std.OrientedCmp.eq_swap String compare _ a.text b.text
  isLE_trans {a b c} := @Std.TransCmp.isLE_trans String compare _ a.text b.text c.text

instance : Std.LawfulEqOrd RouteKey where
  compare_self {a} := @Std.ReflCmp.compare_self String compare _ a.text
  eq_of_compare := by
    rintro ⟨a, ha⟩ ⟨b, hb⟩ h
    obtain rfl : a = b := @Std.LawfulEqCmp.eq_of_compare String compare _ a b h
    rfl

end RouteKey

/-- Persisted data of a route, with CHP-compatible extension fields. -/
structure RouteData where
  target : String
  lastActivity : DateTime
  extra : Map
  deriving DecidableEq

/-- `BTreeMap<RouteKey, RouteData>`: the logical route map of registry and stores. -/
abbrev RouteMap := Std.ExtTreeMap RouteKey RouteData

def stamp (routes : RouteMap) (key : RouteKey) : Option DateTime :=
  (routes[key]?).map (·.lastActivity)

namespace RouteData

/-- The target and metadata, without the timestamp. -/
def payload (d : RouteData) : String × Map := (d.target, d.extra)

end RouteData

end ChpProxy
