import ChpProxy.Lib.Result
import ChpProxy.Store.Json
import ChpProxy.Store.Redis.Client
import ChpProxy.Store.Sidecar.Wire

/-! How the persistent stores load their routes: the keys, the records, and the whole snapshot. -/
namespace ChpProxy

/-- A persisted key. `RouteKey::parse` cleans one trailing slash, so one is added first where it
would clean a slash of the key. -/
def decodeKeyOr (error : StoreError) (raw : String) : Except StoreError RouteKey :=
  if raw.toList.head? ≠ some '/' then .error error
  else .ok (RouteKey.parse
    (if 1 < raw.toList.length ∧ raw.toList.getLast? = some '/' then raw ++ "/" else raw))

namespace RedisStore

def decodeKey (field : String) : Except StoreError RouteKey :=
  decodeKeyOr (.corruptData "snapshot" field) field

/-- The loop over the fields of the hash. -/
def loadRecords (codec : Codec) : List (String × List UInt8) → RouteMap → Except StoreError RouteMap
  | [], snapshot => .ok snapshot
  | (field, encoded) :: records, snapshot => do
    let key ← decodeKey field
    let data ← decode codec "snapshot" key.asStr encoded
    loadRecords codec records (snapshot.insert key data)

/-- `HGETALL` answers with every field of the hash once, or fails. -/
def snapshot (codec : Codec) (connected : Bool) (records : Option (List (String × List UInt8))) :
    Except StoreError RouteMap :=
  if !connected then .error (.backend "snapshot")
  else match records with
    | none => .error (.backend "snapshot")
    | some records => loadRecords codec records ∅

end RedisStore

namespace SidecarStore

def decodeKey (raw : String) : Except StoreError RouteKey :=
  decodeKeyOr (.corruptData "snapshot" "<route-key>") raw

def visitRecord (parse : String → Option DateTime) (document : Value) : Option RouteData :=
  (readMembers document).bind (RouteData.visitMap parse true · none none ∅)

def visitSnapshot (parse : String → Option DateTime) :
    List (String × Value) → RouteMap → Option RouteMap
  | [], routes => some routes
  | (rawKey, document) :: members, routes => do
    let key ← (decodeKey rawKey).toOption
    let data ← visitRecord parse document
    if routes.contains key then none else visitSnapshot parse members (routes.insert key data)

def decodeSnapshot (json : Json) (store : SidecarStore) (body : List UInt8) :
    Except StoreError RouteMap :=
  let error := .error (.corruptData "snapshot" "<response>")
  match json.fromSlice body with
  | some (.object members) => (visitSnapshot store.parseTimestamp members ∅).elim error .ok
  | _ => error

end SidecarStore

/-! The cleanup that the decoders anticipate. -/

theorem RouteKey.withLeadingSlash_of_head {input : List Char} (h : input.head? = some '/') :
    withLeadingSlash input = input := if_pos h

theorem RouteKey.text_parse_of_head {raw : String} (h : raw.toList.head? = some '/') :
    (RouteKey.parse raw).text = String.ofList (withoutTrailingSlash raw.toList) := by
  change String.ofList (withoutTrailingSlash (withLeadingSlash raw.toList)) = _
  rw [withLeadingSlash_of_head h]

theorem decodeKeyOr_of_head {raw : String} (h : raw.toList.head? = some '/') (error : StoreError) :
    ∃ key, decodeKeyOr error raw = .ok key ∧ key.asStr = raw := by
  refine ⟨_, if_neg (not_not.mpr h), ?_⟩
  split_ifs with hslash
  · have hlist : (raw ++ "/").toList = raw.toList ++ ['/'] := by simp
    have hhead : (raw ++ "/").toList.head? = some '/' := by
      rw [hlist, List.head?_append, h]
      rfl
    have hdrop : RouteKey.withoutTrailingSlash (raw.toList ++ ['/']) = raw.toList := by
      unfold RouteKey.withoutTrailingSlash
      have hlast : (raw.toList ++ ['/']).getLast? = some '/' := by simp
      have hlength : 1 < (raw.toList ++ ['/']).length := by
        rw [List.length_append]
        omega
      rw [if_pos ⟨hlength, hlast⟩, List.dropLast_concat]
    change (RouteKey.parse (raw ++ "/")).text = raw
    rw [RouteKey.text_parse_of_head hhead, hlist, hdrop, String.ofList_toList]
  · have hkeep : RouteKey.withoutTrailingSlash raw.toList = raw.toList := if_neg hslash
    change (RouteKey.parse raw).text = raw
    rw [RouteKey.text_parse_of_head h, hkeep, String.ofList_toList]

theorem decodeKeyOr_eq_ok {raw : String} {error : StoreError} {key : RouteKey}
    (h : decodeKeyOr error raw = .ok key) : key.asStr = raw := by
  by_cases hhead : raw.toList.head? = some '/'
  · obtain ⟨key', hkey, htext⟩ := decodeKeyOr_of_head hhead error
    have heq := Except.ok.inj (h.symm.trans hkey)
    rw [heq, htext]
  · unfold decodeKeyOr at h
    rw [if_pos hhead] at h
    cases h

theorem RouteKey.asStr_injective : Function.Injective RouteKey.asStr := by
  rintro ⟨text, hrooted⟩ ⟨text', hrooted'⟩ h
  obtain rfl : text = text' := h
  rfl

theorem decodeKeyOr_asStr (key : RouteKey) (error : StoreError) :
    decodeKeyOr error key.asStr = .ok key := by
  obtain ⟨key', hkey, htext⟩ := decodeKeyOr_of_head key.rooted error
  rw [← RouteKey.asStr_injective htext]
  exact htext ▸ hkey

/-! What a loop over persisted fields leaves in the map, for both stores. -/

/-- The fields are inserted one after the other, each under the key with its name. -/
inductive Loads {δ : Type} (read : String → δ → Option RouteData) :
    List (String × δ) → RouteMap → RouteMap → Prop where
  | nil {routes : RouteMap} : Loads read [] routes routes
  | cons {key : RouteKey} {record : δ} {data : RouteData} {fields : List (String × δ)}
    {before routes : RouteMap} : read key.asStr record = some data →
    Loads read fields (before.insert key data) routes →
    Loads read ((key.asStr, record) :: fields) before routes

namespace Loads

variable {δ : Type} {read : String → δ → Option RouteData} {fields : List (String × δ)}
  {before routes : RouteMap} {key : RouteKey} {data : RouteData}

theorem getElem?_of_not_mem (h : Loads read fields before routes)
    (hkey : key.asStr ∉ fields.map Prod.fst) : routes[key]? = before[key]? := by
  induction h with
  | nil => rfl
  | @cons key' record data fields before routes _ _ ih =>
    rw [List.map_cons, List.mem_cons, not_or] at hkey
    have hne : key' ≠ key := by
      rintro rfl
      exact hkey.1 rfl
    rw [ih hkey.2, TreeMap.getElem?_insert_eq, if_neg hne]

theorem kept (h : Loads read fields before routes) (hnodup : (fields.map Prod.fst).Nodup)
    {p : String × δ} (hp : p ∈ fields) :
    ∃ key : RouteKey, ∃ data, key.asStr = p.1 ∧ read p.1 p.2 = some data ∧
      routes[key]? = some data := by
  induction h with
  | nil => exact absurd hp List.not_mem_nil
  | @cons key record data fields before routes hread hrest ih =>
    obtain ⟨hnot, hnodup⟩ := List.nodup_cons.mp hnodup
    rcases List.mem_cons.mp hp with rfl | hp
    · refine ⟨key, data, rfl, hread, ?_⟩
      rw [hrest.getElem?_of_not_mem hnot, TreeMap.getElem?_insert_eq, if_pos rfl]
    · exact ih hnodup hp

theorem only (h : Loads read fields before routes) (hroute : routes[key]? = some data) :
    before[key]? = some data ∨
      ∃ record, (key.asStr, record) ∈ fields ∧ read key.asStr record = some data := by
  induction h with
  | nil => exact .inl hroute
  | @cons key' record data' fields before routes hread _ ih =>
    rcases ih hroute with hbefore | ⟨record, hmem, hrecord⟩
    · rw [TreeMap.getElem?_insert_eq] at hbefore
      split_ifs at hbefore with hkey
      · right
        refine ⟨record, ?_, ?_⟩
        · rw [← hkey]
          exact List.mem_cons_self
        · rw [← hkey, hread, Option.some.inj hbefore]
      · exact .inl hbefore
    · exact .inr ⟨record, List.mem_cons_of_mem _ hmem, hrecord⟩

end Loads

/-- A map with exactly the fields, each under the key with its name. -/
structure Loaded {δ : Type} (read : String → δ → Option RouteData) (fields : List (String × δ))
    (routes : RouteMap) : Prop where
  kept : ∀ p ∈ fields, ∃ key : RouteKey, ∃ data, key.asStr = p.1 ∧ read p.1 p.2 = some data ∧
    routes[key]? = some data
  only : ∀ (key : RouteKey) data, routes[key]? = some data →
    ∃ record, (key.asStr, record) ∈ fields ∧ read key.asStr record = some data

theorem Loads.loaded {δ : Type} {read : String → δ → Option RouteData}
    {fields : List (String × δ)} {routes : RouteMap} (h : Loads read fields ∅ routes)
    (hnodup : (fields.map Prod.fst).Nodup) : Loaded read fields routes where
  kept _ hp := h.kept hnodup hp
  only key data hroute := by
    rcases h.only hroute with hempty | hfield
    · rw [Std.ExtTreeMap.getElem?_empty] at hempty
      cases hempty
    · exact hfield

namespace RedisStore

theorem loads_loadRecords {codec : Codec} {records : List (String × List UInt8)}
    {before routes : RouteMap} (h : loadRecords codec records before = .ok routes) :
    Loads (fun field encoded => (decode codec "snapshot" field encoded).toOption) records before
      routes := by
  induction records generalizing before with
  | nil =>
    rw [← Except.ok.inj h]
    exact .nil
  | cons record records ih =>
    obtain ⟨field, encoded⟩ := record
    obtain ⟨key, hkey, h⟩ := Result.bind_eq_ok h
    obtain ⟨data, hdata, h⟩ := Result.bind_eq_ok h
    have hfield : key.asStr = field := decodeKeyOr_eq_ok hkey
    rw [← hfield]
    refine .cons ?_ (ih h)
    rw [hdata]
    rfl

end RedisStore

namespace SidecarStore

variable {parse : String → Option DateTime} {members : List (String × Value)}
  {before routes : RouteMap}

theorem visitSnapshot_cons {rawKey : String} {document : Value}
    (h : visitSnapshot parse ((rawKey, document) :: members) before = some routes) :
    ∃ key : RouteKey, ∃ data, key.asStr = rawKey ∧ visitRecord parse document = some data ∧
      before[key]? = none ∧ visitSnapshot parse members (before.insert key data) = some routes := by
  obtain ⟨key, hkey, h⟩ := Option.bind_eq_some_iff.mp h
  obtain ⟨data, hdata, h⟩ := Option.bind_eq_some_iff.mp h
  have hok : decodeKey rawKey = .ok key := by
    cases hdecoded : decodeKey rawKey with
    | error e =>
      rw [hdecoded] at hkey
      cases hkey
    | ok key' =>
      rw [hdecoded] at hkey
      rw [Option.some.inj hkey]
  split_ifs at h with hrepeated
  refine ⟨key, data, decodeKeyOr_eq_ok hok, hdata, ?_, h⟩
  exact Std.ExtTreeMap.getElem?_eq_none_of_contains_eq_false (Bool.eq_false_iff.mpr hrepeated)

theorem visitSnapshot_insert {key : RouteKey} {document : Value} {data : RouteData}
    (hread : visitRecord parse document = some data) (hfree : before[key]? = none) :
    visitSnapshot parse ((key.asStr, document) :: members) before =
      visitSnapshot parse members (before.insert key data) := by
  have hkey : decodeKey key.asStr = .ok key := decodeKeyOr_asStr key _
  have hnew : ¬before.contains key = true := by
    rw [Std.ExtTreeMap.contains_eq_isSome_getElem?, hfree]
    exact Bool.false_ne_true
  rw [visitSnapshot, hkey, hread]
  exact if_neg hnew

theorem loads_visitSnapshot (h : visitSnapshot parse members before = some routes) :
    Loads (fun _ document => visitRecord parse document) members before routes := by
  induction members generalizing before with
  | nil =>
    rw [← Option.some.inj h]
    exact .nil
  | cons member members ih =>
    obtain ⟨rawKey, document⟩ := member
    obtain ⟨key, data, rfl, hdata, -, h⟩ := visitSnapshot_cons h
    exact .cons hdata (ih h)

/-- A snapshot with a repeated key is refused. -/
theorem nodup_of_visitSnapshot (h : visitSnapshot parse members before = some routes) :
    (members.map Prod.fst).Nodup ∧
      ∀ key : RouteKey, (before[key]?).isSome → key.asStr ∉ members.map Prod.fst := by
  induction members generalizing before with
  | nil => exact ⟨List.nodup_nil, fun key _ => List.not_mem_nil⟩
  | cons member members ih =>
    obtain ⟨rawKey, document⟩ := member
    obtain ⟨key, data, rfl, -, hfree, h⟩ := visitSnapshot_cons h
    obtain ⟨hnodup, hnot⟩ := ih h
    refine ⟨List.nodup_cons.mpr ⟨hnot key ?_, hnodup⟩, fun key' hkey' hmem => ?_⟩
    · rw [TreeMap.getElem?_insert_eq, if_pos rfl]
      rfl
    · rcases List.mem_cons.mp hmem with hsame | hmem
      · rw [RouteKey.asStr_injective hsame, hfree] at hkey'
        cases hkey'
      · refine hnot key' ?_ hmem
        rw [TreeMap.getElem?_insert_eq]
        split_ifs
        · rfl
        · exact hkey'

theorem decodeSnapshot_eq_ok {json : Json} {store : SidecarStore} {body : List UInt8}
    (h : decodeSnapshot json store body = .ok routes) :
    ∃ members, json.fromSlice body = some (.object members) ∧
      visitSnapshot store.parseTimestamp members ∅ = some routes := by
  unfold decodeSnapshot at h
  dsimp only at h
  split at h
  · next members hslice => exact ⟨members, hslice, Result.elim_eq_ok h⟩
  · cases h

end SidecarStore

/-- Both decoders reconstruct exactly the strings that begin with a slash, every cleaned key among
them, although cleaning is not idempotent. So a snapshot that loads has every persisted field under
its own name, and nothing else. -/
theorem persisted_keys_reconstructed :
    (∀ s : String, s.toList.head? = some '/' → ∃ key, RedisStore.decodeKey s = .ok key ∧
      SidecarStore.decodeKey s = .ok key ∧ key.asStr = s) ∧
    (∀ s : String, s.toList.head? ≠ some '/' →
      RedisStore.decodeKey s = .error (.corruptData "snapshot" s) ∧
      SidecarStore.decodeKey s = .error (.corruptData "snapshot" "<route-key>")) ∧
    (∀ t : String, (RouteKey.parse t).asStr.toList.head? = some '/' ∧
      RedisStore.decodeKey (RouteKey.parse t).asStr = .ok (.parse t) ∧
      SidecarStore.decodeKey (RouteKey.parse t).asStr = .ok (.parse t)) ∧
    (∃ t : String, RouteKey.parse (RouteKey.parse t).asStr ≠ .parse t) ∧
    (∀ codec records routes, (records.map Prod.fst).Nodup →
      RedisStore.snapshot codec true (some records) = .ok routes →
      Loaded (fun field encoded => (RedisStore.decode codec "snapshot" field encoded).toOption)
        records routes) ∧
    ∀ json store body routes, SidecarStore.decodeSnapshot json store body = .ok routes →
      ∃ members, json.fromSlice body = some (.object members) ∧
        (members.map Prod.fst).Nodup ∧
        Loaded (fun _ document => SidecarStore.visitRecord store.parseTimestamp document)
          members routes := by
  refine ⟨fun s hs => ?_, fun s hs => ⟨if_pos hs, if_pos hs⟩, fun t => ?_, ⟨"a//", by decide⟩, ?_, ?_⟩
  · obtain ⟨key, hkey, htext⟩ := decodeKeyOr_of_head hs (.corruptData "snapshot" s)
    refine ⟨key, hkey, ?_, htext⟩
    rw [← htext]
    exact decodeKeyOr_asStr key _
  · exact ⟨(RouteKey.parse t).rooted, decodeKeyOr_asStr _ _, decodeKeyOr_asStr _ _⟩
  · intro codec records routes hnodup h
    exact (RedisStore.loads_loadRecords h).loaded hnodup
  · intro json store body routes h
    obtain ⟨members, hslice, hvisit⟩ := SidecarStore.decodeSnapshot_eq_ok h
    have hnodup := (SidecarStore.nodup_of_visitSnapshot hvisit).1
    exact ⟨members, hslice, hnodup, (SidecarStore.loads_visitSnapshot hvisit).loaded hnodup⟩

end ChpProxy
