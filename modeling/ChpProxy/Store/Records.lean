import ChpProxy.Store.JsonText
import ChpProxy.Store.Redis.Record
import ChpProxy.Store.Snapshot

/-! The records of both persistent stores. They are built in different ways and are the same
documents, which both readers take back. -/
namespace ChpProxy

namespace RouteData

/-- The derived serializer: the two fields, their instant cut to milliseconds, and then the
flattened metadata over them. -/
def toValue (chrono : Chrono) (data : RouteData) : Map :=
  ((∅ : Map).insert "target" (.string data.target)).insert "last_activity"
    (.string (chrono.toRfc3339Millis data.lastActivity)) ∪ data.extra

/-- The members of a record, with `raw` for its instant. -/
def record (data : RouteData) (raw : String) : Map :=
  (data.extra.insert "target" (.string data.target)).insert "last_activity" (.string raw)

/-- How deep a record nests; its own two members are strings. -/
def depth (data : RouteData) : ℕ := (Value.object data.extra.toList).depth

/-- The records that the stores are used for. Metadata is what `serde_json` reads. -/
structure Storable (data : RouteData) : Prop where
  reserved : ∀ k, isReserved k = true → data.extra[k]? = none
  normal : ∀ p ∈ data.extra.toList, p.2.normalize = p.2
  integral : ∀ p ∈ data.extra.toList, p.2.integral = true
  years : data.lastActivity.InFourDigitYears

variable {data : RouteData} {raw : String}

theorem getElem?_record (data : RouteData) (raw k : String) :
    (data.record raw)[k]? = if "last_activity" = k then some (.string raw)
      else if "target" = k then some (.string data.target) else data.extra[k]? := by
  unfold record
  rw [TreeMap.getElem?_insert_eq, TreeMap.getElem?_insert_eq]

theorem isReserved_eq_false_iff {k : String} :
    isReserved k = false ↔ k ≠ "target" ∧ k ≠ "last_activity" := by
  simp [isReserved]

theorem toObject_eq_insert_toValue (codec : Codec) (chrono : Chrono) (data : RouteData) :
    RedisStore.toObject codec data =
      (data.toValue chrono).insert "last_activity" (.string (codec.toRfc3339 data.lastActivity)) := by
  refine Std.ExtTreeMap.ext_getElem? fun k => ?_
  unfold RedisStore.toObject toValue
  rw [TreeMap.getElem?_insert_eq, TreeMap.getElem?_insert_eq, Std.ExtTreeMap.getElem?_union,
    TreeMap.getElem?_insert_eq, TreeMap.getElem?_insert_eq, TreeMap.getElem?_insertIfNew_eq]
  by_cases hlast : "last_activity" = k
  · rw [if_pos hlast, if_pos hlast]
  · rw [if_neg hlast, if_neg hlast, if_neg hlast, Std.ExtTreeMap.getElem?_empty]
    by_cases htarget : "target" = k
    · subst htarget
      cases data.extra["target"]? with
      | none => rfl
      | some v => rfl
    · rw [if_neg htarget, if_neg htarget, Option.or_none]

theorem toObject_eq_record (h : data.Storable) (codec : Codec) :
    RedisStore.toObject codec data = data.record (codec.toRfc3339 data.lastActivity) := by
  refine Std.ExtTreeMap.ext_getElem? fun k => ?_
  unfold RedisStore.toObject
  rw [getElem?_record, TreeMap.getElem?_insert_eq, TreeMap.getElem?_insertIfNew_eq,
    h.reserved "target" rfl, Option.getD_none]

theorem mem_record_iff (h : data.Storable) {p : String × Value} :
    p ∈ (data.record raw).toList ↔
      p = ("last_activity", .string raw) ∨ p = ("target", .string data.target) ∨
        p ∈ data.extra.toList := by
  obtain ⟨k, v⟩ := p
  rw [Std.ExtTreeMap.mem_toList_iff_getElem?_eq_some, Std.ExtTreeMap.mem_toList_iff_getElem?_eq_some,
    getElem?_record]
  have hlast := h.reserved "last_activity" rfl
  have htarget := h.reserved "target" rfl
  split_ifs with hk hk'
  · subst hk
    simp [hlast, eq_comm]
  · subst hk'
    simp [htarget, eq_comm]
  · simp [Ne.symm hk, Ne.symm hk']

theorem nodup_record (data : RouteData) (raw : String) :
    ((data.record raw).toList.map Prod.fst).Nodup := by
  rw [Std.ExtTreeMap.map_fst_toList_eq_keys]
  exact Std.ExtTreeMap.nodup_keys

theorem depth_record (h : data.Storable) (raw : String) :
    (Value.object (data.record raw).toList).depth = data.depth := by
  refine congrArg (· + 1) (le_antisymm ?_ ?_)
  · refine Value.depthMembers_le_iff.mpr fun p hp => ?_
    rcases (mem_record_iff h).mp hp with rfl | rfl | hp
    · exact Nat.zero_le _
    · exact Nat.zero_le _
    · exact Value.depthMembers_le_iff.mp le_rfl p hp
  · exact Value.depthMembers_le_iff.mpr fun p hp =>
      Value.depthMembers_le_iff.mp le_rfl p ((mem_record_iff h).mpr (.inr (.inr hp)))

theorem integral_record (h : data.Storable) (raw : String) :
    (Value.object (data.record raw).toList).integral = true := by
  refine Value.integralMembers_iff.mpr fun p hp => ?_
  rcases (mem_record_iff h).mp hp with rfl | rfl | hp
  · rfl
  · rfl
  · exact h.integral p hp

theorem readMembers_record (h : data.Storable) (raw : String) :
    readMembers (.object (data.record raw).toList) = some (data.record raw).toList := by
  refine congrArg some ((List.map_congr_left fun p hp => ?_).trans (List.map_id _))
  have hnormal : p.2.normalize = p.2 := by
    rcases (mem_record_iff h).mp hp with rfl | rfl | hp
    · rfl
    · rfl
    · exact h.normal p hp
  rw [hnormal]
  rfl

/-- Both visitors read a record back, the strict one and the one that lets the last member win. -/
theorem visitMap_record (h : data.Storable) {parse : String → Option DateTime} (unique : Bool)
    (hparse : parse raw = some data.lastActivity) :
    visitMap parse unique (data.record raw).toList none none ∅ = some data := by
  refine visitMap_eq_some ⟨nodup_record data raw, .inr ⟨rfl, (mem_record_iff h).mpr (.inr (.inl rfl))⟩,
    .inr ⟨rfl, raw, (mem_record_iff h).mpr (.inl rfl), hparse⟩, fun k v => ?_,
    fun k _ => Std.ExtTreeMap.getElem?_empty⟩
  rw [Std.ExtTreeMap.getElem?_empty, Std.ExtTreeMap.mem_toList_iff_getElem?_eq_some,
    getElem?_record]
  cases hk : isReserved k with
  | true => simp [h.reserved k hk]
  | false =>
    obtain ⟨htarget, hlast⟩ := isReserved_eq_false_iff.mp hk
    simp [htarget.symm, hlast.symm]

end RouteData

/-- What the strict visitor takes: an object without repeated members, whose target is a string and
whose instant is in canonical form. -/
def StrictRecord (chrono : Chrono) (document : Value) (data : RouteData) : Prop :=
  ∃ members, document = .object members ∧ (members.map Prod.fst).Nodup ∧
    ("target", .string data.target) ∈ members ∧
    ("last_activity", .string (chrono.toRfc3339 data.lastActivity)) ∈ members ∧
    NineDigitZ (chrono.toRfc3339 data.lastActivity)

theorem Value.normalize_eq_string {v : Value} {s : String} (h : v.normalize = .string s) :
    v = .string s := by
  cases v with
  | string t => exact h
  | null | bool | number | array | object => cases h

theorem mem_of_mem_readMembers {members : List (String × Value)} {k s : String}
    (h : (k, .string s) ∈ members.map fun p => (p.1, p.2.normalize)) : (k, .string s) ∈ members := by
  obtain ⟨⟨k', v⟩, hmem, heq⟩ := List.mem_map.mp h
  obtain ⟨rfl, hv⟩ := Prod.mk.inj heq
  rwa [← Value.normalize_eq_string hv]

namespace SidecarStore

variable {store : SidecarStore} {json : Json} {chrono : Chrono}

theorem parseTimestamp_eq_some {raw : String} {t : DateTime}
    (h : store.parseTimestamp raw = some t) : raw = store.codec.toRfc3339 t := by
  obtain ⟨parsed, -, h⟩ := Option.bind_eq_some_iff.mp h
  split_ifs at h with hraw
  rw [← Option.some.inj h]
  exact hraw.symm

theorem parseTimestamp_toRfc3339 (hcodec : store.codec = json.codec chrono) {t : DateTime}
    (ht : t.InFourDigitYears) : store.parseTimestamp (chrono.toRfc3339 t) = some t := by
  unfold parseTimestamp chpTimestamp
  rw [hcodec]
  change (chrono.parseFromRfc3339 (chrono.toRfc3339 t)).bind _ = _
  rw [chrono.parseFromRfc3339_toRfc3339 t ht, Option.bind_some]
  exact if_pos rfl

theorem decodeRoute_eq (hcodec : store.codec = json.codec chrono) (body : List UInt8) :
    store.decodeRoute body = (json.fromSlice body).bind (visitRecord store.parseTimestamp) := by
  unfold decodeRoute
  rw [hcodec]
  exact Option.bind_assoc _ _ _

theorem strictRecord_of_visitRecord (hcodec : store.codec = json.codec chrono) {document : Value}
    {data : RouteData} (h : visitRecord store.parseTimestamp document = some data) :
    StrictRecord chrono document data := by
  obtain ⟨members', hread, hvisit⟩ := Option.bind_eq_some_iff.mp h
  cases document with
  | object members =>
    obtain rfl := Option.some.inj hread
    obtain ⟨hnodup, -⟩ := RouteData.visitMap_nodup hvisit
    rw [List.map_map] at hnodup
    have htarget := (RouteData.visitMap_target hvisit).resolve_left (Option.some_ne_none _).symm
    obtain ⟨raw, hraw, hparse⟩ :=
      (RouteData.visitMap_lastActivity hvisit).resolve_left (Option.some_ne_none _).symm
    have hcanonical : raw = chrono.toRfc3339 data.lastActivity := by
      rw [parseTimestamp_eq_some hparse, hcodec]
      rfl
    rw [hcanonical] at hraw
    exact ⟨members, rfl, hnodup, mem_of_mem_readMembers htarget, mem_of_mem_readMembers hraw,
      chrono.nineDigitZ_toRfc3339 _⟩
  | null | bool | number | string | array => cases hread

theorem encodeRoute_eq_ok {data : RouteData} (h : data.Storable) (operation : String) :
    store.encodeRoute operation data =
      .ok (.object (data.record (store.codec.toRfc3339 data.lastActivity)).toList) := by
  unfold encodeRoute
  rw [Std.ExtTreeMap.contains_eq_isSome_getElem?, Std.ExtTreeMap.contains_eq_isSome_getElem?,
    h.reserved "target" rfl, h.reserved "last_activity" rfl]
  rfl

theorem visitRecord_record (hcodec : store.codec = json.codec chrono) {data : RouteData}
    (h : data.Storable) :
    visitRecord store.parseTimestamp
      (.object (data.record (chrono.toRfc3339 data.lastActivity)).toList) = some data := by
  unfold visitRecord
  rw [RouteData.readMembers_record h, Option.bind_some]
  exact RouteData.visitMap_record h true (parseTimestamp_toRfc3339 hcodec h.years)

theorem encodeRoute_eq_error_iff {operation : String} {data : RouteData} :
    (∃ e, store.encodeRoute operation data = .error e) ↔
      ∃ k ∈ data.extra, RouteData.isReserved k = true := by
  have hreserved : (∃ k ∈ data.extra, RouteData.isReserved k = true) ↔
      (data.extra.contains "target" || data.extra.contains "last_activity") = true := by
    simp [RouteData.isReserved, and_or_left, exists_or]
  rw [hreserved]
  unfold encodeRoute
  split_ifs with h
  · exact iff_of_true ⟨_, rfl⟩ h
  · refine iff_of_false (fun herror => ?_) h
    obtain ⟨e, he⟩ := herror
    cases he

end SidecarStore

namespace RedisStore

theorem encode_eq_print (json : Json) (chrono : Chrono) {data : RouteData} (h : data.Storable)
    (operation : String) : encode (json.codec chrono) operation data =
      .ok (json.print (.object (data.record (chrono.toRfc3339 data.lastActivity)).toList)) := by
  unfold encode
  rw [RouteData.toObject_eq_record h]
  rfl

theorem decode_print (json : Json) (chrono : Chrono) {data : RouteData} (h : data.Storable)
    (hdepth : data.depth ≤ recursionLimit) (operation key : String) :
    decode (json.codec chrono) operation key
      (json.print (.object (data.record (chrono.toRfc3339 data.lastActivity)).toList)) =
      .ok data := by
  have hslice : (json.codec chrono).fromSlice
      (json.print (.object (data.record (chrono.toRfc3339 data.lastActivity)).toList)) =
      some (data.record (chrono.toRfc3339 data.lastActivity)).toList := by
    change (json.fromSlice _).bind readMembers = _
    rw [json.fromSlice_print (RouteData.integral_record h _), RouteData.depth_record h,
      if_pos hdepth, Option.bind_some, RouteData.readMembers_record h]
  have hvisit := RouteData.visitMap_record h false (chrono.parseDateTime_toRfc3339 _ h.years)
  unfold decode
  rw [hslice, Option.bind_some]
  change (RouteData.visitMap chrono.parseDateTime false _ none none ∅).elim _ _ = _
  rw [hvisit]
  rfl

end RedisStore

/-- The backends encode a record as the same object and read it back at full precision. The sidecar
refuses to encode exactly the records with reserved names among their metadata, and it takes no
document with repeated names or with reserved members in another form than its own. -/
theorem record_codecs_agree (json : Json) (chrono : Chrono) (store : SidecarStore)
    (hcodec : store.codec = json.codec chrono) :
    (∀ data : RouteData, data.Storable → data.depth ≤ recursionLimit →
      ∀ operation operation' key, ∃ object,
        RedisStore.encode store.codec operation data = .ok (json.print (.object object)) ∧
        RedisStore.decode store.codec operation' key (json.print (.object object)) = .ok data ∧
        store.encodeRoute operation data = .ok (.object object) ∧
        store.decodeRoute (json.print (.object object)) = some data) ∧
    (∀ data : RouteData, RedisStore.toObject store.codec data =
      (data.toValue chrono).insert "last_activity" (.string (chrono.toRfc3339 data.lastActivity))) ∧
    (∀ operation (data : RouteData), (∃ e, store.encodeRoute operation data = .error e) ↔
      ∃ k ∈ data.extra, RouteData.isReserved k = true) ∧
    (∀ body data, store.decodeRoute body = some data →
      ∃ document, json.fromSlice body = some document ∧ StrictRecord chrono document data) ∧
    ∀ body routes, SidecarStore.decodeSnapshot json store body = .ok routes →
      ∃ members, json.fromSlice body = some (.object members) ∧ (members.map Prod.fst).Nodup ∧
        ∀ p ∈ members, ∃ key : RouteKey, ∃ data, key.asStr = p.1 ∧ routes[key]? = some data ∧
          StrictRecord chrono p.2 data := by
  refine ⟨fun data hdata hdepth operation operation' key => ?_, fun data => ?_,
    fun operation data => SidecarStore.encodeRoute_eq_error_iff, fun body data h => ?_,
    fun body routes h => ?_⟩
  · have hvisit := SidecarStore.visitRecord_record hcodec hdata
    refine ⟨(data.record (chrono.toRfc3339 data.lastActivity)).toList, ?_, ?_, ?_, ?_⟩
    · rw [hcodec]
      exact RedisStore.encode_eq_print json chrono hdata operation
    · rw [hcodec]
      exact RedisStore.decode_print json chrono hdata hdepth operation' key
    · rw [SidecarStore.encodeRoute_eq_ok hdata, hcodec]
      rfl
    · rw [SidecarStore.decodeRoute_eq hcodec, json.fromSlice_print (RouteData.integral_record hdata _),
        RouteData.depth_record hdata, if_pos hdepth, Option.bind_some, hvisit]
  · rw [hcodec]
    exact RouteData.toObject_eq_insert_toValue _ chrono data
  · rw [SidecarStore.decodeRoute_eq hcodec] at h
    obtain ⟨document, hslice, hvisit⟩ := Option.bind_eq_some_iff.mp h
    exact ⟨document, hslice, SidecarStore.strictRecord_of_visitRecord hcodec hvisit⟩
  · obtain ⟨members, hslice, hvisit⟩ := SidecarStore.decodeSnapshot_eq_ok h
    have hnodup := (SidecarStore.nodup_of_visitSnapshot hvisit).1
    have hloaded := (SidecarStore.loads_visitSnapshot hvisit).loaded hnodup
    refine ⟨members, hslice, hnodup, fun p hp => ?_⟩
    obtain ⟨key, data, hkey, hread, hroute⟩ := hloaded.kept p hp
    exact ⟨key, data, hkey, hroute, SidecarStore.strictRecord_of_visitRecord hcodec hread⟩

/-- A sidecar behind the compact texts and the timestamps of RFC 3339. -/
def plainSidecar : SidecarStore := ⟨.ascii, Json.text.codec .rfc3339, some, 1⟩

/-- A route with nested metadata, at an instant that milliseconds cannot hold. -/
def nestedRoute : RouteData :=
  ⟨"http://127.0.0.1:9001", 1000000001, (∅ : Map).insert "m" (.array [.number (.posInt 1), .object []])⟩

theorem storable_nestedRoute : nestedRoute.Storable where
  reserved k hk := by
    have hne : "m" ≠ k := by
      rintro rfl
      cases hk
    unfold nestedRoute
    rw [TreeMap.getElem?_insert_eq, if_neg hne, Std.ExtTreeMap.getElem?_empty]
  normal := by decide
  integral := by decide
  years := by decide

theorem record_codecs_agree_nestedRoute :
    (∃ object,
      RedisStore.encode plainSidecar.codec "add" nestedRoute =
        .ok (Json.text.print (.object object)) ∧
      RedisStore.decode plainSidecar.codec "snapshot" "/" (Json.text.print (.object object)) =
        .ok nestedRoute ∧
      plainSidecar.encodeRoute "add" nestedRoute = .ok (.object object) ∧
      plainSidecar.decodeRoute (Json.text.print (.object object)) = some nestedRoute) :=
  (record_codecs_agree .text .rfc3339 plainSidecar rfl).1 nestedRoute storable_nestedRoute
    (by decide) "add" "snapshot" "/"

end ChpProxy
