import ChpProxy.Lib.Result
import ChpProxy.Store.Redis.Client

/-! Records as texts of the route hash. -/
namespace ChpProxy.RedisStore

variable {codec : Codec}

theorem encode_eq_error {operation : String} {data : RouteData} {e : StoreError}
    (h : encode codec operation data = .error e) : e.isOrdinary = true := by
  rw [Result.elim_eq_error h]
  rfl

theorem decode_eq_error {operation key : String} {encoded : List UInt8} {e : StoreError}
    (h : decode codec operation key encoded = .error e) : e.isOrdinary = true := by
  rw [Result.elim_eq_error h]
  rfl

theorem encode_eq_ok {operation : String} {data : RouteData} {encoded : List UInt8}
    (h : encode codec operation data = .ok encoded) :
    codec.toVec (toObject codec data).toList = some encoded :=
  Result.elim_eq_ok h

theorem decode_eq_ok {operation key : String} {encoded : List UInt8} {data : RouteData}
    (h : decode codec operation key encoded = .ok data) :
    ∃ members, codec.fromSlice encoded = some members ∧
      RouteData.visitMap codec.parseDateTime false members none none ∅ = some data :=
  Option.bind_eq_some_iff.mp (Result.elim_eq_ok h)

/-- A record that was read has no reserved names among its metadata. -/
theorem decode_extra_reserved {operation key : String} {encoded : List UInt8} {data : RouteData}
    (h : decode codec operation key encoded = .ok data) {k : String}
    (hk : RouteData.isReserved k = true) : data.extra[k]? = none := by
  obtain ⟨members, -, hvisit⟩ := decode_eq_ok h
  rw [RouteData.visitMap_extra_of_not_mem (.inl hk) hvisit]
  exact Std.ExtTreeMap.getElem?_empty

/-- Writing a record without reserved names and reading it back keeps its target and its
metadata. -/
theorem payload_of_readsBack {operation operation' key : String} {data written : RouteData}
    {encoded : List UInt8}
    (hencode : encode codec operation data = .ok encoded)
    (hback : codec.ReadsBack (toObject codec data).toList)
    (hdecode : decode codec operation' key encoded = .ok written)
    (hextra : ∀ k, RouteData.isReserved k = true → data.extra[k]? = none) :
    written.payload = data.payload := by
  obtain ⟨members, hslice, hvisit⟩ := decode_eq_ok hdecode
  obtain rfl : (toObject codec data).toList = members :=
    Option.some.inj ((hback encoded (encode_eq_ok hencode)).symm.trans hslice)
  have hfree : "target" ∉ data.extra := by
    rw [Std.ExtTreeMap.mem_iff_isSome_getElem?, hextra "target" rfl]
    exact Bool.false_ne_true
  have htarget : (toObject codec data)["target"]? = some (.string data.target) := by
    unfold toObject
    rw [Std.ExtTreeMap.getElem?_insert, if_neg (by decide), Std.ExtTreeMap.getElem?_insertIfNew,
      if_pos ⟨Std.ReflCmp.compare_self, hfree⟩]
  have hother : ∀ k, RouteData.isReserved k = false →
      (toObject codec data)[k]? = data.extra[k]? := by
    intro k hk
    have hne : "target" ≠ k ∧ "last_activity" ≠ k := by
      constructor
      · rintro rfl
        exact nomatch hk
      · rintro rfl
        exact nomatch hk
    simp [toObject, Std.ExtTreeMap.getElem?_insert, Std.ExtTreeMap.getElem?_insertIfNew, hne]
  have hnodup : ((toObject codec data).toList.map Prod.fst).Nodup := by
    rw [Std.ExtTreeMap.map_fst_toList_eq_keys]
    exact Std.ExtTreeMap.nodup_keys
  have hsame : written.target = data.target := by
    rcases RouteData.visitMap_target hvisit with hnone | hmem
    · exact nomatch hnone
    · have hfound := Std.ExtTreeMap.mem_toList_iff_getElem?_eq_some.mp hmem
      exact Value.string.inj (Option.some.inj (hfound.symm.trans htarget))
  have hmeta : written.extra = data.extra := by
    refine Std.ExtTreeMap.ext_getElem? fun k => ?_
    cases hk : RouteData.isReserved k with
    | true =>
      rw [hextra k hk, RouteData.visitMap_extra_of_not_mem (.inl hk) hvisit]
      exact Std.ExtTreeMap.getElem?_empty
    | false =>
      cases hv : data.extra[k]? with
      | some v =>
        have hmem : (k, v) ∈ (toObject codec data).toList := by
          rw [Std.ExtTreeMap.mem_toList_iff_getElem?_eq_some, hother k hk, hv]
        exact RouteData.visitMap_extra_of_mem hk hnodup hmem hvisit
      | none =>
        have hnot : k ∉ (toObject codec data).toList.map Prod.fst := by
          rw [Std.ExtTreeMap.map_fst_toList_eq_keys, Std.ExtTreeMap.mem_keys,
            Std.ExtTreeMap.mem_iff_isSome_getElem?, hother k hk, hv]
          exact Bool.false_ne_true
        rw [RouteData.visitMap_extra_of_not_mem (.inr hnot) hvisit]
        exact Std.ExtTreeMap.getElem?_empty
  unfold RouteData.payload
  rw [hsame, hmeta]

end ChpProxy.RedisStore
