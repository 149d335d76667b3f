import ChpProxy.Api.Router
import ChpProxy.Store.Records

/-! From an accepted request to the next start: the records that the handlers hand to the registry,
and whether the stores load them again. -/
namespace ChpProxy.Api

open Interaction

section Handlers

variable {libraries : Libraries} {state : ApiState} {request : ApiRequest} {key : RouteKey}

theorem mayCall_pure {r : Request} {α : Type} (a : α) :
    (pure a : Handler α).MayCall (.mutate r) ↔ False := Iff.rfl

theorem mayCall_registryUnavailable {r : Request} {α : Type} (next : Bool → Handler α) :
    (registryUnavailable >>= next).MayCall (.mutate r) ↔
      (next false).MayCall (.mutate r) ∨ (next true).MayCall (.mutate r) := by
  refine ⟨?_, ?_⟩
  · rintro (h | ⟨reply, h⟩)
    · cases h
    · cases reply with
      | false => exact .inl h
      | true => exact .inr h
  · rintro (h | h)
    · exact .inr ⟨false, h⟩
    · exact .inr ⟨true, h⟩

theorem mayCall_mutate {r r' : Request} {α : Type} (next : MutationResult → Handler α) :
    (mutate r' >>= next).MayCall (.mutate r) ↔
      r' = r ∨ ∃ result, (next result).MayCall (.mutate r) :=
  or_congr_left ⟨RegistryOp.mutate.inj, congrArg _⟩

theorem mayCall_mutationFailure {r : Request} (error : StoreError) :
    (mutationFailure error).MayCall (.mutate r) ↔ False := by
  unfold mutationFailure
  split_ifs
  · rfl
  · rw [mayCall_registryUnavailable]
    exact or_self_iff

theorem target_of_stringValue {member : Option Value} {target : String} :
    member.bind stringValue = some target ↔ member = some (.string target) := by
  refine ⟨fun h => ?_, fun h => by rw [h]; rfl⟩
  obtain ⟨v, rfl, hv⟩ := Option.bind_eq_some_iff.mp h
  cases v with
  | string s => rw [← Option.some.inj hv]
  | null | bool | number | array | object => cases hv

theorem mayCall_postRoute_iff {key' : RouteKey} {target : String} {extra : Map} :
    (postRoute libraries state request key).MayCall (.mutate (.add key' target extra)) ↔
      ∃ body value, toBytes request.body maxJsonBodyBytes = some body ∧
        libraries.fromSlice body = .ok value ∧ authorized state request.headers = true ∧
        (objectMembers value)["target"]? = some (.string target) ∧ key = key' ∧
        ((objectMembers value).erase "target").erase "last_activity" = extra := by
  unfold postRoute
  constructor
  · intro h
    split at h
    · cases h
    · next body hbody =>
      split at h
      · cases h
      · next value hvalue =>
        split_ifs at h with hauth
        · cases h
        · rw [mayCall_registryUnavailable, if_neg Bool.false_ne_true, if_pos rfl, mayCall_pure,
            or_false] at h
          dsimp only at h
          split at h
          · cases h
          · next target' htarget =>
            rw [mayCall_mutate] at h
            rcases h with h | ⟨result, h⟩
            · obtain ⟨rfl, rfl, rfl⟩ := Request.add.inj h
              exact ⟨body, value, hbody, hvalue, by simpa using hauth,
                target_of_stringValue.mp htarget, rfl, rfl⟩
            · split at h
              · exact ((mayCall_mutationFailure _).mp h).elim
              · cases h
  · rintro ⟨body, value, hbody, hvalue, hauth, htarget, rfl, rfl⟩
    simp only [hbody, hvalue, hauth, Bool.not_true, Bool.false_eq_true, if_false,
      mayCall_registryUnavailable, target_of_stringValue.mpr htarget, mayCall_mutate, true_or]

end Handlers

def Reads (libraries : Libraries) (json : Json) : Prop :=
  ∀ bytes, (libraries.fromSlice bytes).toOption = (json.fromSlice bytes).map Value.normalize

/-- A record that `post_route` hands to the registry for some request, stamped with an instant. The
numbers of the body are integers. -/
structure Accepted (libraries : Libraries) (json : Json) (key : RouteKey) (data : RouteData) :
    Prop where
  posted : ∃ state request document, json.fromSlice request.body.bytes = some document ∧
    document.integral = true ∧
    (postRoute libraries state request key).MayCall (.mutate (.add key data.target data.extra))
  years : data.lastActivity.InFourDigitYears

theorem toBytes_eq_some {body : RequestBody} {limit : ℕ} {bytes : List UInt8}
    (h : toBytes body limit = some bytes) : bytes = body.bytes := by
  unfold toBytes at h
  split_ifs at h
  exact (Option.some.inj h).symm

theorem getElem?_erase_reserved (object : Map) (k : String) :
    ((object.erase "target").erase "last_activity")[k]? =
      if RouteData.isReserved k = true then none else object[k]? := by
  have hcmp : ∀ a b : String, compare a b = .eq ↔ a = b := fun a b =>
    Std.LawfulEqCmp.compare_eq_iff_eq
  simp only [Std.ExtTreeMap.getElem?_erase, hcmp, RouteData.isReserved, Bool.or_eq_true,
    decide_eq_true_eq]
  by_cases hlast : "last_activity" = k
  · simp [hlast]
  · by_cases htarget : "target" = k
    · simp [htarget]
    · simp [hlast, htarget, Ne.symm hlast, Ne.symm htarget]

theorem Accepted.exists_members {libraries : Libraries} {json : Json} {key : RouteKey}
    {data : RouteData} (h : Accepted libraries json key data) (hreads : Reads libraries json) :
    ∃ members, (Value.object members).depth ≤ recursionLimit ∧
      (Value.object members).integral = true ∧
      (∀ k, RouteData.isReserved k = true → data.extra[k]? = none) ∧
      ∀ p ∈ data.extra.toList, ∃ q ∈ members, p = (q.1, q.2.normalize) := by
  obtain ⟨state, request, document, hslice, hintegral, hcall⟩ := h.posted
  obtain ⟨body, value, hbody, hvalue, -, htarget, -, hextra⟩ := mayCall_postRoute_iff.mp hcall
  have hdocument : value = document.normalize := by
    have hread := hreads body
    rw [hvalue, toBytes_eq_some hbody, hslice] at hread
    exact Option.some.inj hread
  have hdepth : document.depth ≤ recursionLimit := by
    unfold Json.fromSlice at hslice
    exact of_decide_eq_true (Option.filter_eq_some_iff.mp hslice).2
  subst hdocument
  cases document with
  | object members =>
    have hobject : objectMembers (Value.object members).normalize =
        .ofList (Value.normalizeMembers members) := TreeMap.ofList_toList _
    rw [hobject] at hextra
    refine ⟨members, hdepth, hintegral, fun k hk => ?_, fun p hp => ?_⟩
    · rw [← hextra, getElem?_erase_reserved, if_pos hk]
    · obtain ⟨k, v⟩ := p
      rw [Std.ExtTreeMap.mem_toList_iff_getElem?_eq_some, ← hextra, getElem?_erase_reserved] at hp
      split_ifs at hp
      exact Value.exists_of_mem_normalize (Std.ExtTreeMap.mem_toList_iff_getElem?_eq_some.mpr hp)
  | null | bool | number | string | array =>
    change (∅ : Map)["target"]? = _ at htarget
    rw [Std.ExtTreeMap.getElem?_empty] at htarget
    cases htarget

theorem Accepted.storable {libraries : Libraries} {json : Json} {key : RouteKey}
    {data : RouteData} (h : Accepted libraries json key data) (hreads : Reads libraries json) :
    data.Storable ∧ data.depth ≤ recursionLimit := by
  obtain ⟨members, hdepth, hintegral, hreserved, hextra⟩ := h.exists_members hreads
  refine ⟨⟨hreserved, fun p hp => ?_, fun p hp => ?_, h.years⟩, le_trans ?_ hdepth⟩
  · obtain ⟨q, -, rfl⟩ := hextra p hp
    exact Value.normalize_normalize q.2
  · obtain ⟨q, hq, rfl⟩ := hextra p hp
    exact Value.integral_normalize (Value.integralMembers_iff.mp hintegral q hq)
  · refine Nat.succ_le_succ (Value.depthMembers_le_iff.mpr fun p hp => ?_)
    obtain ⟨q, hq, rfl⟩ := hextra p hp
    exact (Value.depth_normalize_le q.2).trans (Value.depthMembers_le_iff.mp le_rfl q hq)

/-! The snapshot of the sidecar wraps every record in one more object. -/

/-- The members of a snapshot are the records as they were written. -/
def Persists (store : SidecarStore) (entries : List (RouteKey × RouteData))
    (members : List (String × Value)) : Prop :=
  List.Forall₂ (fun p q => q.1 = p.1.asStr ∧ store.encodeRoute "add" p.2 = .ok q.2) entries members

section Snapshot

variable {json : Json} {chrono : Chrono} {store : SidecarStore}
  {entries : List (RouteKey × RouteData)} {members : List (String × Value)}

def member (chrono : Chrono) (p : RouteKey × RouteData) : String × Value :=
  (p.1.asStr, .object (p.2.record (chrono.toRfc3339 p.2.lastActivity)).toList)

theorem persists_iff (hcodec : store.codec = json.codec chrono)
    (hstorable : ∀ p ∈ entries, p.2.Storable) :
    Persists store entries members ↔ members = entries.map (member chrono) := by
  have hencode : ∀ p ∈ entries, store.encodeRoute "add" p.2 = .ok (member chrono p).2 := by
    intro p hp
    rw [SidecarStore.encodeRoute_eq_ok (hstorable p hp), hcodec]
    rfl
  constructor
  · intro h
    induction h with
    | nil => rfl
    | @cons p q entries members hpq _ ih =>
      have hq : q = member chrono p := by
        refine Prod.ext hpq.1 (Except.ok.inj (hpq.2.symm.trans ?_))
        exact hencode p List.mem_cons_self
      rw [List.map_cons, hq, ih (fun p hp => hstorable p (List.mem_cons_of_mem _ hp))
        fun p hp => hencode p (List.mem_cons_of_mem _ hp)]
  · rintro rfl
    refine List.forall₂_map_right_iff.mpr (List.forall₂_same.mpr fun p hp => ?_)
    exact ⟨rfl, hencode p hp⟩

theorem visitSnapshot_members (hcodec : store.codec = json.codec chrono)
    (hstorable : ∀ p ∈ entries, p.2.Storable) (hnodup : (entries.map Prod.fst).Nodup)
    {before : RouteMap} (hfresh : ∀ p ∈ entries, before[p.1]? = none) :
    SidecarStore.visitSnapshot store.parseTimestamp (entries.map (member chrono)) before =
      some (entries.foldl (fun routes p => routes.insert p.1 p.2) before) := by
  induction entries generalizing before with
  | nil => rfl
  | cons p entries ih =>
    obtain ⟨hp, hnodup⟩ := List.nodup_cons.mp hnodup
    have hread := SidecarStore.visitRecord_record hcodec (hstorable p List.mem_cons_self)
    have hfresh' : ∀ q ∈ entries, (before.insert p.1 p.2)[q.1]? = none := by
      intro q hq
      have hne : p.1 ≠ q.1 := fun h => hp (h ▸ List.mem_map_of_mem hq)
      rw [TreeMap.getElem?_insert_eq, if_neg hne, hfresh q (List.mem_cons_of_mem _ hq)]
    rw [List.map_cons, List.foldl_cons,
      ← ih (fun q hq => hstorable q (List.mem_cons_of_mem _ hq)) hnodup hfresh']
    exact SidecarStore.visitSnapshot_insert hread (hfresh p List.mem_cons_self)

theorem depth_members_le_iff (chrono : Chrono) (hstorable : ∀ p ∈ entries, p.2.Storable) :
    (Value.object (entries.map (member chrono))).depth ≤ recursionLimit ↔
      ∀ p ∈ entries, p.2.depth < recursionLimit := by
  change Value.depthMembers _ + 1 ≤ 126 + 1 ↔ _
  rw [Nat.add_le_add_iff_right, Value.depthMembers_le_iff, List.forall_mem_map]
  refine forall₂_congr fun p hp => ?_
  change (Value.object _).depth ≤ 126 ↔ _
  rw [RouteData.depth_record (hstorable p hp)]
  exact Nat.lt_succ_iff.symm

theorem decodeSnapshot_members (hcodec : store.codec = json.codec chrono)
    (hstorable : ∀ p ∈ entries, p.2.Storable) (hnodup : (entries.map Prod.fst).Nodup) :
    SidecarStore.decodeSnapshot json store (json.print (.object (entries.map (member chrono)))) =
      if (Value.object (entries.map (member chrono))).depth ≤ recursionLimit then
        .ok (.ofList entries)
      else .error (.corruptData "snapshot" "<response>") := by
  have hintegral : (Value.object (entries.map (member chrono))).integral = true := by
    refine Value.integralMembers_iff.mpr (List.forall_mem_map.mpr fun p hp => ?_)
    exact RouteData.integral_record (hstorable p hp) _
  have hempty : ∀ p ∈ entries, (∅ : RouteMap)[p.1]? = none := fun p _ =>
    Std.ExtTreeMap.getElem?_empty
  unfold SidecarStore.decodeSnapshot
  rw [json.fromSlice_print hintegral]
  split_ifs with hdepth
  · dsimp only
    rw [visitSnapshot_members hcodec hstorable hnodup hempty, ← Std.ExtTreeMap.ofList_eq_foldl]
    rfl
  · rfl

end Snapshot

/-- The records survive a restart, over Redis and over a sidecar. -/
structure Loadable (json : Json) (store : SidecarStore) (entries : List (RouteKey × RouteData)) :
    Prop where
  encodes : ∀ p ∈ entries, ∃ value, store.encodeRoute "add" p.2 = .ok value
  redis : ∀ p ∈ entries, ∃ encoded, RedisStore.encode store.codec "add" p.2 = .ok encoded ∧
    RedisStore.decode store.codec "snapshot" p.1.asStr encoded = .ok p.2
  snapshot : ∀ members, Persists store entries members →
    SidecarStore.decodeSnapshot json store (json.print (.object members)) = .ok (.ofList entries)

/-- Accepted records are written by both stores and read back by Redis. A sidecar's snapshot nests
them one level deeper than the request did, so it loads only if none of them is at the limit. -/
theorem accepted_records_load_iff (json : Json) (chrono : Chrono) (store : SidecarStore)
    (libraries : Libraries) (entries : List (RouteKey × RouteData))
    (hcodec : store.codec = json.codec chrono) (hreads : Reads libraries json)
    (hnodup : (entries.map Prod.fst).Nodup)
    (haccepted : ∀ p ∈ entries, Accepted libraries json p.1 p.2) :
    Loadable json store entries ↔ ∀ p ∈ entries, p.2.depth < recursionLimit := by
  have hstorable : ∀ p ∈ entries, p.2.Storable := fun p hp => ((haccepted p hp).storable hreads).1
  have hdepth : ∀ p ∈ entries, p.2.depth ≤ recursionLimit := fun p hp =>
    ((haccepted p hp).storable hreads).2
  have hsnapshot := decodeSnapshot_members hcodec hstorable hnodup
  rw [← depth_members_le_iff chrono hstorable]
  constructor
  · intro h
    have hloaded := h.snapshot _ ((persists_iff hcodec hstorable).mpr rfl)
    by_contra hdeep
    rw [hsnapshot, if_neg hdeep] at hloaded
    cases hloaded
  · intro hshallow
    refine ⟨fun p hp => ⟨_, SidecarStore.encodeRoute_eq_ok (hstorable p hp) "add"⟩, fun p hp => ?_,
      fun members hmembers => ?_⟩
    · rw [hcodec]
      exact ⟨_, RedisStore.encode_eq_print json chrono (hstorable p hp) "add",
        RedisStore.decode_print json chrono (hstorable p hp) (hdepth p hp) _ _⟩
    · rw [(persists_iff hcodec hstorable).mp hmembers, hsnapshot, if_pos hshallow]

/-! Requests with one metadata member. -/

def textLibraries : Libraries :=
  { plain with
    fromSlice := fun bytes => (Json.text.fromSlice bytes).elim (.error ⟨true, ""⟩) (.ok ·.normalize) }

theorem reads_textLibraries : Reads textLibraries .text := by
  intro bytes
  change Except.toOption ((Json.text.fromSlice bytes).elim _ _) = _
  cases Json.text.fromSlice bytes with
  | none => rfl
  | some document => rfl

def postedDocument (v : Value) : Value :=
  .object [("target", .string "http://127.0.0.1:9001"), ("m", v)]

def posting (v : Value) : ApiRequest :=
  ⟨.post, "/api/routes/a", none, .empty, ⟨Json.text.print (postedDocument v), false⟩⟩

def postedRoute (v : Value) : RouteData :=
  ⟨"http://127.0.0.1:9001", 0, (∅ : Map).insert "m" v⟩

theorem integral_postedDocument {v : Value} (h : v.integral = true) :
    (postedDocument v).integral = true := by
  simp [postedDocument, Value.integral, Value.integralMembers, h]

theorem depth_postedDocument (v : Value) : (postedDocument v).depth = v.depth + 1 := by
  simp [postedDocument, Value.depth, Value.depthMembers]

theorem objectMembers_postedDocument {v : Value} (h : v.normalize = v) :
    objectMembers (postedDocument v).normalize =
      ((∅ : Map).insert "target" (.string "http://127.0.0.1:9001")).insert "m" v := by
  have hmembers : objectMembers (postedDocument v).normalize = .ofList
      [("target", .string "http://127.0.0.1:9001"), ("m", v.normalize)] := TreeMap.ofList_toList _
  rw [hmembers, h, Std.ExtTreeMap.ofList_eq_foldl]
  rfl

theorem accepted_postedRoute {v : Value} (hnormal : v.normalize = v) (hintegral : v.integral = true)
    (hdepth : v.depth < recursionLimit)
    (hsize : (Json.text.print (postedDocument v)).length ≤ maxJsonBodyBytes) (key : RouteKey) :
    Accepted textLibraries .text key (postedRoute v) := by
  have hslice : Json.text.fromSlice (Json.text.print (postedDocument v)) =
      some (postedDocument v) := by
    rw [Json.text.fromSlice_print (integral_postedDocument hintegral), depth_postedDocument]
    exact if_pos hdepth
  have hvalue : textLibraries.fromSlice (Json.text.print (postedDocument v)) =
      .ok (postedDocument v).normalize := by
    change (Json.text.fromSlice _).elim _ _ = _
    rw [hslice]
    rfl
  have hobject := objectMembers_postedDocument hnormal
  have hyears : (0 : DateTime).InFourDigitYears := by decide
  have hbytes : toBytes (posting v).body maxJsonBodyBytes =
      some (Json.text.print (postedDocument v)) := by
    refine if_neg ?_
    rw [Bool.not_eq_true, Bool.or_eq_false_iff]
    exact ⟨rfl, decide_eq_false (not_lt.mpr hsize)⟩
  refine ⟨⟨.new none, posting v, postedDocument v, hslice, integral_postedDocument hintegral,
    mayCall_postRoute_iff.mpr ⟨_, _, hbytes, hvalue, rfl, ?_, rfl, ?_⟩⟩, hyears⟩
  · rw [hobject, TreeMap.getElem?_insert_eq, if_neg (by decide), TreeMap.getElem?_insert_eq,
      if_pos rfl]
    rfl
  · refine Std.ExtTreeMap.ext_getElem? fun k => ?_
    rw [hobject, getElem?_erase_reserved, TreeMap.getElem?_insert_eq, TreeMap.getElem?_insert_eq,
      postedRoute, TreeMap.getElem?_insert_eq]
    by_cases hm : "m" = k
    · subst hm
      rfl
    · by_cases htarget : "target" = k
      · subst htarget
        simp [RouteData.isReserved]
      · simp [hm, htarget]

theorem depth_postedRoute (v : Value) : (postedRoute v).depth = v.depth + 1 := by
  have hmem : ∀ p, p ∈ (postedRoute v).extra.toList ↔ p = ("m", v) := by
    rintro ⟨k, w⟩
    rw [Std.ExtTreeMap.mem_toList_iff_getElem?_eq_some, postedRoute, TreeMap.getElem?_insert_eq]
    by_cases hk : "m" = k
    · simp [hk, eq_comm]
    · simp [hk, Ne.symm hk]
  refine congrArg (· + 1) (le_antisymm (Value.depthMembers_le_iff.mpr fun p hp => ?_) ?_)
  · rw [(hmem p).mp hp]
  · exact Value.depthMembers_le_iff.mp le_rfl _ ((hmem _).mpr rfl)

def nestedArrays : ℕ → Value
  | 0 => .array []
  | n + 1 => .array [nestedArrays n]

theorem nestedArrays_facts (n : ℕ) : (nestedArrays n).normalize = nestedArrays n ∧
    (nestedArrays n).integral = true ∧ (nestedArrays n).depth = n + 1 := by
  induction n with
  | zero => exact ⟨rfl, rfl, rfl⟩
  | succ n ih =>
    obtain ⟨hnormal, hintegral, hdepth⟩ := ih
    refine ⟨?_, ?_, ?_⟩
    · simp [nestedArrays, Value.normalize, Value.normalizeItems, hnormal]
    · simp [nestedArrays, Value.integral, Value.integralItems, hintegral]
    · simp [nestedArrays, Value.depth, Value.depthItems, hdepth]

/-- Of two records, one nests as deep as it may. -/
def boundary : List (RouteKey × RouteData) :=
  [(.parse "/a", postedRoute (.array [])), (.parse "/b", postedRoute (nestedArrays 124))]

theorem accepted_records_load_iff_boundary : Loadable .text plainSidecar boundary := by
  obtain ⟨hnormal, hintegral, hdepth⟩ := nestedArrays_facts 124
  refine (accepted_records_load_iff .text .rfc3339 plainSidecar textLibraries boundary rfl
    reads_textLibraries (by decide) ?_).mpr ?_
  · refine List.forall_mem_cons.mpr ⟨?_, List.forall_mem_singleton.mpr ?_⟩
    · exact accepted_postedRoute rfl rfl (by decide) (by decide) _
    · refine accepted_postedRoute hnormal hintegral ?_ (by decide +kernel) _
      rw [hdepth]
      decide
  · refine List.forall_mem_cons.mpr ⟨?_, List.forall_mem_singleton.mpr ?_⟩
    · rw [depth_postedRoute]
      decide
    · rw [depth_postedRoute, hdepth]
      decide

theorem decodeSnapshot_postedRoute {v : Value} (hstorable : (postedRoute v).Storable)
    (hdeep : recursionLimit ≤ v.depth + 1) :
    SidecarStore.decodeSnapshot .text plainSidecar (Json.text.print (.object [("/a", .object
      ((postedRoute v).record (Chrono.rfc3339.toRfc3339 0)).toList)])) =
      .error (.corruptData "snapshot" "<response>") := by
  have hall : ∀ p ∈ [(RouteKey.parse "/a", postedRoute v)], p.2.Storable :=
    List.forall_mem_singleton.mpr hstorable
  have hsnapshot : SidecarStore.decodeSnapshot .text plainSidecar (Json.text.print (.object
      ([(RouteKey.parse "/a", postedRoute v)].map (member .rfc3339)))) = _ :=
    decodeSnapshot_members rfl hall (List.nodup_singleton _)
  rw [if_neg] at hsnapshot
  · exact hsnapshot
  · rw [depth_members_le_iff _ hall]
    intro h
    have hhigh : (postedRoute v).depth < recursionLimit := h _ List.mem_cons_self
    rw [depth_postedRoute] at hhigh
    omega

/-- A body that nests 127 levels is accepted and written. The snapshot that holds its record nests
128 levels, and the next start fails. -/
theorem deep_metadata_does_not_load :
    Accepted textLibraries .text (.parse "/a") (postedRoute (nestedArrays 125)) ∧
    ∃ value, plainSidecar.encodeRoute "add" (postedRoute (nestedArrays 125)) = .ok value ∧
      SidecarStore.decodeSnapshot .text plainSidecar (Json.text.print (.object [("/a", value)])) =
        .error (.corruptData "snapshot" "<response>") := by
  obtain ⟨hnormal, hintegral, hdepth⟩ := nestedArrays_facts 125
  have haccepted : Accepted textLibraries .text (.parse "/a") (postedRoute (nestedArrays 125)) := by
    refine accepted_postedRoute hnormal hintegral ?_ (by decide +kernel) _
    rw [hdepth]
    decide
  have hstorable := (haccepted.storable reads_textLibraries).1
  have hdeep : recursionLimit ≤ (nestedArrays 125).depth + 1 := by
    rw [hdepth]
    decide
  exact ⟨haccepted, _, SidecarStore.encodeRoute_eq_ok hstorable "add",
    decodeSnapshot_postedRoute hstorable hdeep⟩

end ChpProxy.Api
