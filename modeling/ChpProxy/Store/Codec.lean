import ChpProxy.Lib.TreeMap
import ChpProxy.Route

/-! The third-party codecs that the persistent stores are written against, and how the stores read
a route from the members of an object. -/
namespace ChpProxy

/-- `serde_json` on objects and `chrono` on timestamps. An object read from bytes is the list of
its members in document order, repeated names included; a text that is not one object is
`none`. -/
structure Codec where
  /-- `serde_json::to_vec` of an object with these members. -/
  toVec : List (String × Value) → Option (List UInt8)
  /-- `serde_json::from_slice`, up to the visitor of the caller. -/
  fromSlice : List UInt8 → Option (List (String × Value))
  /-- `to_rfc3339_opts(SecondsFormat::Nanos, true)`. -/
  toRfc3339 : DateTime → String
  /-- `DateTime::parse_from_rfc3339`, then `with_timezone(&Utc)`. -/
  parseFromRfc3339 : String → Option DateTime
  /-- The reader that `chrono` derives for `DateTime<Utc>`. -/
  parseDateTime : String → Option DateTime

/-- An object is read back as it was written. `serde_json` documents this for everything but
floating-point members, which its default reader takes with best-effort precision. -/
def Codec.ReadsBack (codec : Codec) (members : List (String × Value)) : Prop :=
  ∀ bytes, codec.toVec members = some bytes → codec.fromSlice bytes = some members

namespace RouteData

def isReserved (field : String) : Bool := field = "target" || field = "last_activity"

/-- Read a route. The reserved members are strings that occur once; metadata may be repeated
unless it has to be `unique`, and the last occurrence counts. -/
def visitMap (parse : String → Option DateTime) (unique : Bool) :
    List (String × Value) → Option String → Option DateTime → Map → Option RouteData
  | [], some target, some lastActivity, extra => some ⟨target, lastActivity, extra⟩
  | [], _, _, _ => none
  | (field, value) :: members, target, lastActivity, extra =>
    if field = "target" then
      match target, value with
      | none, .string text => visitMap parse unique members (some text) lastActivity extra
      | _, _ => none
    else if field = "last_activity" then
      match lastActivity, value with
      | none, .string raw => (parse raw).bind fun parsed =>
        visitMap parse unique members target (some parsed) extra
      | _, _ => none
    else if unique && extra.contains field then none
    else visitMap parse unique members target lastActivity (extra.insert field value)

section Visit

variable {parse : String → Option DateTime} {unique : Bool} {members : List (String × Value)}
  {target : Option String} {lastActivity : Option DateTime} {extra : Map} {data : RouteData}

theorem visitMap_nil : visitMap parse unique [] target lastActivity extra = some data ↔
    target = some data.target ∧ lastActivity = some data.lastActivity ∧ extra = data.extra := by
  constructor
  · intro h
    unfold visitMap at h
    split at h
    · obtain rfl := Option.some.inj h
      exact ⟨rfl, rfl, rfl⟩
    · cases h
    · next hcons => cases hcons
  · rintro ⟨rfl, rfl, rfl⟩
    rfl

theorem visitMap_cons {field : String} {value : Value}
    (h : visitMap parse unique ((field, value) :: members) target lastActivity extra =
      some data) :
    (field = "target" ∧ target = none ∧ ∃ text, value = .string text ∧
      visitMap parse unique members (some text) lastActivity extra = some data) ∨
    (field = "last_activity" ∧ lastActivity = none ∧ ∃ raw parsed, value = .string raw ∧
      parse raw = some parsed ∧
      visitMap parse unique members target (some parsed) extra = some data) ∨
    (isReserved field = false ∧ (unique = true → extra[field]? = none) ∧
      visitMap parse unique members target lastActivity (extra.insert field value) =
        some data) := by
  unfold visitMap at h
  split_ifs at h with htarget hlast hrepeated
  · split at h
    · next text => exact .inl ⟨htarget, rfl, text, rfl, h⟩
    · exact nomatch h
  · split at h
    · next raw =>
      obtain ⟨parsed, hparsed, h⟩ := Option.bind_eq_some_iff.mp h
      exact .inr (.inl ⟨hlast, rfl, raw, parsed, rfl, hparsed, h⟩)
    · exact nomatch h
  · have hreserved : isReserved field = false := by simp [isReserved, htarget, hlast]
    refine .inr (.inr ⟨hreserved, fun hunique => ?_, h⟩)
    rw [hunique, Bool.true_and, Bool.not_eq_true] at hrepeated
    exact Std.ExtTreeMap.getElem?_eq_none_of_contains_eq_false hrepeated

theorem visitMap_target
    (h : visitMap parse unique members target lastActivity extra = some data) :
    target = some data.target ∨ ("target", .string data.target) ∈ members := by
  induction members generalizing target lastActivity extra with
  | nil => exact .inl (visitMap_nil.mp h).1
  | cons member members ih =>
    obtain ⟨field, value⟩ := member
    rcases visitMap_cons h with
      ⟨rfl, -, text, rfl, hrest⟩ | ⟨-, -, -, parsed, -, -, hrest⟩ | ⟨-, -, hrest⟩
    · right
      rcases ih hrest with htext | hmem
      · rw [Option.some.inj htext]
        exact List.mem_cons_self
      · exact List.mem_cons_of_mem _ hmem
    · exact (ih hrest).imp_right (List.mem_cons_of_mem _)
    · exact (ih hrest).imp_right (List.mem_cons_of_mem _)

/-- Metadata that no member supplies is left alone, and a reserved member never becomes
metadata. -/
theorem visitMap_extra_of_not_mem {k : String}
    (hk : isReserved k = true ∨ k ∉ members.map Prod.fst)
    (h : visitMap parse unique members target lastActivity extra = some data) :
    data.extra[k]? = extra[k]? := by
  induction members generalizing target lastActivity extra with
  | nil => rw [(visitMap_nil.mp h).2.2]
  | cons member members ih =>
    obtain ⟨field, value⟩ := member
    have hrest : isReserved k = true ∨ k ∉ members.map Prod.fst :=
      hk.imp_right fun hnot hmem => hnot (List.mem_cons_of_mem _ hmem)
    rcases visitMap_cons h with
      ⟨-, -, text, -, h⟩ | ⟨-, -, -, parsed, -, -, h⟩ | ⟨hreserved, -, h⟩
    · exact ih hrest h
    · exact ih hrest h
    · have hne : field ≠ k := by
        rintro rfl
        rcases hk with hk | hk
        · rw [hreserved] at hk
          exact nomatch hk
        · exact hk List.mem_cons_self
      rw [ih hrest h, TreeMap.getElem?_insert_eq, if_neg hne]

theorem mem_cons_reserved {field k : String} {value v : Value} {members : List (String × Value)}
    (hfield : isReserved field = true) :
    (isReserved k = false ∧ (k, v) ∈ (field, value) :: members) ↔
      isReserved k = false ∧ (k, v) ∈ members := by
  refine and_congr_right fun hk => ?_
  have hne : k ≠ field := by
    rintro rfl
    rw [hfield] at hk
    cases hk
  simp [hne]

theorem visitMap_extra_of_mem {k : String} {v : Value} (hk : isReserved k = false)
    (hnodup : (members.map Prod.fst).Nodup) (hmem : (k, v) ∈ members)
    (h : visitMap parse unique members target lastActivity extra = some data) :
    data.extra[k]? = some v := by
  induction members generalizing target lastActivity extra with
  | nil => exact nomatch hmem
  | cons member members ih =>
    obtain ⟨field, value⟩ := member
    obtain ⟨hfield, hrest⟩ := List.nodup_cons.mp hnodup
    rcases visitMap_cons h with
      ⟨rfl, -, text, -, h⟩ | ⟨rfl, -, -, parsed, -, -, h⟩ | ⟨hreserved, -, h⟩
    · exact ih hrest ((mem_cons_reserved rfl).mp ⟨hk, hmem⟩).2 h
    · exact ih hrest ((mem_cons_reserved rfl).mp ⟨hk, hmem⟩).2 h
    · rcases List.mem_cons.mp hmem with heq | hmem
      · obtain ⟨rfl, rfl⟩ := Prod.mk.inj heq
        rw [visitMap_extra_of_not_mem (.inr hfield) h]
        exact Std.ExtTreeMap.getElem?_insert_self
      · exact ih hrest hmem h

theorem visitMap_lastActivity
    (h : visitMap parse unique members target lastActivity extra = some data) :
    lastActivity = some data.lastActivity ∨
      ∃ raw, ("last_activity", .string raw) ∈ members ∧ parse raw = some data.lastActivity := by
  induction members generalizing target lastActivity extra with
  | nil => exact .inl (visitMap_nil.mp h).2.1
  | cons member members ih =>
    obtain ⟨field, value⟩ := member
    have hrest : ∀ {lastActivity'}, (lastActivity' = some data.lastActivity ∨ ∃ raw,
        ("last_activity", .string raw) ∈ members ∧ parse raw = some data.lastActivity) →
        lastActivity' = some data.lastActivity ∨ ∃ raw,
          ("last_activity", .string raw) ∈ (field, value) :: members ∧
            parse raw = some data.lastActivity := by
      rintro lastActivity' (hlast | ⟨raw, hmem, hparse⟩)
      · exact .inl hlast
      · exact .inr ⟨raw, List.mem_cons_of_mem _ hmem, hparse⟩
    rcases visitMap_cons h with
      ⟨-, -, text, -, h⟩ | ⟨rfl, -, raw, parsed, rfl, hparsed, h⟩ | ⟨-, -, h⟩
    · exact hrest (ih h)
    · rcases hrest (ih h) with hlast | hmem
      · rw [hlast] at hparsed
        exact .inr ⟨raw, List.mem_cons_self, hparsed⟩
      · exact .inr hmem
    · exact hrest (ih h)

/-- A visitor that wants its members to be unique refuses every repetition, also of what it has
met before. -/
theorem visitMap_nodup (h : visitMap parse true members target lastActivity extra = some data) :
    (members.map Prod.fst).Nodup ∧ (target ≠ none → "target" ∉ members.map Prod.fst) ∧
      (lastActivity ≠ none → "last_activity" ∉ members.map Prod.fst) ∧
      ∀ k, isReserved k = false → extra[k]? ≠ none → k ∉ members.map Prod.fst := by
  induction members generalizing target lastActivity extra with
  | nil => simp
  | cons member members ih =>
    obtain ⟨field, value⟩ := member
    simp only [List.map_cons, List.nodup_cons, List.mem_cons, not_or]
    rcases visitMap_cons h with
      ⟨rfl, hnone, text, -, h⟩ | ⟨rfl, hnone, raw, parsed, -, -, h⟩ | ⟨hreserved, hfree, h⟩
    · obtain ⟨hnodup, htarget, hlast, hextra⟩ := ih h
      refine ⟨⟨htarget (Option.some_ne_none _), hnodup⟩, fun hsome => absurd hnone hsome,
        fun hsome => ⟨by decide, hlast hsome⟩, fun k hk hsome => ⟨?_, hextra k hk hsome⟩⟩
      rintro rfl
      cases hk
    · obtain ⟨hnodup, htarget, hlast, hextra⟩ := ih h
      refine ⟨⟨hlast (Option.some_ne_none _), hnodup⟩, fun hsome => ⟨by decide, htarget hsome⟩,
        fun hsome => absurd hnone hsome, fun k hk hsome => ⟨?_, hextra k hk hsome⟩⟩
      rintro rfl
      cases hk
    · obtain ⟨hnodup, htarget, hlast, hextra⟩ := ih h
      have hfield : (extra.insert field value)[field]? ≠ none := by
        rw [Std.ExtTreeMap.getElem?_insert_self]
        exact Option.some_ne_none _
      refine ⟨⟨hextra field hreserved hfield, hnodup⟩, fun hsome => ⟨?_, htarget hsome⟩,
        fun hsome => ⟨?_, hlast hsome⟩, fun k hk hsome => ?_⟩
      · rintro rfl
        cases hreserved
      · rintro rfl
        cases hreserved
      · have hne : k ≠ field := by
          rintro rfl
          exact hsome (hfree rfl)
        refine ⟨hne, hextra k hk ?_⟩
        rwa [TreeMap.getElem?_insert_eq, if_neg (Ne.symm hne)]

/-- The members to come hold what the record still lacks. -/
structure Completes (parse : String → Option DateTime) (members : List (String × Value))
    (target : Option String) (lastActivity : Option DateTime) (extra : Map)
    (data : RouteData) : Prop where
  nodup : (members.map Prod.fst).Nodup
  hasTarget : target = some data.target ∧ "target" ∉ members.map Prod.fst ∨
    target = none ∧ ("target", .string data.target) ∈ members
  hasLastActivity :
    lastActivity = some data.lastActivity ∧ "last_activity" ∉ members.map Prod.fst ∨
    lastActivity = none ∧
      ∃ raw, ("last_activity", .string raw) ∈ members ∧ parse raw = some data.lastActivity
  hasExtra : ∀ k v, data.extra[k]? = some v ↔
    extra[k]? = some v ∨ isReserved k = false ∧ (k, v) ∈ members
  fresh : ∀ k ∈ members.map Prod.fst, extra[k]? = none

theorem eq_of_mem_cons {α : Type} {k : String} {v w : α} {members : List (String × α)}
    (hnodup : (((k, v) :: members).map Prod.fst).Nodup) (hmem : (k, w) ∈ (k, v) :: members) :
    w = v := by
  rcases List.mem_cons.mp hmem with heq | hmem
  · exact (Prod.mk.inj heq).2
  · exact absurd (List.mem_map_of_mem hmem) (List.nodup_cons.mp hnodup).1

theorem visitMap_eq_some (h : Completes parse members target lastActivity extra data) :
    visitMap parse unique members target lastActivity extra = some data := by
  induction members generalizing target lastActivity extra with
  | nil =>
    obtain ⟨-, htarget, hlast, hextra, -⟩ := h
    have htarget' : target = some data.target := by simpa using htarget
    have hlast' : lastActivity = some data.lastActivity := by simpa using hlast
    have hextra' : extra = data.extra := by
      refine Std.ExtTreeMap.ext_getElem? fun k => Option.ext fun v => ?_
      simpa using (hextra k v).symm
    exact visitMap_nil.mpr ⟨htarget', hlast', hextra'⟩
  | cons member members ih =>
    obtain ⟨field, value⟩ := member
    obtain ⟨hnodup, htarget, hlast, hextra, hfresh⟩ := h
    obtain ⟨hfield, hnodup'⟩ := List.nodup_cons.mp hnodup
    have hfresh' : ∀ k ∈ members.map Prod.fst, extra[k]? = none := fun k hk =>
      hfresh k (List.mem_cons_of_mem _ hk)
    unfold visitMap
    split_ifs with hisTarget hisLast hrepeated
    · subst hisTarget
      obtain ⟨rfl, hmem⟩ := htarget.resolve_left fun h => h.2 List.mem_cons_self
      obtain rfl := eq_of_mem_cons hnodup hmem
      refine ih ⟨hnodup', .inl ⟨rfl, hfield⟩, by simpa using hlast, fun k v => ?_, hfresh'⟩
      rw [hextra k v, mem_cons_reserved rfl]
    · subst hisLast
      obtain ⟨rfl, raw, hmem, hparse⟩ := hlast.resolve_left fun h => h.2 List.mem_cons_self
      obtain rfl := eq_of_mem_cons hnodup hmem
      simp only [hparse, Option.bind_some]
      refine ih ⟨hnodup', by simpa using htarget, .inl ⟨rfl, hfield⟩, fun k v => ?_, hfresh'⟩
      rw [hextra k v, mem_cons_reserved rfl]
    · rw [Bool.and_eq_true, Std.ExtTreeMap.contains_eq_isSome_getElem?,
        hfresh field List.mem_cons_self] at hrepeated
      cases hrepeated.2
    · have hreserved : isReserved field = false := by simp [isReserved, hisTarget, hisLast]
      refine ih ⟨hnodup', by simpa [Ne.symm hisTarget] using htarget,
        by simpa [Ne.symm hisLast] using hlast, fun k v => ?_, fun k hk => ?_⟩
      · rw [hextra k v, TreeMap.getElem?_insert_eq]
        split_ifs with heq
        · subst heq
          have hold := hfresh field List.mem_cons_self
          have hnot : (field, v) ∉ members := fun hmem =>
            hfield (List.mem_map.mpr ⟨_, hmem, rfl⟩)
          simp [hold, hreserved, hnot, eq_comm]
        · simp [Ne.symm heq]
      · have hne : k ≠ field := fun h => hfield (h ▸ hk)
        rw [TreeMap.getElem?_insert_eq, if_neg (Ne.symm hne), hfresh' k hk]

/-- What a visitor takes that wants its members to be unique. -/
theorem visitMap_unique_iff : visitMap parse true members none none ∅ = some data ↔
    (members.map Prod.fst).Nodup ∧ ("target", .string data.target) ∈ members ∧
      (∃ raw, ("last_activity", .string raw) ∈ members ∧ parse raw = some data.lastActivity) ∧
      ∀ k v, data.extra[k]? = some v ↔ isReserved k = false ∧ (k, v) ∈ members := by
  constructor
  · intro h
    obtain ⟨hnodup, -⟩ := visitMap_nodup h
    have htarget := (visitMap_target h).resolve_left (Option.some_ne_none _).symm
    have hlast := (visitMap_lastActivity h).resolve_left (Option.some_ne_none _).symm
    refine ⟨hnodup, htarget, hlast, fun k v => ⟨fun hv => ?_, fun hv => ?_⟩⟩
    · have hmem : ¬(isReserved k = true ∨ k ∉ members.map Prod.fst) := by
        intro habsent
        rw [visitMap_extra_of_not_mem habsent h, Std.ExtTreeMap.getElem?_empty] at hv
        cases hv
      rw [not_or, not_not, Bool.not_eq_true] at hmem
      obtain ⟨⟨k', v'⟩, hin, rfl⟩ := List.mem_map.mp hmem.2
      have hv' := visitMap_extra_of_mem hmem.1 hnodup hin h
      rw [hv] at hv'
      obtain rfl := Option.some.inj hv'
      exact ⟨hmem.1, hin⟩
    · exact visitMap_extra_of_mem hv.1 hnodup hv.2 h
  · rintro ⟨hnodup, htarget, hlast, hextra⟩
    refine visitMap_eq_some ⟨hnodup, .inr ⟨rfl, htarget⟩, .inr ⟨rfl, hlast⟩, fun k v => ?_,
      fun k _ => Std.ExtTreeMap.getElem?_empty⟩
    rw [hextra k v, Std.ExtTreeMap.getElem?_empty]
    simp

end Visit

end RouteData

end ChpProxy
