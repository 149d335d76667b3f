import ChpProxy.Lib.Utf8
import ChpProxy.Store.JsonText
import ChpProxy.Store.Redis.Delete
import ChpProxy.Store.Redis.Replace
import ChpProxy.Store.Redis.Update

/-! Every Redis mutator happens in one step of the server, or not at all unless it says that it
does not know. -/
namespace ChpProxy.RedisStore

/-- Whatever a run of the program and of the other clients returns tells what became of its
operation. A value means that the operation happened in one step between the call and the return
and that the client altered nothing else. An ordinary error means that the client altered nothing
and that nothing it sent can do so later. A mutating command without a reply makes the result
indeterminate. -/
structure Linearized {l α : Type} (P : Program l α)
    (Effect : List (Option DateTime) → Redis → Redis → Except StoreError α → Prop) (redis : Redis)
    (actions : List (Session.Action Input Hash))
    (s : Session.State Redis l Command Reply (Except StoreError α))
    (result : Except StoreError α) : Prop where
  ok : ∀ v, result = .ok v → Session.TookEffect server P Redis.hash Effect
    (Session.initial redis) actions result
  ordinary : ∀ e, result = .error e → e.isOrdinary = true →
    Session.Silent server P Redis.hash (Session.initial redis) actions ∧
      ∀ command, s.outstanding = some command → command.isMutating = false
  unanswered : ∀ command, s.unanswered = some command → command.isMutating = true →
    ∃ operation, result = .error (.indeterminate operation)

def Linearizable {l α : Type} (P : Program l α)
    (Effect : List (Option DateTime) → Redis → Redis → Except StoreError α → Prop) : Prop :=
  ∀ redis actions s result,
    Transition.run (Session.step server P) (Session.initial redis) actions = some s →
    s.phase = .returned result → Linearized P Effect redis actions s result

theorem linearizable_of_outline {l α : Type} {P : Program l α}
    {Effect : List (Option DateTime) → Redis → Redis → Except StoreError α → Prop}
    (O : Accounts P Effect)
    (hok : ∀ floors before after result, Effect floors before after result → ∃ v, result = .ok v) :
    Linearizable P Effect := by
  intro redis actions s result hrun hphase
  have hverdict := O.verdict hrun hphase
  constructor
  · rintro v rfl
    rcases hverdict with ⟨operation, hu⟩ | ⟨⟨e, hc, -⟩, -⟩ | ⟨heffect, -⟩
    · exact nomatch hu
    · exact nomatch hc
    · exact heffect
  · rintro e rfl hordinary
    rcases hverdict with ⟨operation, hu⟩ | ⟨-, hsilent, hquiet⟩ | ⟨heffect, -⟩
    · obtain rfl := Except.error.inj hu
      exact nomatch hordinary
    · exact ⟨hsilent, fun command hcommand => hquiet command (.inl hcommand)⟩
    · obtain ⟨_, _, s₁, s₂, _, -, -, -, -, he, -⟩ := heffect
      obtain ⟨v, hv⟩ := hok _ _ _ _ he
      exact nomatch hv
  · intro command hcommand hmutating
    have hnot : ¬Session.Quiet (·.isMutating = false) s := by
      intro hquiet
      have hfalse := hquiet command (.inr hcommand)
      rw [hfalse] at hmutating
      exact nomatch hmutating
    rcases hverdict with hu | ⟨-, -, hquiet⟩ | ⟨-, hquiet⟩
    · exact hu
    · exact absurd hquiet hnot
    · exact absurd hquiet hnot

theorem atomicReplace_linearizable (codec : Codec) (operation : String) (key : RouteKey)
    (data : RouteData) :
    Linearizable (atomicReplace codec operation key data)
      (Replaces codec operation key data) := by
  refine linearizable_of_outline (atomicReplaceOutline codec operation key data) ?_
  rintro floors before after result ⟨committed, _, rfl, -⟩
  exact ⟨committed, rfl⟩

theorem updateActivity_linearizable (codec : Codec) (key : RouteKey) (at' : DateTime) :
    Linearizable (updateActivity codec key at') (fun _ => Updates codec key at') := by
  refine linearizable_of_outline (updateActivityOutline codec key at') ?_
  rintro _ before after result ⟨rfl, -⟩
  exact ⟨(), rfl⟩

theorem delete_linearizable (codec : Codec) (key : RouteKey) :
    Linearizable (delete codec key) (fun _ => Deletes codec key) := by
  refine linearizable_of_outline (deleteOutline codec key) ?_
  rintro _ before after result (⟨rfl, -⟩ | ⟨_, data, rfl, -⟩)
  · exact ⟨none, rfl⟩
  · exact ⟨some data, rfl⟩

/-- The four mutators that the registry calls are single steps of the shared hash, for every
codec, every interleaving with other clients and every loss of replies. -/
theorem redis_mutators_linearizable (codec : Codec) :
    (∀ now key target extra, Linearizable (add codec now key target extra)
      (Replaces codec "add" key ⟨target, now, extra⟩)) ∧
    (∀ key data, Linearizable (putPreservingActivity codec key data)
      (Replaces codec "put" key data)) ∧
    (∀ key at', Linearizable (updateActivity codec key at') (fun _ => Updates codec key at')) ∧
    ∀ key, Linearizable (delete codec key) (fun _ => Deletes codec key) := by
  refine ⟨?_, ?_, updateActivity_linearizable codec, delete_linearizable codec⟩
  · intro now key target extra
    exact atomicReplace_linearizable codec "add" key ⟨target, now, extra⟩
  · intro key data
    exact atomicReplace_linearizable codec "put" key data

/-- Connected, before the deadline, and without a floor. -/
def ready : Input := ⟨true, false, none⟩

theorem run_updateActivity {codec : Codec} {key : RouteKey} {at' : DateTime} {hash : Hash}
    {current encoded : List UInt8} {data : RouteData} (hcurrent : hash[key.asStr]? = some current)
    (htext : isText current = true)
    (hdecode : decode codec "update_activity" key.asStr current = .ok data)
    (hencode : encode codec "update_activity" { data with lastActivity := at' } = .ok encoded) :
    Transition.run (Session.step server (updateActivity codec key at'))
        (Session.initial ⟨hash, false, false⟩)
        [.start ready, .execute, .receive ready, .execute, .receive ready] =
      some ⟨⟨hash, true, false⟩, some (.exec key.asStr encoded), some (.exec key.asStr encoded),
        none, .awaiting .exec⟩ := by
  have hresume : (updateActivity codec key at').resume .hget (.value hash[key.asStr]?) ready =
      .send (.exec key.asStr encoded) .exec := by
    simp [updateActivity, hcurrent, htext, hdecode, hencode, useRemainingTimeout, ready]
  have hstep : Session.step server (updateActivity codec key at')
      ⟨⟨hash, true, false⟩, none, some (.hget key.asStr), some (.value hash[key.asStr]?),
        .awaiting .hget⟩ (.receive ready) =
      some ⟨⟨hash, true, false⟩, some (.exec key.asStr encoded), some (.exec key.asStr encoded),
        none, .awaiting .exec⟩ := by
    simp only [Session.step, hresume]
    rfl
  exact hstep

theorem isText_encode (text : List Char) : isText (Utf8.encode text) = true := by
  refine ByteArray.validateUTF8_eq_true_iff.mpr ⟨text, ?_⟩
  rw [ByteArray.ext_iff]
  simp [Utf8.encode, List.utf8Encode]

/-- The text of a route with one number among its metadata. -/
def numberText (lastActivity number : String) : List UInt8 :=
  Utf8.encode ("\x7b\"last_activity\":\"" ++ lastActivity ++ "\",\"m\":" ++ number ++
    ",\"target\":\"http://127.0.0.1:9001\"\x7d").toList

def numberMembers (lastActivity : String) (bits : UInt64) : List (String × Value) :=
  [("last_activity", .string lastActivity), ("m", .number (.float bits)),
    ("target", .string "http://127.0.0.1:9001")]

def numberRoute (lastActivity : DateTime) (bits : UInt64) : RouteData :=
  ⟨"http://127.0.0.1:9001", lastActivity, (∅ : Map).insert "m" (.number (.float bits))⟩

def storedNumber : List UInt8 :=
  numberText "1970-01-01T00:00:00.000000000Z" "1.0365764155035874e-07"

def rewrittenNumber : List UInt8 :=
  numberText "1970-01-01T00:00:00.000000001Z" "1.0365764155035875e-7"

/-- `serde_json` on these two texts. Without `float_roundtrip` it reads the digits as an integer and
divides by a power of ten, here 10²³, so that a number may come out one unit too large. The shortest
text of that number then comes out one unit larger still. -/
def drifting : Codec where
  toVec
    | [("last_activity", .string lastActivity), ("m", .number (.float bits)),
        ("target", .string _)] =>
      if bits = 0x3e7bd34c83dc3ca1 then some (numberText lastActivity "1.0365764155035875e-7")
      else none
    | _ => none
  fromSlice bytes :=
    if bytes = storedNumber then
      some (numberMembers "1970-01-01T00:00:00.000000000Z" 0x3e7bd34c83dc3ca1)
    else if bytes = rewrittenNumber then
      some (numberMembers "1970-01-01T00:00:00.000000001Z" 0x3e7bd34c83dc3ca2)
    else none
  toRfc3339 := Chrono.rfc3339.toRfc3339
  parseFromRfc3339 := Chrono.rfc3339.parseFromRfc3339
  parseDateTime := Chrono.rfc3339.parseDateTime

theorem decode_storedNumber (operation key : String) :
    decode drifting operation key storedNumber = .ok (numberRoute 0 0x3e7bd34c83dc3ca1) := by
  have hslice : drifting.fromSlice storedNumber =
      some (numberMembers "1970-01-01T00:00:00.000000000Z" 0x3e7bd34c83dc3ca1) := by
    simp only [drifting, if_true]
  unfold decode
  rw [hslice]
  rfl

theorem decode_rewrittenNumber (operation key : String) :
    decode drifting operation key rewrittenNumber = .ok (numberRoute 1 0x3e7bd34c83dc3ca2) := by
  have hne : rewrittenNumber ≠ storedNumber := by decide +kernel
  have hslice : drifting.fromSlice rewrittenNumber =
      some (numberMembers "1970-01-01T00:00:00.000000001Z" 0x3e7bd34c83dc3ca2) := by
    simp only [drifting, hne, if_false, if_true]
  unfold decode
  rw [hslice]
  rfl

theorem encode_numberRoute (operation : String) :
    encode drifting operation (numberRoute 1 0x3e7bd34c83dc3ca1) = .ok rewrittenNumber := by
  have hobject : (toObject drifting (numberRoute 1 0x3e7bd34c83dc3ca1)).toList =
      numberMembers "1970-01-01T00:00:00.000000001Z" 0x3e7bd34c83dc3ca1 := by decide +kernel
  unfold encode
  rw [hobject]
  rfl

def numberHash : Hash := Std.ExtTreeMap.empty.insert "/a" storedNumber

theorem run_storedNumber :
    Transition.run (Session.step server (updateActivity drifting (.parse "/a") 1))
        (Session.initial ⟨numberHash, false, false⟩)
        [.start ready, .execute, .receive ready, .execute, .receive ready] =
      some ⟨⟨numberHash, true, false⟩, some (.exec "/a" rewrittenNumber),
        some (.exec "/a" rewrittenNumber), none, .awaiting .exec⟩ :=
  run_updateActivity Std.ExtTreeMap.getElem?_insert_self (isText_encode _) (decode_storedNumber _ _)
    (encode_numberRoute _)

/-- An activity update nobody interferes with, of a record whose number drifts when it is written and
read again. -/
theorem update_activity_drifts :
    ∃ s, Transition.run (Session.step server (updateActivity drifting (.parse "/a") 1))
        (Session.initial ⟨numberHash, false, false⟩)
        [.start ready, .execute, .receive ready, .execute, .receive ready, .execute,
          .receive ready] = some s ∧
      s.phase = .returned (.ok ()) ∧ numberHash["/a"]? = some storedNumber ∧
      s.data.hash["/a"]? = some rewrittenNumber ∧
      ∃ before after, decode drifting "snapshot" "/a" storedNumber = .ok before ∧
        decode drifting "snapshot" "/a" rewrittenNumber = .ok after ∧
        after.extra ≠ before.extra := by
  have hrun : Transition.run (Session.step server (updateActivity drifting (.parse "/a") 1))
      (Session.initial ⟨numberHash, false, false⟩)
      ([.start ready, .execute, .receive ready, .execute, .receive ready] ++
        [.execute, .receive ready]) =
      some ⟨⟨numberHash.insert "/a" rewrittenNumber, false, false⟩, none, none, none,
        .returned (.ok ())⟩ := by
    rw [Transition.run_append, run_storedNumber]
    rfl
  refine ⟨_, hrun, rfl, Std.ExtTreeMap.getElem?_insert_self, Std.ExtTreeMap.getElem?_insert_self,
    _, _, decode_storedNumber _ _, decode_rewrittenNumber _ _, ?_⟩
  decide +kernel

/-- Another client deletes the record between the read and the replacement. The replacement is not
applied, and the update ends without a record. -/
theorem redis_mutators_linearizable_deleted :
    let actions : List (Session.Action Input Hash) :=
      [.start ready, .execute, .receive ready, .execute, .receive ready, .disturb ∅, .execute,
        .receive ready, .execute, .receive ready, .execute, .receive ready, .execute,
        .receive ready]
    let update := updateActivity drifting (.parse "/a") 1
    let start := Session.initial ⟨numberHash, false, false⟩
    ∃ s, Transition.run (Session.step server update) start actions = some s ∧
      s.phase = .returned (.ok ()) ∧ s.data.hash = ∅ ∧
      Session.TookEffect server update Redis.hash (fun _ => Updates drifting (.parse "/a") 1) start
        actions (.ok ()) := by
  have hrun : Transition.run (Session.step server (updateActivity drifting (.parse "/a") 1))
      (Session.initial ⟨numberHash, false, false⟩)
      ([.start ready, .execute, .receive ready, .execute, .receive ready] ++
        [.disturb ∅, .execute, .receive ready, .execute, .receive ready, .execute, .receive ready,
          .execute, .receive ready]) =
      some ⟨⟨∅, false, false⟩, none, none, none, .returned (.ok ())⟩ := by
    rw [Transition.run_append, run_storedNumber]
    rfl
  exact ⟨_, hrun, rfl, rfl,
    ((redis_mutators_linearizable drifting).2.2.1 _ _ _ _ _ _ hrun rfl).ok () rfl⟩

end ChpProxy.RedisStore
