import ChpProxy.Lib.Session.Ownership
import ChpProxy.Store.JsonText
import ChpProxy.Store.Snapshot

/-! The connections of the Redis store: every operation takes the one that is kept or opens a new
one, and gives it back when it succeeds. -/
namespace ChpProxy.RedisStore

open Session (Client Watch)

inductive Operation where
  | snapshot
  | add (now : DateTime) (key : RouteKey) (target : String) (extra : Map)
  | put (key : RouteKey) (data : RouteData)
  | putPreservingActivity (key : RouteKey) (data : RouteData)
  | updateActivity (key : RouteKey) (at' : DateTime)
  | delete (key : RouteKey)

def Operation.name : Operation → String
  | .snapshot => "snapshot"
  | .add .. => "add"
  | .put .. | .putPreservingActivity .. => "put"
  | .updateActivity .. => "update_activity"
  | .delete _ => "delete"

inductive Request where
  | command (command : Command)
  | hgetall
  | ping
  | hset (field : String) (value : List UInt8)

/-- What the client makes of a reply. It ignores what `WATCH`, `UNWATCH`, `PING` and `HSET` answer,
unless it is an error. -/
inductive Response where
  | reply (reply : Reply)
  | records (records : List (String × List UInt8))
  | error

/-- `EXEC` and `UNWATCH` forget the watch, unless the server refuses them. A `WATCH` counts even if
it was refused. -/
def watch : Watch Request Response where
  arms
    | .command .watch => true
    | _ => false
  disarms
    | .command .unwatch, .reply _ | .command (.exec ..), .reply _ => true
    | _, _ => false

/-- What an operation remembers while it awaits a reply. -/
inductive Await where
  | hgetall
  | ping (key : RouteKey) (encoded : List UInt8)
  | hset
  | replace (operation : String) (key : RouteKey) (data : RouteData) (await : ReplaceAwait)
  | update (key : RouteKey) (at' : DateTime) (await : UpdateAwait)
  | delete (key : RouteKey) (await : DeleteAwait)

inductive Outcome where
  | snapshot (routes : RouteMap)
  | committed (data : RouteData)
  | done
  | prior (data : Option RouteData)

/-- The program of one operation among all of them. -/
def lift {l α : Type} (await : l → Await) (outcome : α → Outcome) :
    Next l α → Session.Next Await Request (Except StoreError Outcome)
  | .send command suspended => .send (.command command) (await suspended)
  | .stop result => .stop (result.map outcome)

section
variable (codec : Codec)

def fail : Await → Except StoreError Outcome
  | .hgetall => .error (.backend "snapshot")
  | .ping .. => .error (.backend "put")
  | .hset => .error (.indeterminate "put")
  | .replace operation key data await =>
    ((atomicReplace codec operation key data).fail await).map .committed
  | .update key at' await => ((updateActivity codec key at').fail await).map fun _ => .done
  | .delete key await => ((delete codec key).fail await).map .prior

/-- `put` encodes its record before it takes a connection. -/
def prepare : Operation → Option (Except StoreError Outcome)
  | .put _ data => match encode codec "put" data with
    | .error e => some (.error e)
    | .ok _ => none
  | _ => none

def start (op : Operation) (i : Input) : Session.Next Await Request (Except StoreError Outcome) :=
  let i := { i with connected := true }
  match op with
  | .snapshot => .send .hgetall .hgetall
  | .put key data => match encode codec "put" data with
    | .error e => .stop (.error e)
    | .ok encoded => .send .ping (.ping key encoded)
  | .add now key target extra =>
    lift (.replace "add" key ⟨target, now, extra⟩) .committed
      ((add codec now key target extra).start i)
  | .putPreservingActivity key data =>
    lift (.replace "put" key data) .committed ((putPreservingActivity codec key data).start i)
  | .updateActivity key at' =>
    lift (.update key at') (fun _ => .done) ((updateActivity codec key at').start i)
  | .delete key => lift (.delete key) .prior ((delete codec key).start i)

def resume : Await → Response → Input → Session.Next Await Request (Except StoreError Outcome)
  | .hgetall, .records records, _ => .stop ((snapshot codec true (some records)).map .snapshot)
  | .ping key encoded, .reply .ok, _ => .send (.hset key.asStr encoded) .hset
  | .hset, .reply .ok, _ => .stop (.ok .done)
  | .replace operation key data await, .reply reply, i =>
    lift (.replace operation key data) .committed
      ((atomicReplace codec operation key data).resume await reply i)
  | .update key at' await, .reply reply, i =>
    lift (.update key at') (fun _ => .done) ((updateActivity codec key at').resume await reply i)
  | .delete key await, .reply reply, i =>
    lift (.delete key) .prior ((delete codec key).resume await reply i)
  | await, _, _ => .stop (fail codec await)

/-- Only an operation that succeeds calls `return_connection`. -/
def client : Client Operation Input Await Request Response (Except StoreError Outcome) where
  prepare := prepare codec
  unavailable op := .error (.backend op.name)
  start := start codec
  resume := resume codec
  fail := fail codec
  keeps := Except.isOk

end

/-- The command that an operation awaits the reply to. -/
def Await.sends : Await → Request → Bool
  | .hgetall, .hgetall | .ping .., .ping | .hset, .hset .. => true
  | .replace _ _ _ (.watch _), .command .watch | .update _ _ .watch, .command .watch => true
  | .replace _ _ _ (.exec ..), .command (.exec ..) | .update _ _ .exec, .command (.exec ..) => true
  | .update _ _ .hget, .command (.hget _) | .delete _ .hget, .command (.hget _) => true
  | .update _ _ .unwatch, .command .unwatch => true
  | .delete _ (.eval _), .command (.eval ..) => true
  | _, _ => false

/-- Whether the operation has a watch in force when it sends that command. -/
def Await.watching : Await → Bool
  | .replace _ _ _ (.exec ..) | .update _ _ .hget | .update _ _ .unwatch | .update _ _ .exec => true
  | _ => false

/-- Whether the watch is in force when the reply has arrived. -/
def Await.watched : Await → Bool
  | .replace _ _ _ (.watch _) | .update _ _ .watch | .update _ _ .hget => true
  | _ => false

def Waits (await : Await) (request : Request) (armed : Bool) : Prop :=
  await.sends request = true ∧ armed = await.watching

/-! Each operation knows whether its watch is in force. -/

variable {codec : Codec} {l α : Type} {await : l → Await} {outcome : α → Outcome} {armed : Bool}

abbrev Respects (codec : Codec) := Session.Pool.Respects (client codec) Waits

/-- An operation that fails drops its connection, whatever is left on it. -/
theorem respects_stop (e : StoreError) : Respects codec armed (lift await outcome (stop e)) := by
  intro h
  cases h

theorem respects_send {command : Command} {suspended : l}
    (h : Waits (await suspended) (.command command) armed) (operation : String) (i : Input) :
    Respects codec armed
      (lift await outcome (useRemainingTimeout operation i (.send command suspended))) := by
  unfold useRemainingTimeout
  split_ifs
  · exact respects_stop _
  · exact h

theorem respects_takeConnection {next : Next l α}
    (h : Respects codec armed (lift await outcome next)) (operation : String) (i : Input) :
    Respects codec armed (lift await outcome (takeConnection operation i next)) := by
  unfold takeConnection
  split_ifs
  · exact h
  · exact respects_stop _

theorem respects_replace_start (operation : String) (key : RouteKey) (data : RouteData)
    (i : Input) : Respects codec false (lift (.replace operation key data) .committed
      ((atomicReplace codec operation key data).start i)) := by
  refine respects_takeConnection (respects_send ?_ _ _) _ _
  exact ⟨rfl, rfl⟩

theorem respects_update_start (key : RouteKey) (at' : DateTime) (i : Input) :
    Respects codec false (lift (.update key at') (fun _ => .done)
      ((updateActivity codec key at').start i)) := by
  refine respects_takeConnection (respects_send ?_ _ _) _ _
  exact ⟨rfl, rfl⟩

theorem respects_delete_start (key : RouteKey) (i : Input) :
    Respects codec false (lift (.delete key) .prior ((delete codec key).start i)) := by
  refine respects_takeConnection (respects_send ?_ _ _) _ _
  exact ⟨rfl, rfl⟩

theorem respects_start (op : Operation) (i : Input) :
    Respects codec false ((client codec).start op i) := by
  cases op with
  | snapshot => exact ⟨rfl, rfl⟩
  | put key data =>
    simp only [client, start]
    split
    · exact fun h => by cases h
    · exact ⟨rfl, rfl⟩
  | add now key target extra => exact respects_replace_start "add" key ⟨target, now, extra⟩ _
  | putPreservingActivity key data => exact respects_replace_start "put" key data _
  | updateActivity key at' => exact respects_update_start key at' _
  | delete key => exact respects_delete_start key _

theorem armed_of_sends {suspended : Await} {request : Request}
    (h : suspended.sends request = true) (reply : Reply) :
    watch.armed suspended.watching request (.reply reply) = suspended.watched := by
  revert h
  fun_cases Await.sends suspended request
  all_goals intro h
  all_goals first
    | rfl
    | cases h

/-- The retry after an `EXEC` that was not applied starts without a watch again. -/
theorem respects_replace_resume (operation : String) (key : RouteKey) (data : RouteData)
    (suspended : ReplaceAwait) (reply : Reply) (i : Input) :
    Respects codec (Await.replace operation key data suspended).watched
      (lift (.replace operation key data) .committed
        ((atomicReplace codec operation key data).resume suspended reply i)) := by
  cases suspended with
  | watch current =>
    cases reply with
    | ok =>
      simp only [atomicReplace]
      split
      · exact respects_stop _
      · split
        · exact respects_stop _
        · exact respects_send ⟨rfl, rfl⟩ operation i
    | value | exec | eval => exact respects_stop _
  | exec current committed =>
    cases reply with
    | exec applied =>
      cases applied with
      | true => exact fun _ => rfl
      | false => exact respects_send ⟨rfl, rfl⟩ operation i
    | ok | value | eval => exact respects_stop _

theorem respects_update_resume (key : RouteKey) (at' : DateTime) (suspended : UpdateAwait)
    (reply : Reply) (i : Input) :
    Respects codec (Await.update key at' suspended).watched
      (lift (.update key at') (fun _ => .done)
        ((updateActivity codec key at').resume suspended reply i)) := by
  cases suspended with
  | watch =>
    cases reply with
    | ok => exact respects_send ⟨rfl, rfl⟩ _ i
    | value | exec | eval => exact respects_stop _
  | hget =>
    cases reply with
    | value current =>
      cases current with
      | none => exact respects_send ⟨rfl, rfl⟩ _ i
      | some current =>
        simp only [updateActivity]
        split
        · exact respects_stop _
        · split
          · exact respects_stop _
          · split
            · exact respects_stop _
            · exact respects_send ⟨rfl, rfl⟩ _ i
    | ok | exec | eval => exact respects_stop _
  | unwatch =>
    cases reply with
    | ok => exact fun _ => rfl
    | value | exec | eval => exact respects_stop _
  | exec =>
    cases reply with
    | exec applied =>
      cases applied with
      | true => exact fun _ => rfl
      | false => exact respects_send ⟨rfl, rfl⟩ _ i
    | ok | value | eval => exact respects_stop _

theorem respects_delete_resume (key : RouteKey) (suspended : DeleteAwait) (reply : Reply)
    (i : Input) :
    Respects codec false
      (lift (.delete key) .prior ((delete codec key).resume suspended reply i)) := by
  cases suspended with
  | hget =>
    cases reply with
    | value current =>
      cases current with
      | none => exact respects_send ⟨rfl, rfl⟩ _ i
      | some current =>
        simp only [delete]
        split
        · exact respects_stop _
        · split
          · exact respects_stop _
          · exact respects_send ⟨rfl, rfl⟩ _ i
    | ok | exec | eval => exact respects_stop _
  | eval prior =>
    cases reply with
    | eval code text =>
      simp only [delete]
      split
      · exact respects_stop _
      · split
        · exact fun _ => rfl
        · split
          · exact respects_send ⟨rfl, rfl⟩ _ i
          · exact respects_stop _
    | ok | value | exec => exact respects_stop _

theorem respects_fail (suspended : Await) : Respects codec armed (.stop (fail codec suspended)) := by
  intro h
  cases suspended <;> cases h

theorem respects_resume {suspended : Await} {request : Request} (h : Waits suspended request armed)
    (response : Response) (i : Input) :
    Respects codec (watch.armed armed request response)
      ((client codec).resume suspended response i) := by
  obtain ⟨hsends, rfl⟩ := h
  cases response with
  | error => cases suspended <;> exact respects_fail _
  | records records =>
    cases suspended with
    | hgetall =>
      cases request with
      | hgetall => exact fun _ => rfl
      | command | ping | hset => cases hsends
    | ping | hset | replace | update | delete => exact respects_fail _
  | reply reply =>
    rw [armed_of_sends hsends]
    cases suspended with
    | hgetall => exact respects_fail _
    | ping key encoded =>
      cases reply with
      | ok => exact ⟨rfl, rfl⟩
      | value | exec | eval => exact respects_fail (.ping key encoded)
    | hset =>
      cases reply with
      | ok => exact fun _ => rfl
      | value | exec | eval => exact respects_fail .hset
    | replace operation key data suspended =>
      exact respects_replace_resume operation key data suspended reply i
    | update key at' suspended => exact respects_update_resume key at' suspended reply i
    | delete key suspended => exact respects_delete_resume key suspended reply i

theorem client_disciplined : Session.Pool.Disciplined (client codec) watch Waits where
  start := respects_start
  resume := respects_resume

/-! The pool. -/

abbrev Pool := Session.Pool.State Operation Await Request Response (Except StoreError Outcome)

/-- `RedisStore::connect` opens the connection that is kept first. -/
def Pool.connect : Pool := Session.Pool.initial

def Pool.step (codec : Codec) :
    Pool → Session.Pool.Action Operation Input Response → Option Pool :=
  Session.Pool.step (client codec) watch

structure Pool.Exclusive (codec : Codec) (s : Pool) : Prop where
  /-- No two operations use a connection at once. -/
  used : ∀ t t' c, s.owned (some t) = some c → s.owned (some t') = some c → t = t'
  /-- No operation uses the connection in the slot, and none has left anything on it. -/
  stored : ∀ c, s.slot = some c → (s.connections c).Clean ∧ ∀ t, s.owned (some t) ≠ some c
  /-- What an operation finds on its connection is the command that it awaits, or the reply to it,
  and no watch but its own. -/
  awaited : ∀ t c request await, s.tasks t = some (.awaiting c request await) →
    (s.connections c).OwnedBy t request
  /-- An operation that lets go of its connection has stored it with nothing left on it, or has
  dropped it for good. -/
  released : ∀ action s', Pool.step codec s action = some s' →
    ∀ t c, s.owned (some t) = some c → s'.owned (some t) = some c ∨
      s'.slot = some c ∧ (s'.connections c).Clean ∨
      ∀ later s'', Transition.run (Pool.step codec) s' later = some s'' → s''.Dropped c

/-- Any number of operations run at once. The server gives any replies, deadlines pass, and
operations fail or are cancelled at any await. -/
theorem redis_connections_exclusive (actions : List (Session.Pool.Action Operation Input Response))
    {s : Pool} (h : Transition.run (Pool.step codec) Pool.connect actions = some s) :
    Pool.Exclusive codec s := by
  have hC : Session.Pool.Disciplined (client codec) watch Waits := client_disciplined
  have hinv := Session.Pool.Inv.of_run hC h
  refine ⟨?_, ?_, ?_, ?_⟩
  · intro t t' c hc hc'
    exact Option.some.inj (hinv.unique hc hc')
  · intro c hslot
    have hnone : s.owned none = some c := hslot
    refine ⟨?_, ?_⟩
    · rw [hinv.slot hslot]
      exact Session.Pool.clean_fresh
    · intro t ht
      cases hinv.unique hnone ht
  · intro t c request await htask
    obtain ⟨armed, -, hserves⟩ := hinv.task htask
    exact hserves.ownedBy
  · intro action s' hstep t c hc
    have hmove := Session.Pool.step_move hstep
    obtain hkept | hslot | hdropped := hinv.released hmove hc
    · exact .inl hkept
    · refine .inr (.inl ⟨hslot, ?_⟩)
      rw [(hinv.move hC hmove).slot hslot]
      exact Session.Pool.clean_fresh
    · exact .inr (.inr fun later s'' hrun => Session.Pool.dropped_run hdropped hrun)

/-- An update is cancelled while it watches the hash and awaits a reply, and a deletion that follows
opens a connection of its own. -/
def cancelledUpdate : List (Session.Pool.Action Operation Input Response) :=
  let i : Input := ⟨true, false, none⟩
  [.call 0 (.updateActivity (RouteKey.parse "/a") 0), .acquire 0 i, .execute 0 (.reply .ok),
    .receive 0 i, .call 1 (.delete (RouteKey.parse "/a")), .cancel 0, .acquire 1 i, .connect 1 i,
    .execute 1 (.reply (.value none)), .receive 1 i, .execute 1 (.reply (.eval 1 none)),
    .receive 1 i, .store 1]

theorem redis_connections_exclusive_cancelled_update :
    ∃ s, Transition.run (Pool.step (Json.text.codec .rfc3339)) Pool.connect cancelledUpdate =
        some s ∧
      s.slot = some 1 ∧ (s.connections 0).watch = some 0 ∧ (s.connections 0).queue.length = 1 ∧
      Pool.Exclusive (Json.text.codec .rfc3339) s :=
  ⟨_, rfl, rfl, rfl, rfl, redis_connections_exclusive cancelledUpdate rfl⟩

end ChpProxy.RedisStore
