import ChpProxy.Lib.Session.Machine
import ChpProxy.Store.Codec
import ChpProxy.Store.Trait

/-! The mutators of the Redis store (`store/redis.rs`) as programs that exchange commands with a
shared server. -/
namespace ChpProxy.RedisStore

abbrev Hash := Std.ExtTreeMap String (List UInt8)

/-- The route hash, and the `WATCH` of this connection on it. -/
structure Redis where
  hash : Hash
  watched : Bool
  dirty : Bool

/-- The commands on the route hash. A replacement is one pipeline of `MULTI`, `HSET` and
`EXEC`. -/
inductive Command where
  | watch
  | unwatch
  | hget (field : String)
  | exec (field : String) (value : List UInt8)
  | eval (field : String) (exists' : String) (expected : List UInt8)

/-- The commands that write to the hash. -/
def Command.isMutating : Command → Bool
  | .watch | .unwatch | .hget _ => false
  | .exec .. | .eval .. => true

inductive Reply where
  | ok
  | value (value : Option (List UInt8))
  | exec (applied : Bool)
  | eval (code : ℤ) (prior : Option (List UInt8))

/-- `DELETE_SCRIPT`. -/
def deleteScript (hash : Hash) (field exists' : String) (expected : List UInt8) :
    Hash × ℤ × Option (List UInt8) :=
  let prior := hash[field]?
  let expectedExists := exists' == "1"
  if prior.isSome != expectedExists || prior.any (· != expected) then (hash, 0, prior)
  else (if prior.isSome then hash.erase field else hash, 1, prior)

namespace Redis

/-- Any client's write to the hash marks the connections that watch it. -/
def write (redis : Redis) (hash : Hash) : Redis :=
  { redis with hash := hash, dirty := redis.dirty || redis.watched }

/-- `EXEC` and `UNWATCH` forget the watch. -/
def forget (redis : Redis) : Redis := { redis with watched := false, dirty := false }

def serve : Command → Redis → Redis × Reply
  | .watch, redis => ({ redis with watched := true }, .ok)
  | .unwatch, redis => (redis.forget, .ok)
  | .hget field, redis => (redis, .value redis.hash[field]?)
  | .exec field value, redis =>
    if redis.watched && redis.dirty then (redis.forget, .exec false)
    else ({ redis.forget with hash := redis.hash.insert field value }, .exec true)
  | .eval field exists' expected, redis =>
    let (hash, code, prior) := deleteScript redis.hash field exists' expected
    (if code = 1 ∧ prior.isSome then redis.write hash else redis, .eval code prior)

end Redis

/-- The other clients replace the contents of the hash at will. -/
def server : Session.Server Redis Command Reply Hash where
  serve := Redis.serve
  disturb hash redis := redis.write hash

/-- What an operation observes: whether it got a connection, whether its deadline has passed, and
the activity floor. -/
structure Input where
  connected : Bool
  expired : Bool
  floor : Option DateTime

variable (codec : Codec)

/-- The derived form of a route, with its instant at full precision. Flattened metadata replaces a
target of its own. -/
def toObject (data : RouteData) : Map :=
  (data.extra.insertIfNew "target" (.string data.target)).insert "last_activity"
    (.string (codec.toRfc3339 data.lastActivity))

def encode (operation : String) (data : RouteData) : Except StoreError (List UInt8) :=
  (codec.toVec (toObject codec data).toList).elim
    (.error (.corruptData operation "<outgoing>")) .ok

def decode (operation key : String) (encoded : List UInt8) : Except StoreError RouteData :=
  ((codec.fromSlice encoded).bind (RouteData.visitMap codec.parseDateTime false · none none ∅)).elim
    (.error (.corruptData operation key)) .ok

def isText (bytes : List UInt8) : Bool := (ByteArray.mk bytes.toArray).validateUTF8

abbrev Next (l α : Type) := Session.Next l Command (Except StoreError α)

/-- What an operation makes use of besides its replies are the floors it samples. -/
abbrev Program (l α : Type) :=
  Session.Program Input l Command Reply (Except StoreError α) (Option DateTime)

def stop {l α : Type} (e : StoreError) : Next l α := .stop (.error e)

/-- The deadline check before a command. -/
def useRemainingTimeout {l α : Type} (operation : String) (i : Input) (next : Next l α) :
    Next l α :=
  if i.expired then stop (.backend operation) else next

def takeConnection {l α : Type} (operation : String) (i : Input) (next : Next l α) : Next l α :=
  if i.connected then next else stop (.backend operation)

inductive ReplaceAwait where
  | watch (data : RouteData)
  | exec (data committed : RouteData)

/-- A sampled floor never lowers the instant of the record. -/
def raise (data : RouteData) : Option DateTime → RouteData
  | some floor => { data with lastActivity := max data.lastActivity floor }
  | none => data

/-- The retry loop of a replacement. Every turn samples the floor again. -/
def atomicReplace (operation : String) (key : RouteKey) (data : RouteData) :
    Program ReplaceAwait RouteData :=
  let top (data : RouteData) (i : Input) : Next ReplaceAwait RouteData :=
    useRemainingTimeout operation i (.send .watch (.watch data))
  let fail : ReplaceAwait → StoreError
    | .watch _ => .backend operation
    | .exec .. => .indeterminate operation
  { start := fun i => takeConnection operation i (top data i)
    resume := fun
      | .watch data, .ok, i =>
        let data := raise data i.floor
        match encode codec operation data with
        | .error e => stop e
        | .ok encoded => match decode codec operation key.asStr encoded with
          | .error e => stop e
          | .ok committed => useRemainingTimeout operation i
              (.send (.exec key.asStr encoded) (.exec data committed))
      | .exec _ committed, .exec true, _ => .stop (.ok committed)
      | .exec data _, .exec false, i => top data i
      | await, _, _ => stop (fail await)
    fail := fun await => .error (fail await)
    observe := fun
      | .watch _, .ok, i => [i.floor]
      | _, _, _ => [] }

def add (now : DateTime) (key : RouteKey) (target : String) (extra : Map) :
    Program ReplaceAwait RouteData :=
  atomicReplace codec "add" key ⟨target, now, extra⟩

def putPreservingActivity (key : RouteKey) (data : RouteData) : Program ReplaceAwait RouteData :=
  atomicReplace codec "put" key data

inductive UpdateAwait where
  | watch
  | hget
  | unwatch
  | exec

def updateActivity (key : RouteKey) (at' : DateTime) : Program UpdateAwait Unit :=
  let operation := "update_activity"
  let top (i : Input) : Next UpdateAwait Unit :=
    useRemainingTimeout operation i (.send .watch .watch)
  let fail : UpdateAwait → StoreError
    | .watch | .hget | .unwatch => .backend operation
    | .exec => .indeterminate operation
  { start := fun i => takeConnection operation i (top i)
    resume := fun
      | .watch, .ok, i => useRemainingTimeout operation i (.send (.hget key.asStr) .hget)
      | .hget, .value none, i => useRemainingTimeout operation i (.send .unwatch .unwatch)
      | .hget, .value (some current), i =>
        if !isText current then stop (fail .hget)
        else match decode codec operation key.asStr current with
          | .error e => stop e
          | .ok data => match encode codec operation { data with lastActivity := at' } with
            | .error e => stop e
            | .ok encoded => useRemainingTimeout operation i (.send (.exec key.asStr encoded) .exec)
      | .unwatch, .ok, _ => .stop (.ok ())
      | .exec, .exec true, _ => .stop (.ok ())
      | .exec, .exec false, i => top i
      | await, _, _ => stop (fail await)
    fail := fun await => .error (fail await)
    observe := fun _ _ _ => [] }

inductive DeleteAwait where
  | hget
  | eval (prior : Option RouteData)

def delete (key : RouteKey) : Program DeleteAwait (Option RouteData) :=
  let operation := "delete"
  let top (i : Input) : Next DeleteAwait (Option RouteData) :=
    useRemainingTimeout operation i (.send (.hget key.asStr) .hget)
  let fail : DeleteAwait → StoreError
    | .hget => .backend operation
    | .eval _ => .indeterminate operation
  { start := fun i => takeConnection operation i (top i)
    resume := fun
      | .hget, .value none, i =>
        useRemainingTimeout operation i (.send (.eval key.asStr "0" []) (.eval none))
      | .hget, .value (some current), i =>
        if !isText current then stop (fail .hget)
        else match decode codec operation key.asStr current with
          | .error e => stop e
          | .ok prior =>
            useRemainingTimeout operation i
              (.send (.eval key.asStr "1" current) (.eval (some prior)))
      | .eval prior, .eval code text, i =>
        if text.any (!isText ·) then stop (fail (.eval prior))
        else if code = 1 then .stop (.ok prior)
        else if code = 0 then top i
        else stop (.indeterminate operation)
      | await, _, _ => stop (fail await)
    fail := fun await => .error (fail await)
    observe := fun _ _ _ => [] }

end ChpProxy.RedisStore
