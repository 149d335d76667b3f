import ChpProxy.Lib.Transition
import Mathlib.Algebra.Group.Nat.Defs
import Mathlib.Data.List.Destutter

/-! `BoundedResolver` of `errors.rs`: a cache of one set of addresses, the worker that fills it, the
calls that wait for the worker, and the attempts that hold a lease. One step for each stretch of
code under one lock or between two waits. -/
namespace ChpProxy.Errors

inductive ErrorKind where
  | notFound
  | wouldBlock
  | brokenPipe
  | interrupted
  | other (name : String)
  deriving DecidableEq

structure IoError where
  kind : ErrorKind
  message : String
  deriving DecidableEq

/-- Instants count milliseconds. -/
abbrev Instant := ℕ

def maxResolvedAddresses : ℕ := 16
def resolverQueueCapacity : ℕ := 8
def resolverCacheTtl : ℕ := 30000

structure CachedAddresses (α : Type) where
  addresses : List α
  generation : ℕ
  expiresAt : Instant
  deriving DecidableEq

structure ResolverCache (α : Type) where
  current : Option (CachedAddresses α)
  generation : ℕ
  leasedGeneration : Option ℕ
  deriving DecidableEq

namespace ResolverCache

variable {α : Type}

def default : ResolverCache α := ⟨none, 0, none⟩

/-- Forget addresses that have expired and are not leased, and return the others. -/
def fresh (now : Instant) (cache : ResolverCache α) :
    ResolverCache α × Option (CachedAddresses α) :=
  let cache :=
    if cache.current.any fun cached =>
        cached.expiresAt ≤ now ∧ cache.leasedGeneration ≠ some cached.generation then
      { cache with current := none }
    else cache
  (cache, cache.current)

def lease (generation : ℕ) (cache : ResolverCache α) : ResolverCache α × Bool :=
  if cache.current.any (·.generation = generation) ∧ cache.leasedGeneration.isNone then
    ({ cache with leasedGeneration := some generation }, true)
  else (cache, false)

def finishLease (generation : ℕ) (succeeded : Bool) (cache : ResolverCache α) :
    ResolverCache α :=
  let cache :=
    if cache.leasedGeneration = some generation then { cache with leasedGeneration := none }
    else cache
  if !succeeded ∧ cache.current.any (·.generation = generation) then { cache with current := none }
  else cache

/-- What the worker does with addresses it looked up. The counter is a `u64`. -/
def install (now : Instant) (addresses : List α) (cache : ResolverCache α) :
    ResolverCache α × CachedAddresses α :=
  let generation := (cache.generation + 1) % 2 ^ 64
  let cached := ⟨addresses, generation, now + resolverCacheTtl⟩
  ({ cache with generation := generation, current := some cached }, cached)

end ResolverCache

/-- The two kinds of calls that ask the worker. -/
inductive CallKind where
  | ensureCached
  | connector
  deriving DecidableEq

/-- A call after it found the cache empty. `returned` is what a connector call returned; a call of
`ensure_cached` that succeeds has become an attempt. -/
inductive Call (α : Type) where
  | missed (kind : CallKind)
  | waiting (kind : CallKind)
  | answered (kind : CallKind) (response : Except IoError (CachedAddresses α))
  | returned (result : Except IoError (List α))
  | leased
  | failed (error : IoError)
  | cancelled

/-- Where the worker stands. The first request of a batch is known before the others. -/
inductive Worker (α : Type) where
  | idle
  | dequeued (first : ℕ)
  | looking (first : ℕ)
  | found (first : ℕ) (addresses : List α)
  | resolved (first : ℕ) (result : Except IoError (CachedAddresses α))
  | answering (result : Except IoError (CachedAddresses α)) (pending : List ℕ)

/-- The resolver with everything that uses it. `attempts` are the generations of the attempts that
are not dropped, and `history` every set of addresses installed so far, oldest first. -/
structure Resolver (α : Type) where
  now : Instant
  cache : ResolverCache α
  queue : List ℕ
  worker : Worker α
  calls : List (Call α)
  attempts : List ℕ
  history : List (CachedAddresses α)

inductive ResolverAction (α : Type) where
  | tick (elapsed : ℕ)
  | ensureCached
  | connector
  | trySend (call : ℕ)
  | resume (call : ℕ)
  | cancel (call : ℕ)
  | drop (attempt : ℕ) (succeeded : Bool)
  | dequeue
  | checkCache
  | lookup (result : Except IoError (List α))
  | install
  | takeBatch
  | send

namespace Resolver

variable {α : Type}

def start : Resolver α := ⟨0, .default, [], .idle, [], [], []⟩

def generationUnavailable : IoError :=
  ⟨.wouldBlock, "custom-error resolver generation unavailable"⟩

def queueUnavailable : IoError := ⟨.wouldBlock, "custom-error resolver queue unavailable"⟩

def generationChanged : IoError := ⟨.interrupted, "custom-error resolver generation changed"⟩

def noAddresses : IoError := ⟨.notFound, "custom-error hostname resolved to no addresses"⟩

/-- The first lock of `ensure_cached`. A lease becomes an attempt at once. -/
def ensureCached (s : Resolver α) : Resolver α :=
  match s.cache.fresh s.now with
  | (cache, none) => { s with cache := cache, calls := s.calls ++ [.missed .ensureCached] }
  | (cache, some cached) => match cache.lease cached.generation with
    | (cache, true) =>
      { s with cache := cache, calls := s.calls ++ [.leased],
               attempts := cached.generation :: s.attempts }
    | (cache, false) =>
      { s with cache := cache, calls := s.calls ++ [.failed generationUnavailable] }

/-- `Service::call` for the configured host, up to its wait. -/
def connector (s : Resolver α) : Resolver α :=
  match s.cache.fresh s.now with
  | (cache, none) => { s with cache := cache, calls := s.calls ++ [.missed .connector] }
  | (cache, some cached) =>
    { s with cache := cache, calls := s.calls ++ [.returned (.ok cached.addresses)] }

/-- A request does not fit into a full queue. The worker never closes its end. -/
def trySend (s : Resolver α) (i : ℕ) : Option (Resolver α) :=
  match s.calls[i]? with
  | some (.missed kind) =>
    if s.queue.length < resolverQueueCapacity then
      some { s with queue := s.queue ++ [i], calls := s.calls.set i (.waiting kind) }
    else match kind with
      | .ensureCached => some { s with calls := s.calls.set i (.failed queueUnavailable) }
      | .connector => some { s with calls := s.calls.set i (.returned (.error queueUnavailable)) }
  | _ => none

/-- A call goes on with the response of the worker. -/
def resume (s : Resolver α) (i : ℕ) : Option (Resolver α) :=
  match s.calls[i]? with
  | some (.answered .connector response) =>
    some { s with calls := s.calls.set i (.returned (response.map CachedAddresses.addresses)) }
  | some (.answered .ensureCached (.error error)) =>
    some { s with calls := s.calls.set i (.failed error) }
  | some (.answered .ensureCached (.ok cached)) => match s.cache.lease cached.generation with
    | (cache, true) =>
      some { s with cache := cache, calls := s.calls.set i .leased,
                    attempts := cached.generation :: s.attempts }
    | (cache, false) =>
      some { s with cache := cache, calls := s.calls.set i (.failed generationChanged) }
  | _ => none

/-- A call can be dropped while it waits, also when its response is there already. -/
def cancel (s : Resolver α) (i : ℕ) : Option (Resolver α) :=
  match s.calls[i]? with
  | some (.waiting _) | some (.answered ..) => some { s with calls := s.calls.set i .cancelled }
  | _ => none

/-- The destructor of an attempt. -/
def drop (s : Resolver α) (i : ℕ) (succeeded : Bool) : Option (Resolver α) :=
  match s.attempts[i]? with
  | some generation =>
    some { s with cache := s.cache.finishLease generation succeeded,
                  attempts := s.attempts.eraseIdx i }
  | none => none

/-- The worker sends to every request of the batch; nobody listens to a cancelled call. -/
def deliver (calls : List (Call α)) (i : ℕ) (result : Except IoError (CachedAddresses α)) :
    List (Call α) :=
  match calls[i]? with
  | some (.waiting kind) => calls.set i (.answered kind result)
  | _ => calls

def work [DecidableEq α] (s : Resolver α) : ResolverAction α → Option (Resolver α)
  | .dequeue => match s.worker, s.queue with
    | .idle, first :: queue => some { s with worker := .dequeued first, queue := queue }
    | _, _ => none
  | .checkCache => match s.worker with
    | .dequeued first => match s.cache.fresh s.now with
      | (cache, some cached) => some { s with cache := cache, worker := .resolved first (.ok cached) }
      | (cache, none) => some { s with cache := cache, worker := .looking first }
    | _ => none
  | .lookup result => match s.worker with
    | .looking first => match result with
      | .error error => some { s with worker := .resolved first (.error error) }
      | .ok addresses =>
        let addresses := (addresses.take maxResolvedAddresses).destutter (· ≠ ·)
        if addresses.isEmpty then some { s with worker := .resolved first (.error noAddresses) }
        else some { s with worker := .found first addresses }
    | _ => none
  | .install => match s.worker with
    | .found first addresses =>
      let (cache, cached) := s.cache.install s.now addresses
      some { s with cache := cache, worker := .resolved first (.ok cached),
                    history := s.history ++ [cached] }
    | _ => none
  | .takeBatch => match s.worker with
    | .resolved first result =>
      let waiting := min s.queue.length (resolverQueueCapacity - 1)
      some { s with worker := .answering result (first :: s.queue.take waiting),
                    queue := s.queue.drop waiting }
    | _ => none
  | .send => match s.worker with
    | .answering result (i :: pending) =>
      some { s with calls := deliver s.calls i result,
                    worker := if pending.isEmpty then .idle else .answering result pending }
    | _ => none
  | _ => none

def step [DecidableEq α] (s : Resolver α) : ResolverAction α → Option (Resolver α)
  | .tick elapsed => some { s with now := s.now + elapsed }
  | .ensureCached => some s.ensureCached
  | .connector => some s.connector
  | .trySend i => s.trySend i
  | .resume i => s.resume i
  | .cancel i => s.cancel i
  | .drop i succeeded => s.drop i succeeded
  | action => s.work action

abbrev run [DecidableEq α] : Resolver α → List (ResolverAction α) → Option (Resolver α) :=
  Transition.run step

end Resolver

end ChpProxy.Errors
