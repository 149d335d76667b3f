import ChpProxy.Activity.Writer
import ChpProxy.Activity.Queue
import ChpProxy.Lib.Ledger

/-! The activity writer seen as a queue: the pending map, its worker, and the requests that were
made of the registry. Recorders, tokens and the registry itself are left out. -/
namespace ChpProxy

/-- What happens to the observations of a route. `handed` and `completed` are the start and the end
of a `persist_observed_activity` call, and `settled` is the critical section after it. -/
inductive QueueEvent where
  | accepted (key : RouteKey) (at' : DateTime)
  | dequeued (key : RouteKey) (at' : DateTime)
  | handed (key : RouteKey) (at' : DateTime)
  | completed (key : RouteKey) (at' : DateTime)
  | settled (key : RouteKey)
  deriving DecidableEq

namespace QueueEvent

/-- The acceptances of a route as entries, and what the worker takes as reports. -/
def observation (key : RouteKey) : QueueEvent → Option (Ledger.Event DateTime DateTime)
  | .accepted k at' => if k = key then some (.entry at') else none
  | .dequeued k at' => if k = key then some (.report at') else none
  | .handed .. | .completed .. | .settled _ => none

def observations (key : RouteKey) (l : List QueueEvent) : List (Ledger.Event DateTime DateTime) :=
  l.filterMap (observation key)

def handedAt (key : RouteKey) : QueueEvent → Option DateTime
  | .handed k at' => if k = key then some at' else none
  | _ => none

def handedTimes (key : RouteKey) (l : List QueueEvent) : List DateTime :=
  l.filterMap (handedAt key)

def acceptance : QueueEvent → Option (RouteKey × DateTime)
  | .accepted key at' => some (key, at')
  | _ => none

/-- The accepted observations; the one with number `n` stands at index `n - 1`. -/
def acceptances (l : List QueueEvent) : List (RouteKey × DateTime) := l.filterMap acceptance

def isSettled : QueueEvent → Bool
  | .settled _ => true
  | _ => false

/-- The end of a call that made this request. -/
def completion : Request → List QueueEvent
  | .persistObservedActivity key at' => [.completed key at']
  | _ => []

end QueueEvent

namespace WorkerPhase

def held : WorkerPhase → Option RouteKey
  | .dequeued key _ _ | .persisting _ key _ | .persisted key _ => some key
  | .waiting | .looping | .panicked => none

def taken (key : RouteKey) : WorkerPhase → List DateTime
  | .dequeued k at' _ => if k = key then [at'] else []
  | _ => []

/-- The worker is inside its inner loop, which it leaves only by finding the queue empty. -/
def inLoop : WorkerPhase → Bool
  | .waiting | .panicked => false
  | _ => true

end WorkerPhase

structure Queueing where
  pending : PendingActivities
  worker : WorkerPhase
  requests : List Request

namespace Queueing

/-- What one step can do to the queue, with what it means for the observations. -/
inductive Step (capacity : ℕ) (v : Queueing) : List QueueEvent → Queueing → Prop
  | other (requests : List Request) (hr : v.requests <+: requests) :
      Step capacity v [] { v with requests := requests }
  | accepted (key : RouteKey) (at' : DateTime) (pending : PendingActivities)
      (he : v.pending.enqueue capacity key at' = .accepted pending) :
      Step capacity v [.accepted key at'] { v with pending := pending }
  | recv (hw : v.worker = .waiting) : Step capacity v [] { v with worker := .looping }
  | idle (hw : v.worker = .looping) (hd : v.pending.dequeue = .empty) :
      Step capacity v [] { v with worker := .waiting }
  | dequeued (key : RouteKey) (at' : DateTime) (sequence : ℕ) (pending : PendingActivities)
      (hw : v.worker = .looping) (hd : v.pending.dequeue = .item key at' sequence pending) :
      Step capacity v [.dequeued key at']
        { v with worker := .dequeued key at' sequence, pending := pending }
  | panicked (pending : PendingActivities) (hw : v.worker = .looping)
      (hd : v.pending.dequeue = .panicked pending) :
      Step capacity v [] { v with worker := .panicked, pending := pending }
  | admitted (key : RouteKey) (at' : DateTime) (sequence : ℕ)
      (hw : v.worker = .dequeued key at' sequence) :
      Step capacity v [.handed key at']
        { v with
          worker := .persisting v.requests.length key sequence
          requests := v.requests ++ [.persistObservedActivity key at'] }
  | refused (key : RouteKey) (at' : DateTime) (sequence : ℕ)
      (hw : v.worker = .dequeued key at' sequence) :
      Step capacity v [.handed key at', .completed key at']
        { v with worker := .persisted key sequence }
  | persisted (i : ℕ) (key : RouteKey) (sequence : ℕ) (request : Request)
      (hw : v.worker = .persisting i key sequence) (hr : v.requests[i]? = some request) :
      Step capacity v (QueueEvent.completion request) { v with worker := .persisted key sequence }
  | complete (key : RouteKey) (sequence : ℕ) (hw : v.worker = .persisted key sequence) :
      Step capacity v [.settled key] { v with worker := .looping, pending := v.pending.complete key }

/-- The queue is well formed around the key the worker holds, and the worker is alive and waits
for a request of that key. -/
structure Intact (capacity : ℕ) (v : Queueing) : Prop where
  queue : v.pending.WellFormed capacity v.worker.held
  alive : v.worker ≠ .panicked
  numbered : v.pending.Numbered
  request : ∀ i key sequence, v.worker = .persisting i key sequence →
    ∃ at', v.requests[i]? = some (.persistObservedActivity key at')

variable {capacity : ℕ} {v v' : Queueing} {e l : List QueueEvent} {key : RouteKey}

theorem request_kept {requests : List Request} {i : ℕ} {request : Request}
    (hr : v.requests <+: requests) (h : v.requests[i]? = some request) :
    requests[i]? = some request := by
  obtain ⟨hlt, heq⟩ := List.getElem?_eq_some_iff.mp h
  exact List.getElem?_eq_some_iff.mpr ⟨hlt.trans_le hr.length_le, (hr.getElem hlt).symm.trans heq⟩

theorem Intact.step (h : v.Intact capacity) (hs : Step capacity v e v') : v'.Intact capacity := by
  obtain ⟨hq, halive, hn, hreq⟩ := h
  cases hs with
  | other requests hr =>
    refine ⟨hq, halive, hn, fun i key sequence hw => ?_⟩
    obtain ⟨at', hi⟩ := hreq i key sequence hw
    exact ⟨at', request_kept hr hi⟩
  | accepted key at' pending he =>
    exact ⟨hq.enqueue he, halive, PendingActivities.numbered_enqueue hn he, hreq⟩
  | recv hw =>
    rw [hw] at hq
    exact ⟨hq, nofun, hn, nofun⟩
  | idle hw hd =>
    rw [hw] at hq
    exact ⟨hq, nofun, hn, nofun⟩
  | dequeued key at' sequence pending hw hd =>
    rw [hw] at hq
    exact ⟨hq.dequeue hd, nofun, PendingActivities.numbered_dequeue hn hd, nofun⟩
  | panicked pending hw hd => exact absurd hd (hq.dequeue_ne_panicked pending)
  | admitted key at' sequence hw =>
    rw [hw] at hq
    refine ⟨hq, nofun, hn, fun i k n hi => ?_⟩
    cases hi
    exact ⟨at', by simp⟩
  | refused key at' sequence hw =>
    rw [hw] at hq
    exact ⟨hq, nofun, hn, nofun⟩
  | persisted i key sequence request hw hr =>
    rw [hw] at hq
    exact ⟨hq, nofun, hn, nofun⟩
  | complete key sequence hw =>
    rw [hw] at hq
    exact ⟨hq.complete, nofun, PendingActivities.numbered_complete hn key, nofun⟩

/-- The observations of a route and the timestamps its persistence is given: an account closes when
the worker takes the route, and the worker hands on what it took. -/
structure Timed (key : RouteKey) (l : List QueueEvent) (v : Queueing) : Prop where
  closed : ∀ account ∈ (Ledger.book (QueueEvent.observations key l)).closed,
    ∀ at' ∈ account.1, at' ≤ account.2
  pending : ∀ at' ∈ (Ledger.book (QueueEvent.observations key l)).pending,
    ∃ q, PendingActivities.Queued key at' q v.pending
  handed : (Ledger.book (QueueEvent.observations key l)).closed.map (·.2) =
    QueueEvent.handedTimes key l ++ v.worker.taken key

theorem Timed.silent (h : Timed key l v) (ho : QueueEvent.observations key e = [])
    (hpending : ∀ at' q, PendingActivities.Queued key at' q v.pending →
      PendingActivities.Queued key at' q v'.pending)
    (hworker : QueueEvent.handedTimes key e ++ v'.worker.taken key = v.worker.taken key) :
    Timed key (l ++ e) v' := by
  have hobs : QueueEvent.observations key (l ++ e) = QueueEvent.observations key l := by
    rw [QueueEvent.observations, List.filterMap_append]
    exact (congrArg _ ho).trans (List.append_nil _)
  have hhanded : QueueEvent.handedTimes key (l ++ e) =
      QueueEvent.handedTimes key l ++ QueueEvent.handedTimes key e := List.filterMap_append
  refine ⟨hobs ▸ h.closed, ?_, ?_⟩
  · rw [hobs]
    intro at' hat
    obtain ⟨q, hq⟩ := h.pending at' hat
    exact ⟨q, hpending at' q hq⟩
  · rw [hobs, hhanded, List.append_assoc, hworker]
    exact h.handed

theorem Timed.accepted {k : RouteKey} {at' : DateTime} {pending : PendingActivities}
    (h : Timed key l v) (hn : v.pending.Numbered)
    (he : v.pending.enqueue capacity k at' = .accepted pending) :
    Timed key (l ++ [.accepted k at']) { v with pending := pending } := by
  by_cases hk : k = key
  · subst hk
    have hobs : QueueEvent.observations k (l ++ [.accepted k at']) =
        QueueEvent.observations k l ++ [.entry at'] := by
      simp [QueueEvent.observations, QueueEvent.observation]
    have hhanded : QueueEvent.handedTimes k (l ++ [.accepted k at']) =
        QueueEvent.handedTimes k l := by
      simp [QueueEvent.handedTimes, QueueEvent.handedAt]
    constructor
    · rw [hobs, Ledger.book_concat]
      exact h.closed
    · rw [hobs, Ledger.book_concat]
      intro a ha
      rcases List.mem_append.mp ha with hold | hnew
      · obtain ⟨q, hq⟩ := h.pending a hold
        exact ⟨q, PendingActivities.queued_enqueue hq he⟩
      · rw [List.mem_singleton.mp hnew]
        exact ⟨_, PendingActivities.queued_of_enqueue hn he⟩
    · rw [hobs, Ledger.book_concat, hhanded]
      exact h.handed
  · apply h.silent
    · simp [QueueEvent.observations, QueueEvent.observation, hk]
    · intro a q hq
      exact PendingActivities.queued_enqueue hq he
    · simp [QueueEvent.handedTimes, QueueEvent.handedAt]

theorem Timed.dequeued {k : RouteKey} {at' : DateTime} {sequence : ℕ}
    {pending : PendingActivities} (h : Timed key l v) (hw : v.worker = .looping)
    (hd : v.pending.dequeue = .item k at' sequence pending) :
    Timed key (l ++ [.dequeued k at'])
      { v with worker := .dequeued k at' sequence, pending := pending } := by
  have htaken : v.worker.taken key = [] := by
    rw [hw]
    rfl
  by_cases hk : k = key
  · subst hk
    have hobs : QueueEvent.observations k (l ++ [.dequeued k at']) =
        QueueEvent.observations k l ++ [.report at'] := by
      simp [QueueEvent.observations, QueueEvent.observation]
    have hhanded : QueueEvent.handedTimes k (l ++ [.dequeued k at']) =
        QueueEvent.handedTimes k l := by
      simp [QueueEvent.handedTimes, QueueEvent.handedAt]
    obtain ⟨-, -, -, e, he, hlatest, -⟩ := PendingActivities.dequeue_eq_item hd
    constructor
    · rw [hobs, Ledger.book_concat]
      intro account hmem a ha
      rcases List.mem_append.mp hmem with hold | hnew
      · exact h.closed account hold a ha
      · rw [List.mem_singleton.mp hnew] at ha ⊢
        obtain ⟨q, e', n, he', hle, -⟩ := h.pending a ha
        obtain rfl := Option.some.inj (he.symm.trans he')
        exact hle.trans hlatest.le
    · rw [hobs, Ledger.book_concat]
      nofun
    · rw [hobs, Ledger.book_concat, hhanded]
      have hold := h.handed
      rw [htaken, List.append_nil] at hold
      simp [Ledger.Book.record, WorkerPhase.taken, hold]
  · apply h.silent
    · simp [QueueEvent.observations, QueueEvent.observation, hk]
    · intro a q hq
      rcases PendingActivities.queued_dequeue hq hd with hq' | ⟨hkey, -⟩
      · exact hq'
      · exact absurd hkey hk
    · rw [htaken]
      simp [QueueEvent.handedTimes, QueueEvent.handedAt, WorkerPhase.taken, hk]

theorem Timed.step (h : Timed key l v) (hi : v.Intact capacity) (hs : Step capacity v e v') :
    Timed key (l ++ e) v' := by
  cases hs with
  | other requests hr => exact h.silent rfl (fun _ _ hq => hq) rfl
  | accepted k at' pending he => exact h.accepted hi.numbered he
  | recv hw => exact h.silent rfl (fun _ _ hq => hq) (by rw [hw]; rfl)
  | idle hw hd => exact h.silent rfl (fun _ _ hq => hq) (by rw [hw]; rfl)
  | dequeued k at' sequence pending hw hd => exact h.dequeued hw hd
  | panicked pending hw hd => exact absurd hd (hi.queue.dequeue_ne_panicked pending)
  | admitted k at' sequence hw =>
    apply h.silent
    · rfl
    · exact fun _ _ hq => hq
    · by_cases hk : k = key <;>
        simp [hw, QueueEvent.handedTimes, QueueEvent.handedAt, WorkerPhase.taken, hk]
  | refused k at' sequence hw =>
    apply h.silent
    · rfl
    · exact fun _ _ hq => hq
    · by_cases hk : k = key <;>
        simp [hw, QueueEvent.handedTimes, QueueEvent.handedAt, WorkerPhase.taken, hk]
  | persisted i k sequence request hw hr =>
    have hsilent : QueueEvent.observations key (QueueEvent.completion request) = [] ∧
        QueueEvent.handedTimes key (QueueEvent.completion request) = [] := by
      cases request <;> exact ⟨rfl, rfl⟩
    apply h.silent hsilent.1
    · exact fun _ _ hq => hq
    · rw [hsilent.2, hw]
      rfl
  | complete k sequence hw =>
    exact h.silent rfl (fun _ _ hq => PendingActivities.queued_complete hq k) (by rw [hw]; rfl)

end Queueing

end ChpProxy
