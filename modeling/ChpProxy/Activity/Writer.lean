import ChpProxy.Activity.Pending
import ChpProxy.Registry.Machine

/-! `ActivityWriter` as a state machine over the registry it persists through: any number of
`record_at` calls, the wake-up channel of capacity one, and the single worker. -/
namespace ChpProxy

/-- One call of `record_at`. -/
inductive RecorderPhase where
  | observing (j : ℕ)
  | observed
  | enqueued
  | done
  | panicked

structure Recorder where
  key : RouteKey
  at' : DateTime
  phase : RecorderPhase

/-- The persistence worker: it waits for a token, takes a key at the top of its loop, calls
`persist_observed_activity`, awaits the mutation, and settles the key. -/
inductive WorkerPhase where
  | waiting
  | looping
  | dequeued (key : RouteKey) (at' : DateTime) (sequence : ℕ)
  | persisting (i : ℕ) (key : RouteKey) (sequence : ℕ)
  | persisted (key : RouteKey) (sequence : ℕ)
  | panicked

structure Writer (σ : Type) where
  registry : Registry σ
  pending : PendingActivities
  pendingCapacity : ℕ
  wake : Bool
  worker : WorkerPhase
  recorders : List Recorder
  persistenceErrors : ℕ
  droppedObservations : ℕ

/-- The steps of the writer and of everyone else who uses its registry. -/
inductive WriterAction (ι : Type) where
  | registry (a : Action ι)
  | record (key : RouteKey) (at' : DateTime)
  | observed (r : ℕ)
  | enqueue (r : ℕ)
  | notify (r : ℕ)
  | recv
  | dequeue
  | persist
  | persisted
  | complete

namespace Writer

variable {σ ι : Type}

/-- Start the worker; the capacity is at least one. -/
def start (registry : Registry σ) (pendingCapacity : ℕ) : Writer σ where
  registry := registry
  pending := .default
  pendingCapacity := max pendingCapacity 1
  wake := false
  worker := .waiting
  recorders := []
  persistenceErrors := 0
  droppedObservations := 0

def fetchAdd (n : ℕ) : ℕ := (n + 1) % 2 ^ 64

def setRecorder (w : Writer σ) (r : ℕ) (phase : RecorderPhase) : Writer σ :=
  { w with recorders := w.recorders.modify r ({ · with phase := phase }) }

/-- The worker's own mutation runs on its runtime and is never cancelled, and the seal belongs to
the shutdown coordinator. -/
def Allows (w : Writer σ) : Action ι → Bool
  | .cancel i | .runtimeUnavailable i => match w.worker with
    | .persisting k _ _ => i ≠ k
    | _ => true
  | .drain | .pollDrain _ | .deadline _ => false
  | _ => true

def stepRecorder (w : Writer σ) (r : ℕ) (recorder : Recorder) : WriterAction ι → Option (Writer σ)
  | .observed _ => match recorder.phase with
    | .observing j => match w.registry.observers[j]? with
      | some ⟨_, _, .returned true⟩ => some (w.setRecorder r .observed)
      | some ⟨_, _, .returned false⟩ => some (w.setRecorder r .done)
      | _ => none
    | _ => none
  | .enqueue _ => match recorder.phase with
    | .observed => match w.pending.enqueue w.pendingCapacity recorder.key recorder.at' with
      | .dropped => some
        { w.setRecorder r .done with droppedObservations := fetchAdd w.droppedObservations }
      | .exhausted => some (w.setRecorder r .panicked)
      | .accepted pending => some { w.setRecorder r .enqueued with pending := pending }
    | _ => none
  | .notify _ => match recorder.phase with
    | .enqueued => match w.worker with
      | .panicked => some
        { w.setRecorder r .done with persistenceErrors := fetchAdd w.persistenceErrors }
      | _ => some { w.setRecorder r .done with wake := true }
    | _ => none
  | _ => none

def stepWorker (S : Store σ ι) (w : Writer σ) : WriterAction ι → Option (Writer σ)
  | .recv => match w.worker, w.wake with
    | .waiting, true => some { w with worker := .looping, wake := false }
    | _, _ => none
  | .dequeue => match w.worker with
    | .looping => match w.pending.dequeue with
      | .empty => some { w with worker := .waiting }
      | .item key at' sequence pending =>
        some { w with worker := .dequeued key at' sequence, pending := pending }
      | .panicked pending => some { w with worker := .panicked, pending := pending }
    | _ => none
  | .persist => match w.worker with
    | .dequeued key at' sequence =>
      (w.registry.step S (.begin (.persistObservedActivity key at'))).map fun registry =>
        if w.registry.tasks.length < registry.tasks.length then
          { w with registry := registry, worker := .persisting w.registry.tasks.length key sequence }
        else
          { w with
            registry := registry
            worker := .persisted key sequence
            persistenceErrors := fetchAdd w.persistenceErrors }
    | _ => none
  | .persisted => match w.worker with
    | .persisting i key sequence => match w.registry.tasks[i]? with
      | some ⟨_, _, .returned (.ok _)⟩ => some { w with worker := .persisted key sequence }
      | some ⟨_, _, .returned (.error _)⟩ => some
        { w with
          worker := .persisted key sequence
          persistenceErrors := fetchAdd w.persistenceErrors }
      | _ => none
    | _ => none
  | .complete => match w.worker with
    | .persisted key _ => some { w with worker := .looping, pending := w.pending.complete key }
    | _ => none
  | _ => none

def step (S : Store σ ι) (w : Writer σ) (a : WriterAction ι) : Option (Writer σ) :=
  match a with
  | .registry b =>
    if w.Allows b then (w.registry.step S b).map ({ w with registry := · }) else none
  | .record key at' => (w.registry.step S (.observe key at')).map fun registry =>
    { w with
      registry := registry
      recorders := w.recorders ++ [⟨key, at', .observing w.registry.observers.length⟩] }
  | .observed r | .enqueue r | .notify r => (w.recorders[r]?).bind (w.stepRecorder r · a)
  | .recv | .dequeue | .persist | .persisted | .complete => w.stepWorker S a

abbrev run (S : Store σ ι) : Writer σ → List (WriterAction ι) → Option (Writer σ) :=
  Transition.run (step S)

inductive Step (S : Store σ ι) (w : Writer σ) : WriterAction ι → Writer σ → Prop
  | registry (b : Action ι) (registry : Registry σ) (hallow : w.Allows b = true)
      (hs : w.registry.step S b = some registry) :
      Step S w (.registry b) { w with registry := registry }
  | record (key : RouteKey) (at' : DateTime) (registry : Registry σ)
      (hs : w.registry.step S (.observe key at') = some registry) :
      Step S w (.record key at') { w with
        registry := registry
        recorders := w.recorders ++ [⟨key, at', .observing w.registry.observers.length⟩] }
  | observed (r : ℕ) (recorder : Recorder) (j : ℕ) (o : Observer) (updated : Bool)
      (hr : w.recorders[r]? = some recorder) (hp : recorder.phase = .observing j)
      (ho : w.registry.observers[j]? = some o) (hret : o.phase = .returned updated) :
      Step S w (.observed r) (w.setRecorder r (if updated then .observed else .done))
  | dropped (r : ℕ) (recorder : Recorder) (hr : w.recorders[r]? = some recorder)
      (hp : recorder.phase = .observed)
      (he : w.pending.enqueue w.pendingCapacity recorder.key recorder.at' = .dropped) :
      Step S w (.enqueue r)
        { w.setRecorder r .done with droppedObservations := fetchAdd w.droppedObservations }
  | exhausted (r : ℕ) (recorder : Recorder) (hr : w.recorders[r]? = some recorder)
      (hp : recorder.phase = .observed)
      (he : w.pending.enqueue w.pendingCapacity recorder.key recorder.at' = .exhausted) :
      Step S w (.enqueue r) (w.setRecorder r .panicked)
  | accepted (r : ℕ) (recorder : Recorder) (pending : PendingActivities)
      (hr : w.recorders[r]? = some recorder) (hp : recorder.phase = .observed)
      (he : w.pending.enqueue w.pendingCapacity recorder.key recorder.at' = .accepted pending) :
      Step S w (.enqueue r) { w.setRecorder r .enqueued with pending := pending }
  | closed (r : ℕ) (recorder : Recorder) (hr : w.recorders[r]? = some recorder)
      (hp : recorder.phase = .enqueued) (hw : w.worker = .panicked) :
      Step S w (.notify r)
        { w.setRecorder r .done with persistenceErrors := fetchAdd w.persistenceErrors }
  | notify (r : ℕ) (recorder : Recorder) (hr : w.recorders[r]? = some recorder)
      (hp : recorder.phase = .enqueued) (hw : w.worker ≠ .panicked) :
      Step S w (.notify r) { w.setRecorder r .done with wake := true }
  | recv (hw : w.worker = .waiting) (ht : w.wake = true) :
      Step S w .recv { w with worker := .looping, wake := false }
  | idle (hw : w.worker = .looping) (hd : w.pending.dequeue = .empty) :
      Step S w .dequeue { w with worker := .waiting }
  | dequeue (key : RouteKey) (at' : DateTime) (sequence : ℕ) (pending : PendingActivities)
      (hw : w.worker = .looping) (hd : w.pending.dequeue = .item key at' sequence pending) :
      Step S w .dequeue { w with worker := .dequeued key at' sequence, pending := pending }
  | panicked (pending : PendingActivities) (hw : w.worker = .looping)
      (hd : w.pending.dequeue = .panicked pending) :
      Step S w .dequeue { w with worker := .panicked, pending := pending }
  | admitted (key : RouteKey) (at' : DateTime) (sequence : ℕ) (registry : Registry σ)
      (hw : w.worker = .dequeued key at' sequence)
      (hs : w.registry.step S (.begin (.persistObservedActivity key at')) = some registry)
      (hl : w.registry.tasks.length < registry.tasks.length) :
      Step S w .persist { w with
        registry := registry, worker := .persisting w.registry.tasks.length key sequence }
  | refused (key : RouteKey) (at' : DateTime) (sequence : ℕ) (registry : Registry σ)
      (hw : w.worker = .dequeued key at' sequence)
      (hs : w.registry.step S (.begin (.persistObservedActivity key at')) = some registry)
      (hl : ¬w.registry.tasks.length < registry.tasks.length) :
      Step S w .persist { w with
        registry := registry
        worker := .persisted key sequence
        persistenceErrors := fetchAdd w.persistenceErrors }
  | persisted (i : ℕ) (key : RouteKey) (sequence : ℕ) (m : Mutation) (result : MutationResult)
      (errors : ℕ) (hw : w.worker = .persisting i key sequence)
      (hm : w.registry.tasks[i]? = some m) (hc : m.caller = .returned result) :
      Step S w .persisted
        { w with worker := .persisted key sequence, persistenceErrors := errors }
  | complete (key : RouteKey) (sequence : ℕ) (hw : w.worker = .persisted key sequence) :
      Step S w .complete { w with worker := .looping, pending := w.pending.complete key }

theorem step_cases {S : Store σ ι} {w w' : Writer σ} {a : WriterAction ι}
    (h : step S w a = some w') : Step S w a w' := by
  cases a with
  | registry b =>
    simp only [step] at h
    split_ifs at h with ha
    obtain ⟨registry, hs, rfl⟩ := Option.map_eq_some_iff.mp h
    exact .registry b registry ha hs
  | record key at' =>
    simp only [step] at h
    obtain ⟨registry, hs, rfl⟩ := Option.map_eq_some_iff.mp h
    exact .record key at' registry hs
  | observed r =>
    obtain ⟨recorder, hr, h⟩ := Option.bind_eq_some_iff.mp h
    simp only [stepRecorder] at h
    split at h
    · next j hp =>
      split at h
      · next key at' ho => cases h; exact .observed r recorder j _ true hr hp ho rfl
      · next key at' ho => cases h; exact .observed r recorder j _ false hr hp ho rfl
      · cases h
    · cases h
  | enqueue r =>
    obtain ⟨recorder, hr, h⟩ := Option.bind_eq_some_iff.mp h
    simp only [stepRecorder] at h
    split at h
    · next hp =>
      split at h
      · next he => cases h; exact .dropped r recorder hr hp he
      · next he => cases h; exact .exhausted r recorder hr hp he
      · next pending he => cases h; exact .accepted r recorder pending hr hp he
    · cases h
  | notify r =>
    obtain ⟨recorder, hr, h⟩ := Option.bind_eq_some_iff.mp h
    simp only [stepRecorder] at h
    split at h
    · next hp =>
      split at h
      · next hw => cases h; exact .closed r recorder hr hp hw
      · next hw => cases h; exact .notify r recorder hr hp hw
    · cases h
  | recv =>
    simp only [step, stepWorker] at h
    split at h
    · next hw ht => cases h; exact .recv hw ht
    · cases h
  | dequeue =>
    simp only [step, stepWorker] at h
    split at h
    · next hw =>
      split at h
      · next hd => cases h; exact .idle hw hd
      · next key at' sequence pending hd => cases h; exact .dequeue key at' sequence pending hw hd
      · next pending hd => cases h; exact .panicked pending hw hd
    · cases h
  | persist =>
    simp only [step, stepWorker] at h
    split at h
    · next key at' sequence hw =>
      obtain ⟨registry, hs, h⟩ := Option.map_eq_some_iff.mp h
      split_ifs at h with hl
      · cases h; exact .admitted key at' sequence registry hw hs hl
      · cases h; exact .refused key at' sequence registry hw hs hl
    · cases h
  | persisted =>
    simp only [step, stepWorker] at h
    split at h
    · next i key sequence hw =>
      split at h
      · next request phase result hm =>
        cases h
        exact .persisted i key sequence _ _ _ hw hm rfl
      · next request phase e hm =>
        cases h
        exact .persisted i key sequence _ _ _ hw hm rfl
      · cases h
    · cases h
  | complete =>
    simp only [step, stepWorker] at h
    split at h
    · next key sequence hw => cases h; exact .complete key sequence hw
    · cases h

end Writer

end ChpProxy
