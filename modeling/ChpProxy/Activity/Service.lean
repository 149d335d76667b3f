import ChpProxy.Activity.Queueing
import ChpProxy.Registry.Step

/-! The activity writer in its process: its recorders and its worker, any number of `flush` calls,
and everyone else who uses the registry, drains included. -/
namespace ChpProxy

/-- A `flush` call checks the map, and checks again after a notification. -/
inductive FlushPhase where
  | checking
  | waiting
  | returned
  deriving DecidableEq

structure Flush where
  watermark : ℕ
  phase : FlushPhase
  deriving DecidableEq

structure ActivityService (σ : Type) where
  writer : Writer σ
  flushes : List Flush

inductive ServiceAction (ι : Type) where
  | writer (a : WriterAction ι)
  | registry (b : Action ι)
  | flush
  | check (f : ℕ)
  | notified (f : ℕ)

namespace Writer

variable {σ ι : Type}

def events (w : Writer σ) : WriterAction ι → List QueueEvent
  | .enqueue r => match w.recorders[r]? with
    | some ⟨key, at', .observed⟩ => match w.pending.enqueue w.pendingCapacity key at' with
      | .accepted _ => [.accepted key at']
      | _ => []
    | _ => []
  | .dequeue => match w.worker, w.pending.dequeue with
    | .looping, .item key at' _ _ => [.dequeued key at']
    | _, _ => []
  | .persist => match w.worker with
    | .dequeued key at' _ => match w.registry.mutations.begin with
      | .ok _ => [.handed key at']
      | .error _ => [.handed key at', .completed key at']
    | _ => []
  | .persisted => match w.worker with
    | .persisting i _ _ => (w.registry.tasks[i]?).elim [] (QueueEvent.completion ·.request)
    | _ => []
  | .complete => match w.worker with
    | .persisted key _ => [.settled key]
    | _ => []
  | _ => []

def queueing (w : Writer σ) : Queueing :=
  ⟨w.pending, w.worker, w.registry.tasks.map (·.request)⟩

end Writer

namespace ActivityService

variable {σ ι : Type}

def start (registry : Registry σ) (pendingCapacity : ℕ) : ActivityService σ :=
  ⟨.start registry pendingCapacity, []⟩

/-- A notification may arrive at any time; `check` looks at the map again. -/
def step (S : Store σ ι) (s : ActivityService σ) : ServiceAction ι → Option (ActivityService σ)
  | .writer a => (s.writer.step S a).map ({ s with writer := · })
  | .registry b => (s.writer.registry.step S b).map fun registry =>
    { s with writer := { s.writer with registry := registry } }
  | .flush => some
    { s with flushes := s.flushes ++ [⟨s.writer.pending.acceptedThrough, .checking⟩] }
  | .check f => match s.flushes[f]? with
    | some ⟨watermark, .checking⟩ =>
      let phase := if s.writer.pending.watermarkIsComplete watermark then .returned else .waiting
      some { s with flushes := s.flushes.set f ⟨watermark, phase⟩ }
    | _ => none
  | .notified f => match s.flushes[f]? with
    | some ⟨watermark, .waiting⟩ => some { s with flushes := s.flushes.set f ⟨watermark, .checking⟩ }
    | _ => none

abbrev run (S : Store σ ι) : ActivityService σ → List (ServiceAction ι) →
    Option (ActivityService σ) := Transition.run (step S)

def events (s : ActivityService σ) : ServiceAction ι → List QueueEvent
  | .writer a => s.writer.events a
  | _ => []

abbrev history (S : Store σ ι) : ActivityService σ → List (ServiceAction ι) → List QueueEvent :=
  Transition.trace (step S) events

/-- Call number `n` of `record_at`, up to its token. -/
def recording (n : ℕ) (key : RouteKey) (at' : DateTime) : List (ServiceAction ι) :=
  [.writer (.record key at'), .registry (.checkObserver n), .registry (.loadObserver n),
    .registry (.swapObserver n), .writer (.observed n), .writer (.enqueue n)]

def mutating (i : ℕ) (choice : ι) : List (ServiceAction ι) :=
  [.spawn i, .lock i, .fence i, .poll i, .exec i choice, .conclude i, .respond i, .receive i,
    .acknowledge i, .acknowledged i, .finish i, .unlock i].map .registry

end ActivityService

namespace Registry

variable {σ ι : Type} {S : Store σ ι} {s s' : Registry σ}

theorem requests_setPhase (s : Registry σ) (i : ℕ) (p : Phase) :
    (s.setPhase i p).tasks.map (·.request) = s.tasks.map (·.request) := by
  apply List.ext_getElem?
  intro j
  by_cases hj : i = j <;> simp [setPhase, hj, Function.comp_def]

theorem requests_setCaller (s : Registry σ) (i : ℕ) (c : Caller) :
    (s.setCaller i c).tasks.map (·.request) = s.tasks.map (·.request) := by
  apply List.ext_getElem?
  intro j
  by_cases hj : i = j <;> simp [setCaller, hj, Function.comp_def]

theorem requests_step {a : Action ι} (h : step S s a = some s') :
    s.tasks.map (·.request) <+: s'.tasks.map (·.request) := by
  cases step_cases h with
  | accept request hopen => simp
  | task i m a s' hm ht =>
    have hphase : ∀ p, s.tasks.map (·.request) <+: (s.setPhase i p).tasks.map (·.request) := by
      intro p
      rw [requests_setPhase]
    have hcaller : ∀ c, s.tasks.map (·.request) <+: (s.setCaller i c).tasks.map (·.request) := by
      intro c
      rw [requests_setCaller]
    cases ht with
    | runtimeUnavailable hp =>
      show _ <+: ((s.setPhase i .unspawned).setCaller i _).tasks.map (·.request)
      rw [requests_setCaller, requests_setPhase]
    | receive _ _ _ | receiveNothing _ _ | acknowledge _ _ | cancel _ _ => exact hcaller _
    | _ => exact hphase _
  | observer j o a s' ho hobs => cases hobs <;> exact List.prefix_refl _
  | _ => exact List.prefix_refl _

end Registry

namespace Writer

variable {σ ι : Type} {S : Store σ ι} {w w' : Writer σ} {a : WriterAction ι}

theorem pendingCapacity_step (h : step S w a = some w') :
    w'.pendingCapacity = w.pendingCapacity := by
  cases step_cases h <;> rfl

theorem queueing_step (h : step S w a = some w') :
    Queueing.Step w.pendingCapacity w.queueing (w.events a) w'.queueing := by
  have hsame : Queueing.Step w.pendingCapacity w.queueing [] w.queueing :=
    .other _ (List.prefix_refl _)
  cases step_cases h with
  | registry b registry hallow hs => exact .other _ (Registry.requests_step hs)
  | record key at' registry hs => exact .other _ (Registry.requests_step hs)
  | observed _ _ _ _ _ _ _ _ _ | closed _ _ _ _ _ | notify _ _ _ _ _ => exact hsame
  | dropped r recorder hr hp he =>
    obtain ⟨key, at', phase⟩ := recorder
    cases hp
    simp only [events, hr, he]
    exact hsame
  | exhausted r recorder hr hp he =>
    obtain ⟨key, at', phase⟩ := recorder
    cases hp
    simp only [events, hr, he]
    exact hsame
  | accepted r recorder pending hr hp he =>
    obtain ⟨key, at', phase⟩ := recorder
    cases hp
    simp only [events, hr, he]
    exact .accepted key at' pending he
  | recv hw ht => exact .recv hw
  | idle hw hd =>
    simp only [events, hw, hd]
    exact .idle hw hd
  | dequeue key at' sequence pending hw hd =>
    simp only [events, hw, hd]
    exact .dequeued key at' sequence pending hw hd
  | panicked pending hw hd =>
    simp only [events, hw, hd]
    exact .panicked pending hw hd
  | admitted key at' sequence registry hw hs hl =>
    obtain rfl : w.registry.begin (.persistObservedActivity key at') = registry :=
      Option.some.inj hs
    cases hb : w.registry.mutations.begin with
    | ok mutations =>
      have hadmitted : Queueing.Step w.pendingCapacity w.queueing _ _ := .admitted key at' sequence hw
      simpa [events, hw, hb, queueing, Registry.begin] using hadmitted
    | error e => simp [Registry.begin, hb] at hl
  | refused key at' sequence registry hw hs hl =>
    obtain rfl : w.registry.begin (.persistObservedActivity key at') = registry :=
      Option.some.inj hs
    cases hb : w.registry.mutations.begin with
    | ok mutations => simp [Registry.begin, hb] at hl
    | error e =>
      have hrefused : Queueing.Step w.pendingCapacity w.queueing _ _ := .refused key at' sequence hw
      simpa [events, hw, hb, queueing, Registry.begin] using hrefused
  | persisted i key sequence m result errors hw hm hc =>
    simp only [events, hw, hm, Option.elim]
    exact .persisted i key sequence m.request hw (by simp [queueing, hm])
  | complete key sequence hw =>
    simp only [events, hw]
    exact .complete key sequence hw

end Writer

namespace ActivityService

variable {σ ι : Type} {S : Store σ ι} {s s' : ActivityService σ}

/-- A step is one of the writer, or changes nothing of it but the registry. -/
theorem step_writer {a : ServiceAction ι} (h : step S s a = some s') :
    (∃ b, a = .writer b ∧ s.writer.step S b = some s'.writer) ∨
    s.events a = [] ∧ ∃ registry : Registry σ,
      s.writer.registry.tasks.map (·.request) <+: registry.tasks.map (·.request) ∧
      s'.writer = { s.writer with registry := registry } := by
  cases a with
  | writer b =>
    obtain ⟨writer, hs, rfl⟩ := Option.map_eq_some_iff.mp h
    exact .inl ⟨b, rfl, hs⟩
  | registry b =>
    obtain ⟨registry, hs, rfl⟩ := Option.map_eq_some_iff.mp h
    exact .inr ⟨rfl, registry, Registry.requests_step hs, rfl⟩
  | flush =>
    cases h
    exact .inr ⟨rfl, _, List.prefix_refl _, rfl⟩
  | check f =>
    simp only [step] at h
    split at h
    · cases h
      exact .inr ⟨rfl, _, List.prefix_refl _, rfl⟩
    · cases h
  | notified f =>
    simp only [step] at h
    split at h
    · cases h
      exact .inr ⟨rfl, _, List.prefix_refl _, rfl⟩
    · cases h

theorem queueing_step {a : ServiceAction ι} (h : step S s a = some s') :
    s'.writer.pendingCapacity = s.writer.pendingCapacity ∧
      Queueing.Step s.writer.pendingCapacity s.writer.queueing (s.events a) s'.writer.queueing := by
  rcases step_writer h with ⟨b, rfl, hb⟩ | ⟨hev, registry, hr, hw⟩
  · exact ⟨Writer.pendingCapacity_step hb, Writer.queueing_step hb⟩
  · rw [hev, hw]
    exact ⟨rfl, .other _ hr⟩

/-- An invariant of the queue and its history holds in every run of the service. -/
theorem history_invariant {capacity : ℕ} {P : List QueueEvent → Queueing → Prop}
    (hstep : ∀ l v e v', P l v → Queueing.Step capacity v e v' → P (l ++ e) v')
    {as : List (ServiceAction ι)} (hc : s.writer.pendingCapacity = capacity)
    (hs : P [] s.writer.queueing) (h : run S s as = some s') :
    s'.writer.pendingCapacity = capacity ∧ P (history S s as) s'.writer.queueing := by
  refine Transition.trace_invariant (P := fun l (t : ActivityService σ) =>
    t.writer.pendingCapacity = capacity ∧ P l t.writer.queueing) ?_ ⟨hc, hs⟩ h
  rintro l t a t' ⟨hcap, hp⟩ ht
  obtain ⟨hcap', hq⟩ := queueing_step ht
  exact ⟨hcap'.trans hcap, hstep l _ _ _ hp (hcap ▸ hq)⟩

theorem intact_start (registry : Registry σ) (capacity : ℕ) :
    (start registry capacity).writer.queueing.Intact (max capacity 1) where
  queue := PendingActivities.wellFormed_default _
  alive := nofun
  numbered := PendingActivities.numbered_default
  request := nofun

theorem intact_run {registry : Registry σ} {capacity : ℕ} {as : List (ServiceAction ι)}
    (h : run S (start registry capacity) as = some s) :
    s.writer.pendingCapacity = max capacity 1 ∧ s.writer.queueing.Intact (max capacity 1) :=
  history_invariant (P := fun _ v => v.Intact (max capacity 1)) (fun _ _ _ _ hv hs => hv.step hs)
    rfl (intact_start registry capacity) h

end ActivityService

end ChpProxy
