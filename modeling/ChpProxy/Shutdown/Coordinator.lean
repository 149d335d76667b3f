import ChpProxy.Activity.Progress
import ChpProxy.Activity.Service

/-! `ShutdownCoordinator::start` together with the activity writer and the registry it shuts down.
The listeners and the admitted traffic are outside: a wait for them ends when they say so or at
its deadline. -/
namespace ChpProxy

inductive ShutdownPhase where
  | waiting
  | stoppingAccepts
  | drainingMutations (d : ℕ)
  | flushing (watermark : ℕ)
  | drainingTraffic
  | completed

structure Shutdown (σ : Type) where
  writer : Writer σ
  phase : ShutdownPhase

inductive ShutdownAction (ι : Type) where
  | writer (a : WriterAction ι)
  | signal
  | acceptsStopped (timedOut : Bool)
  | pollDrain
  | drainDeadline
  | drained
  | flushed
  | flushTimeout
  | trafficDrained (timedOut : Bool)

/-- A phase of the shutdown reaches its deadline. -/
def ShutdownAction.deadline {ι : Type} : ShutdownAction ι → Bool
  | .drainDeadline | .flushTimeout => true
  | .acceptsStopped timedOut | .trafficDrained timedOut => timedOut
  | _ => false

namespace Shutdown

variable {σ ι : Type}

def start (registry : Registry σ) (pendingCapacity : ℕ) : Shutdown σ :=
  ⟨.start registry pendingCapacity, .waiting⟩

/-- A step of the registry taken by the coordinator itself. -/
def onRegistry (S : Store σ ι) (s : Shutdown σ) (a : Action ι) (phase : ShutdownPhase) :
    Option (Shutdown σ) :=
  (s.writer.registry.step S a).map fun registry =>
    ⟨{ s.writer with registry := registry }, phase⟩

/-- A timed-out wait is only logged: every phase is entered whatever the one before it did. -/
def step (S : Store σ ι) (s : Shutdown σ) : ShutdownAction ι → Option (Shutdown σ)
  | .writer a => (s.writer.step S a).map ({ s with writer := · })
  | .signal => match s.phase with
    | .waiting => some { s with phase := .stoppingAccepts }
    | _ => none
  | .acceptsStopped _ => match s.phase with
    | .stoppingAccepts =>
      s.onRegistry S .drain (.drainingMutations s.writer.registry.drains.length)
    | _ => none
  | .pollDrain => match s.phase with
    | .drainingMutations d => s.onRegistry S (.pollDrain d) s.phase
    | _ => none
  | .drainDeadline => match s.phase with
    | .drainingMutations d => s.onRegistry S (.deadline d) s.phase
    | _ => none
  | .drained => match s.phase with
    | .drainingMutations d => match s.writer.registry.drains[d]? with
      | some (.returned _) => some { s with phase := .flushing s.writer.pending.acceptedThrough }
      | _ => none
    | _ => none
  | .flushed => match s.phase with
    | .flushing watermark =>
      if s.writer.pending.watermarkIsComplete watermark then
        some { s with phase := .drainingTraffic }
      else none
    | _ => none
  | .flushTimeout => match s.phase with
    | .flushing _ => some { s with phase := .drainingTraffic }
    | _ => none
  | .trafficDrained _ => match s.phase with
    | .drainingTraffic => some { s with phase := .completed }
    | _ => none

abbrev run (S : Store σ ι) : Shutdown σ → List (ShutdownAction ι) → Option (Shutdown σ) :=
  Transition.run (step S)

def does (s : Shutdown σ) : ShutdownAction ι → Option (Action ι)
  | .writer a => s.writer.does a
  | .acceptsStopped _ => some .drain
  | .pollDrain => match s.phase with
    | .drainingMutations d => some (.pollDrain d)
    | _ => none
  | .drainDeadline => match s.phase with
    | .drainingMutations d => some (.deadline d)
    | _ => none
  | _ => none

/-- A store call fails, a backend panics or a mutation task cannot be spawned. -/
def faulty (S : Store σ ι) (s : Shutdown σ) (a : ShutdownAction ι) : Bool :=
  (s.does a).any (Registry.faulty S s.writer.registry)

/-- The steps that can take an accepted observation from the store: a fault, a deletion or an
older activity update of the route, a flush that times out, and the seal of the registry while it
has not admitted the observation. -/
def loses (S : Store σ ι) (key : RouteKey) (at' : DateTime) (q : ℕ) (s : Shutdown σ)
    (a : ShutdownAction ι) : Bool :=
  Registry.disturbs S key at' s.writer.registry (s.does a) ||
    match a with
    | .acceptsStopped _ => s.writer.unadmitted key q
    | .flushTimeout => true
    | _ => false

inductive Step (S : Store σ ι) (s : Shutdown σ) : ShutdownAction ι → Shutdown σ → Prop
  | writer (a : WriterAction ι) (writer : Writer σ) (hs : s.writer.step S a = some writer) :
      Step S s (.writer a) { s with writer := writer }
  | signal (hp : s.phase = .waiting) : Step S s .signal { s with phase := .stoppingAccepts }
  | acceptsStopped (timedOut : Bool) (registry : Registry σ) (hp : s.phase = .stoppingAccepts)
      (hs : s.writer.registry.step S .drain = some registry) :
      Step S s (.acceptsStopped timedOut)
        ⟨{ s.writer with registry := registry },
          .drainingMutations s.writer.registry.drains.length⟩
  | drain (d : ℕ) (a : ShutdownAction ι) (b : Action ι) (registry : Registry σ)
      (hp : s.phase = .drainingMutations d) (ha : s.does a = some b)
      (hb : b = .pollDrain d ∨ b = .deadline d) (hs : s.writer.registry.step S b = some registry) :
      Step S s a ⟨{ s.writer with registry := registry }, .drainingMutations d⟩
  | drained (d : ℕ) (hp : s.phase = .drainingMutations d) :
      Step S s .drained { s with phase := .flushing s.writer.pending.acceptedThrough }
  | flushed (watermark : ℕ) (hp : s.phase = .flushing watermark)
      (hw : s.writer.pending.watermarkIsComplete watermark = true) :
      Step S s .flushed { s with phase := .drainingTraffic }
  | flushTimeout (watermark : ℕ) (hp : s.phase = .flushing watermark) :
      Step S s .flushTimeout { s with phase := .drainingTraffic }
  | trafficDrained (timedOut : Bool) (hp : s.phase = .drainingTraffic) :
      Step S s (.trafficDrained timedOut) { s with phase := .completed }

theorem step_cases {S : Store σ ι} {s s' : Shutdown σ} {a : ShutdownAction ι}
    (h : step S s a = some s') : Step S s a s' := by
  cases a with
  | writer a =>
    simp only [step] at h
    obtain ⟨writer, hs, rfl⟩ := Option.map_eq_some_iff.mp h
    exact .writer a writer hs
  | signal =>
    simp only [step] at h
    split at h
    · next hp => cases h; exact .signal hp
    · cases h
  | acceptsStopped timedOut =>
    simp only [step] at h
    split at h
    · next hp =>
      obtain ⟨registry, hs, rfl⟩ := Option.map_eq_some_iff.mp h
      exact .acceptsStopped timedOut registry hp hs
    · cases h
  | pollDrain =>
    simp only [step] at h
    split at h
    · next d hp =>
      obtain ⟨registry, hs, rfl⟩ := Option.map_eq_some_iff.mp h
      rw [hp]
      exact .drain d .pollDrain (.pollDrain d) registry hp (by simp [does, hp]) (.inl rfl) hs
    · cases h
  | drainDeadline =>
    simp only [step] at h
    split at h
    · next d hp =>
      obtain ⟨registry, hs, rfl⟩ := Option.map_eq_some_iff.mp h
      rw [hp]
      exact .drain d .drainDeadline (.deadline d) registry hp (by simp [does, hp]) (.inr rfl) hs
    · cases h
  | drained =>
    simp only [step] at h
    split at h
    · next d hp =>
      split at h
      · cases h; exact .drained d hp
      · cases h
    · cases h
  | flushed =>
    simp only [step] at h
    split at h
    · next watermark hp =>
      split_ifs at h with hw
      cases h
      exact .flushed watermark hp hw
    · cases h
  | flushTimeout =>
    simp only [step] at h
    split at h
    · next watermark hp => cases h; exact .flushTimeout watermark hp
    · cases h
  | trafficDrained timedOut =>
    simp only [step] at h
    split at h
    · next hp => cases h; exact .trafficDrained timedOut hp
    · cases h

end Shutdown

end ChpProxy
