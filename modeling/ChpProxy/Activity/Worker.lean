import ChpProxy.Activity.Service
import ChpProxy.Store.Memory

/-! What the persistence worker finds: a well-formed queue in every interleaving, timestamps that
cover what was coalesced, and a token for every observation that waits. -/
namespace ChpProxy

namespace PendingActivities.WellFormed

variable {p : PendingActivities} {capacity : ℕ} {held : Option RouteKey} {key : RouteKey}

theorem mem_ready_iff (h : p.WellFormed capacity held) :
    key ∈ p.ready ↔ ∃ e, p.byKey[key]? = some e ∧ e.pendingOldestSequence.isSome = true ∧
      e.inFlightOldestSequence = none := by
  have hloc := h.located key
  constructor
  · intro hmem
    cases hkey : p.byKey[key]? with
    | none => exact absurd hmem (hloc.absent hkey).1
    | some e =>
      obtain ⟨latest, pending, inFlight⟩ := e
      cases inFlight with
      | none => exact ⟨_, rfl, (hloc.waiting hkey).2.2, rfl⟩
      | some n => exact absurd hmem (hloc.inFlight hkey).1
  · rintro ⟨⟨latest, pending, inFlight⟩, hkey, -, rfl⟩
    exact (hloc.waiting hkey).1

theorem held_of_inFlight {e : PendingActivity} (h : p.WellFormed capacity held)
    (hkey : p.byKey[key]? = some e) (hf : e.inFlightOldestSequence.isSome = true) :
    held = some key := by
  obtain ⟨latest, pending, inFlight⟩ := e
  obtain ⟨n, rfl⟩ := Option.isSome_iff_exists.mp hf
  exact ((h.located key).inFlight hkey).2

theorem ready_or_inFlight {e : PendingActivity} (h : p.WellFormed capacity held)
    (hkey : p.byKey[key]? = some e) :
    key ∈ p.ready ∨ e.inFlightOldestSequence.isSome = true := by
  obtain ⟨latest, pending, inFlight⟩ := e
  cases inFlight with
  | none => exact .inl ((h.located key).waiting hkey).1
  | some n => exact .inr rfl

end PendingActivities.WellFormed

namespace ActivityService

variable {σ ι : Type} {S : Store σ ι} {s s' : ActivityService σ} {registry : Registry σ}
  {capacity : ℕ} {as : List (ServiceAction ι)}

theorem timed_run (h : run S (start registry capacity) as = some s) (key : RouteKey) :
    Queueing.Timed key (history S (start registry capacity) as) s.writer.queueing := by
  have hinv := history_invariant
    (P := fun l v => v.Intact (max capacity 1) ∧ Queueing.Timed key l v)
    (fun l v e v' hv hs => ⟨hv.1.step hs, hv.2.step hv.1 hs⟩)
    rfl ⟨intact_start registry capacity, ⟨nofun, nofun, rfl⟩⟩ h
  exact hinv.2.2

/-- The worker takes a route for two coalesced observations, and a third one arrives while it
persists them. -/
def reobserving (key : RouteKey) : List (ServiceAction DateTime) :=
  recording 0 key 5 ++ recording 1 key 9 ++
    [.writer (.notify 0), .writer .recv, .writer .dequeue, .writer .persist] ++
    recording 2 key 12 ++ mutating 0 0 ++ [.writer .persisted]

end ActivityService

namespace Writer

variable {σ ι : Type} {S : Store σ ι} {w w' : Writer σ} {a : WriterAction ι}

/-- Some `record_at` call has enqueued its observation and not yet sent its token. -/
def Notifying (w : Writer σ) : Prop :=
  ∃ (r : ℕ) (recorder : Recorder), w.recorders[r]? = some recorder ∧ recorder.phase = .enqueued

/-- A waiting route is in sight of the worker: it is in its inner loop, or a token will wake it. -/
def Watched (w : Writer σ) : Prop :=
  w.pending.ready ≠ [] → w.worker.inLoop = true ∨ w.wake = true ∨ w.Notifying

theorem Watched.setRecorder {r : ℕ} {recorder : Recorder} (h : w.Watched)
    (hr : w.recorders[r]? = some recorder) (hp : recorder.phase ≠ .enqueued)
    (phase : RecorderPhase) : (w.setRecorder r phase).Watched := by
  intro hready
  rcases h hready with hloop | hwake | ⟨j, other, hj, hphase⟩
  · exact .inl hloop
  · exact .inr (.inl hwake)
  · have hne : r ≠ j := by
      rintro rfl
      obtain rfl := Option.some.inj (hr.symm.trans hj)
      exact hp hphase
    exact .inr (.inr ⟨j, other, by simp [Writer.setRecorder, hne, hj], hphase⟩)

theorem watched_step {capacity : ℕ} (h : w.Watched) (hi : w.queueing.Intact capacity)
    (hs : step S w a = some w') : w'.Watched := by
  cases step_cases hs with
  | registry b registry hallow hs => exact h
  | record key at' registry hs =>
    intro hready
    rcases h hready with hloop | hwake | ⟨r, recorder, hr, hp⟩
    · exact .inl hloop
    · exact .inr (.inl hwake)
    · have hlt : r < w.recorders.length := (List.getElem?_eq_some_iff.mp hr).1
      exact .inr (.inr ⟨r, recorder, (List.getElem?_append_left hlt).trans hr, hp⟩)
  | observed r recorder j o updated hr hp ho hret => exact h.setRecorder hr (by simp [hp]) _
  | dropped r recorder hr hp he => exact h.setRecorder hr (by simp [hp]) .done
  | exhausted r recorder hr hp he => exact h.setRecorder hr (by simp [hp]) .panicked
  | accepted r recorder pending hr hp he =>
    intro _
    exact .inr (.inr ⟨r, { recorder with phase := .enqueued }, by simp [setRecorder, hr], rfl⟩)
  | closed r recorder hr hp hw => exact absurd hw hi.alive
  | notify r recorder hr hp hw => exact fun _ => .inr (.inl rfl)
  | idle hw hd =>
    intro hready
    exact absurd (PendingActivities.ready_of_empty hd) hready
  | panicked pending hw hd => exact absurd hd (hi.queue.dequeue_ne_panicked pending)
  | persisted i key sequence m result errors hw hm hc => exact fun _ => .inl rfl
  | recv _ _ | dequeue _ _ _ _ _ _ | admitted _ _ _ _ _ _ _ | refused _ _ _ _ _ _ _
  | complete _ _ _ => exact fun _ => .inl rfl

/-- The inner loop ends only with a look at the queue that finds it empty. -/
theorem leaves_loop {capacity : ℕ} (hi : w.queueing.Intact capacity) (hs : step S w a = some w')
    (hloop : w.worker.inLoop = true) (hout : w'.worker.inLoop = false) :
    a = .dequeue ∧ w.pending.ready = [] := by
  have habsurd : ∀ {p : Prop}, w'.worker = w.worker → p := by
    intro p hw
    rw [hw, hloop] at hout
    cases hout
  cases step_cases hs with
  | idle hw hd => exact ⟨rfl, PendingActivities.ready_of_empty hd⟩
  | panicked pending hw hd => exact absurd hd (hi.queue.dequeue_ne_panicked pending)
  | recv _ _ | dequeue _ _ _ _ _ _ | admitted _ _ _ _ _ _ _ | refused _ _ _ _ _ _ _
  | persisted _ _ _ _ _ _ _ _ _ | complete _ _ _ => cases hout
  | registry _ _ _ _ | record _ _ _ _ | observed _ _ _ _ _ _ _ _ _ | dropped _ _ _ _ _
  | exhausted _ _ _ _ _ | accepted _ _ _ _ _ _ | closed _ _ _ _ _ | notify _ _ _ _ _ =>
    exact habsurd rfl

end Writer

namespace ActivityService

variable {σ ι : Type} {S : Store σ ι} {s s' : ActivityService σ} {registry : Registry σ}
  {capacity : ℕ} {as : List (ServiceAction ι)}

theorem watched_run (h : run S (start registry capacity) as = some s) : s.writer.Watched := by
  refine Transition.run_history (P := fun _ (t : ActivityService σ) => t.writer.Watched)
    (fun hready => absurd rfl hready) (fun bs t a t' hr ht hs => ?_) h
  rcases step_writer hs with ⟨b, -, hb⟩ | ⟨-, registry, -, hw⟩
  · exact Writer.watched_step ht (intact_run hr).2 hb
  · rw [hw]
    exact ht

/-- No wake-up is lost. The worker that has work is in its inner loop, which it leaves only when it
finds the queue empty, or a token waits for it, or a recorder is about to send one; a parked worker
with no token and no such recorder has nothing left to persist. -/
theorem no_lost_wakeup (h : run S (start registry capacity) as = some s) :
    (s.writer.pending.ready ≠ [] → s.writer.worker.inLoop = true ∨ s.writer.wake = true ∨
      ∃ recorder ∈ s.writer.recorders, recorder.phase = .enqueued) ∧
    (∀ a s', step S s a = some s' → s.writer.worker.inLoop = true →
      s'.writer.worker.inLoop = false → a = .writer .dequeue ∧ s.writer.pending.ready = []) ∧
    (s.writer.worker = .waiting → s.writer.wake = false →
      (∀ recorder ∈ s.writer.recorders, recorder.phase ≠ .enqueued) →
      s.writer.pending.ready = [] ∧ ∀ key : RouteKey, s.writer.pending.byKey[key]? = none) := by
  obtain ⟨-, hi⟩ := intact_run h
  have hwatched : s.writer.pending.ready ≠ [] → s.writer.worker.inLoop = true ∨
      s.writer.wake = true ∨ ∃ recorder ∈ s.writer.recorders, recorder.phase = .enqueued := by
    intro hready
    rcases watched_run h hready with hloop | hwake | ⟨r, recorder, hr, hp⟩
    · exact .inl hloop
    · exact .inr (.inl hwake)
    · exact .inr (.inr ⟨recorder, List.mem_of_getElem? hr, hp⟩)
  refine ⟨hwatched, fun a s' hs hloop hout => ?_, fun hw hwake hnone => ?_⟩
  · rcases step_writer hs with ⟨b, rfl, hb⟩ | ⟨-, registry, -, hw⟩
    · obtain ⟨rfl, hready⟩ := Writer.leaves_loop hi hb hloop hout
      exact ⟨rfl, hready⟩
    · rw [hw] at hout
      cases hloop.symm.trans hout
  · have hready : s.writer.pending.ready = [] := by
      by_contra hne
      rcases hwatched hne with hloop | htoken | ⟨recorder, hmem, hp⟩
      · rw [hw] at hloop
        cases hloop
      · cases hwake.symm.trans htoken
      · exact hnone recorder hmem hp
    refine ⟨hready, fun key => ?_⟩
    cases hkey : s.writer.pending.byKey[key]? with
    | none => rfl
    | some e =>
      have hq := hi.queue
      rcases hq.ready_or_inFlight hkey with hmem | hf
      · change key ∈ s.writer.pending.ready at hmem
        rw [hready] at hmem
        cases hmem
      · have hheld : s.writer.worker.held = some key := hq.held_of_inFlight hkey hf
        rw [hw] at hheld
        cases hheld

/-- The second call's token is discarded by the full channel, and the worker finds both routes. -/
theorem no_lost_wakeup_two_routes : ∃ registry s,
    (Registry.load MemoryStore.store 0 ((Std.ExtTreeMap.insert ∅ (.parse "/a")
      ⟨"http://b", 1, ∅⟩).insert (.parse "/c") ⟨"http://d", 1, ∅⟩) = .ok registry ∧
    run MemoryStore.store (start registry 2)
      (recording 0 (.parse "/a") 5 ++ recording 1 (.parse "/c") 6 ++
        [.writer (.notify 0), .writer (.notify 1)]) = some s ∧
    s.writer.pending.ready.length = 2) ∧
    (s.writer.pending.ready ≠ [] → s.writer.worker.inLoop = true ∨ s.writer.wake = true ∨
      ∃ recorder ∈ s.writer.recorders, recorder.phase = .enqueued) := by
  refine Exists.imp (fun registry => Exists.imp fun s h => ⟨h, ?_⟩) ⟨_, _, rfl, rfl, rfl⟩
  exact (no_lost_wakeup h.2.1).1

end ActivityService

end ChpProxy
