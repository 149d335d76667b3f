import ChpProxy.Activity.Watermark
import ChpProxy.Shutdown.Coordinator
import ChpProxy.Store.Memory

/-! Does a graceful shutdown persist accepted activity? The coordinator seals the registry before
it flushes, and the worker persists through the sealed registry, so it does for exactly what the
registry admitted before the seal. -/
namespace ChpProxy

namespace Writer

variable {σ ι : Type} {S : Store σ ι} {w w' : Writer σ} {a : WriterAction ι}

theorem acceptedThrough_le_step (h : step S w a = some w') :
    w.pending.acceptedThrough ≤ w'.pending.acceptedThrough := by
  cases step_cases h with
  | accepted r recorder pending hr hp he =>
    have hnext := (PendingActivities.enqueue_eq_accepted he).1
    change _ ≤ pending.acceptedThrough
    omega
  | dequeue key at' sequence pending hw hd => exact (PendingActivities.dequeue_eq_item hd).1.ge
  | panicked pending hw hd => exact (PendingActivities.dequeue_eq_panicked hd).1.ge
  | complete key sequence hw => exact (PendingActivities.complete_spec w.pending key).1.ge
  | _ => exact le_refl _

/-- Without a fault the writer and the users of its registry never seal it. -/
theorem sealState_step {K : S.ActivityContract} (h : w.registry.Healthy K)
    (h' : w'.registry.Healthy K) (hs : step S w a = some w') :
    w'.registry.mutations.sealState = w.registry.mutations.sealState := by
  have hdrain : w.does a ≠ some .drain := by
    cases step_cases hs with
    | registry b registry hallow _ =>
      intro he
      obtain rfl := Option.some.inj he
      cases hallow
    | admitted _ _ _ _ hw _ _ | refused _ _ _ _ hw _ _ => simp [does, hw]
    | _ => simp [does]
  have hadv := registry_advance hs
  cases hb : w.does a with
  | none =>
    rw [hb] at hadv
    rw [← Option.some.inj hadv]
  | some b =>
    rw [hb] at hadv
    have hne : b ≠ .drain := fun he => hdrain (by rw [hb, he])
    rcases Registry.sealState_step h.inv hadv hne with hsame | ⟨-, hterm⟩
    · exact hsame
    · rw [h'.nonterminal] at hterm
      cases hterm

end Writer

namespace Shutdown

variable {σ ι : Type} {S : Store σ ι} {s s' : Shutdown σ} {a : ShutdownAction ι}
  {K : S.ActivityContract} {key : RouteKey} {at' : DateTime} {q : ℕ}

theorem registry_advance (h : step S s a = some s') :
    s.writer.registry.advance S (s.does a) = some s'.writer.registry := by
  cases step_cases h with
  | writer a writer hs => exact Writer.registry_advance hs
  | acceptsStopped timedOut registry hp hs => exact hs
  | drain d a b registry hp ha hb hs => rw [ha]; exact hs
  | _ => rfl

/-- What holds until the shutdown signal in a run without a fault. -/
structure Sound (K : S.ActivityContract) (s : Shutdown σ) : Prop where
  healthy : s.writer.registry.Healthy K
  numbered : s.writer.pending.Numbered
  unsealed : s.phase = .waiting → s.writer.registry.mutations.sealState = .open

theorem sound_start {choice : ι} {store : σ} {registry : Registry σ} (pendingCapacity : ℕ)
    (h : Registry.load S choice store = .ok registry) : Sound K (start registry pendingCapacity) := by
  refine ⟨Registry.healthy_load h, PendingActivities.numbered_default, fun _ => ?_⟩
  unfold Registry.load at h
  split at h
  · cases h
  · obtain rfl := Except.ok.inj h
    rfl

theorem sound_step (h : Sound K s) (hs : step S s a = some s') (hgood : faulty S s a = false) :
    Sound K s' := by
  have hhealthy := Registry.healthy_advance h.healthy (registry_advance hs) hgood
  cases step_cases hs with
  | writer a writer hw =>
    refine ⟨hhealthy, Writer.numbered_step h.numbered hw, fun hp => ?_⟩
    exact (Writer.sealState_step h.healthy hhealthy hw).trans (h.unsealed hp)
  | _ => exact ⟨hhealthy, h.numbered, fun hp => by cases hp⟩

/-- Where an accepted observation is in each phase of the shutdown. -/
def Delivery (K : S.ActivityContract) (key : RouteKey) (at' : DateTime) (q : ℕ) (w : Writer σ) :
    ShutdownPhase → Prop
  | .waiting | .stoppingAccepts =>
    w.registry.mutations.sealState = .open ∧ w.Progress K key at' q
  | .drainingMutations _ => w.Admitted K key at' q
  | .flushing watermark => q ≤ watermark ∧ w.Admitted K key at' q
  | .drainingTraffic | .completed => w.registry.core.Stored K key at'

/-- The observation `(key, at')` accepted as number `q` will be in the store at the end. -/
structure Delivers (K : S.ActivityContract) (key : RouteKey) (at' : DateTime) (q : ℕ)
    (s : Shutdown σ) : Prop where
  keeps : s.writer.registry.Keeps K key at'
  accepted : q ≤ s.writer.pending.acceptedThrough
  delivery : Delivery K key at' q s.writer s.phase

theorem delivery_writer {b : WriterAction ι} {writer : Writer σ} {phase : ShutdownPhase}
    (hk : s.writer.registry.Keeps K key at') (hk' : writer.registry.Keeps K key at')
    (h : Delivery K key at' q s.writer phase) (hs : s.writer.step S b = some writer)
    (hd : Registry.disturbs S key at' s.writer.registry (s.writer.does b) = false) :
    Delivery K key at' q writer phase := by
  have hseal := Writer.sealState_step hk.toHealthy hk'.toHealthy hs
  cases phase with
  | waiting | stoppingAccepts =>
    exact ⟨hseal.trans h.1, Writer.progress_step hk h.2 h.1 hs hd⟩
  | drainingMutations d => exact Writer.admitted_step hk h hs hd
  | flushing watermark => exact ⟨h.1, Writer.admitted_step hk h.2 hs hd⟩
  | drainingTraffic | completed =>
    exact Registry.stored_advance hk h (Writer.registry_advance hs) hd

theorem admitted_onRegistry {b : Action ι} {registry : Registry σ}
    (hk : s.writer.registry.Keeps K key at') (h : s.writer.Admitted K key at' q)
    (hs : s.writer.registry.advance S (some b) = some registry)
    (hd : Registry.disturbs S key at' s.writer.registry (some b) = false)
    (hrt : ∀ i, b ≠ .runtimeUnavailable i) :
    Writer.Admitted K key at' q { s.writer with registry := registry } := by
  cases h with
  | stored hst => exact .stored (Registry.stored_advance hk hst hs hd)
  | persisting i n hw hn hf hp =>
    have hne : some b ≠ some (.runtimeUnavailable i) := fun he => hrt i (Option.some.inj he)
    rcases Registry.persisting_advance hk hp hs hd hne with hp' | hst
    · exact .persisting i n hw hn hf hp'
    · exact .stored hst

/-- A complete watermark leaves nothing in flight that was accepted before it. -/
theorem stored_of_flushed {watermark : ℕ} (h : s.writer.Admitted K key at' q)
    (hw : s.writer.pending.watermarkIsComplete watermark = true) (hq : q ≤ watermark) :
    s.writer.registry.core.Stored K key at' := by
  cases h with
  | stored hst => exact hst
  | persisting i n _ hn hf hp =>
    obtain ⟨e, he, hin⟩ := hf
    have hlt := PendingActivities.watermarkIsComplete_iff.mp hw key _ ⟨e, he, .inr hin⟩
    omega

theorem delivers_step (h : Delivers K key at' q s) (hs : step S s a = some s')
    (hl : loses S key at' q s a = false) : Delivers K key at' q s' := by
  obtain ⟨hd, hrest⟩ := Bool.or_eq_false_iff.mp hl
  have hkeeps := Registry.keeps_advance h.keeps (registry_advance hs) hd
  have hdel := h.delivery
  cases step_cases hs with
  | writer b writer hw =>
    exact ⟨hkeeps, le_trans h.accepted (Writer.acceptedThrough_le_step hw),
      delivery_writer h.keeps hkeeps hdel hw hd⟩
  | signal hp =>
    rw [hp] at hdel
    exact ⟨hkeeps, h.accepted, hdel⟩
  | acceptsStopped timedOut registry hp hr =>
    rw [hp] at hdel
    have hadmitted := hdel.2.admitted_of hrest
    exact ⟨hkeeps, h.accepted, admitted_onRegistry (b := .drain) h.keeps hadmitted hr hd (by simp)⟩
  | drain d a b registry hp ha hb hr =>
    rw [hp] at hdel
    rw [ha] at hd
    have hrt : ∀ i, b ≠ .runtimeUnavailable i := by
      rcases hb with rfl | rfl <;> simp
    exact ⟨hkeeps, h.accepted, admitted_onRegistry (b := b) h.keeps hdel hr hd hrt⟩
  | drained d hp =>
    rw [hp] at hdel
    exact ⟨hkeeps, h.accepted, h.accepted, hdel⟩
  | flushed watermark hp hw =>
    rw [hp] at hdel
    exact ⟨hkeeps, h.accepted, stored_of_flushed hdel.2 hw hdel.1⟩
  | flushTimeout watermark hp => cases hrest
  | trafficDrained timedOut hp =>
    rw [hp] at hdel
    exact ⟨hkeeps, h.accepted, hdel⟩

theorem delivers_of_accepted (h : Sound K s) (hp : s.phase = .waiting) {r : ℕ} {recorder : Recorder}
    (hr : s.writer.recorders[r]? = some recorder)
    (hs : step S s (.writer (.enqueue r)) = some s')
    (haccepted : s.writer.pending.acceptedThrough < s'.writer.pending.acceptedThrough)
    (hshow : s.writer.registry.core.Shows recorder.key recorder.at') :
    Delivers K recorder.key recorder.at' s'.writer.pending.acceptedThrough s' := by
  cases step_cases hs with
  | drain d a b registry hp' _ _ _ =>
    rw [hp] at hp'
    cases hp'
  | writer b writer hw =>
    cases Writer.step_cases hw with
    | accepted r' recorder' pending hr' hp' he =>
      obtain rfl := Option.some.inj (hr.symm.trans hr')
      refine ⟨⟨h.healthy, hshow⟩, le_refl _, ?_⟩
      change Delivery K recorder.key recorder.at' pending.acceptedThrough _ s.phase
      rw [hp]
      exact ⟨h.unsealed hp, .queued (PendingActivities.queued_of_enqueue h.numbered he)⟩
    | dropped _ _ _ _ _ | exhausted _ _ _ _ _ => exact absurd haccepted (lt_irrefl _)

/-- An observation that is accepted before the shutdown signal, while the registry still publishes
it, is in the store when the coordinator returns, provided the registry admitted it before the
seal, the flush did not time out, and no fault, deletion or older activity update of the route came
after the acceptance. -/
theorem graceful_shutdown_persists (K : S.ActivityContract) {choice : ι} {store : σ}
    {registry : Registry σ} {pendingCapacity : ℕ} {before after : List (ShutdownAction ι)}
    {s₁ t : Shutdown σ} {r : ℕ} {recorder : Recorder}
    (hload : Registry.load S choice store = .ok registry)
    (hbefore : run S (start registry pendingCapacity) before = some s)
    (hgood : Transition.Avoids (step S) (fun s a => faulty S s a = true)
      (start registry pendingCapacity) before)
    (hphase : s.phase = .waiting) (hr : s.writer.recorders[r]? = some recorder)
    (henqueue : step S s (.writer (.enqueue r)) = some s₁)
    (haccepted : s.writer.pending.acceptedThrough < s₁.writer.pending.acceptedThrough)
    (hshow : s.writer.registry.core.Shows recorder.key recorder.at')
    (hafter : run S s₁ after = some t)
    (hkept : Transition.Avoids (step S) (fun s a =>
      loses S recorder.key recorder.at' s₁.writer.pending.acceptedThrough s a = true) s₁ after)
    (hdone : t.phase = .completed) :
    ∃ x, stamp (K.contents t.writer.registry.store) recorder.key = some x ∧ recorder.at' ≤ x := by
  have hsound : Sound K s := by
    refine hgood.invariant (fun s a s' hf h hs => ?_) (sound_start pendingCapacity hload) hbefore
    exact sound_step h hs (Bool.not_eq_true _ ▸ hf)
  have hdelivers : Delivers K recorder.key recorder.at' s₁.writer.pending.acceptedThrough t := by
    refine hkept.invariant (fun s a s' hl h hs => ?_)
      (delivers_of_accepted hsound hphase hr henqueue haccepted hshow) hafter
    exact delivers_step h hs (Bool.not_eq_true _ ▸ hl)
  have hstored := hdelivers.delivery
  rw [hdone] at hstored
  exact hstored.stored

/-- One call of `record_at` up to its acceptance, when nothing contends with it. -/
def recording (key : RouteKey) (at' : DateTime) : List (ShutdownAction DateTime) :=
  [.writer (.record key at'), .writer (.registry (.checkObserver 0)),
    .writer (.registry (.loadObserver 0)), .writer (.registry (.swapObserver 0)),
    .writer (.observed 0)]

/-- The worker takes the only pending route and asks the registry to persist it. -/
def taking : List (ShutdownAction DateTime) :=
  [.writer (.notify 0), .writer .recv, .writer .dequeue, .writer .persist]

/-- The admitted mutation runs to its end and the worker settles the route. -/
def persisting : List (ShutdownAction DateTime) :=
  [.spawn 0, .lock 0, .fence 0, .poll 0, .exec 0 0, .conclude 0, .respond 0, .receive 0,
    .acknowledge 0, .acknowledged 0, .finish 0, .unlock 0].map (.writer <| .registry ·) ++
  [.writer .persisted, .writer .complete]

/-- The mutation is admitted when the signal comes, and ends while the coordinator drains. -/
theorem graceful_shutdown_persists_admitted : ∃ registry s s₁ t recorder,
    (Registry.load MemoryStore.store 0 (.insert ∅ (.parse "/a") ⟨"http://b", 1, ∅⟩) = .ok registry ∧
    run MemoryStore.store (start registry 8) (recording (.parse "/a") 5) = some s ∧
    Transition.Avoids (step MemoryStore.store) (fun s a => faulty MemoryStore.store s a = true)
      (start registry 8) (recording (.parse "/a") 5) ∧
    s.phase = .waiting ∧ s.writer.recorders[0]? = some recorder ∧
    step MemoryStore.store s (.writer (.enqueue 0)) = some s₁ ∧
    s.writer.pending.acceptedThrough < s₁.writer.pending.acceptedThrough ∧
    s.writer.registry.core.Shows recorder.key recorder.at' ∧
    run MemoryStore.store s₁ (taking ++ [.signal, .acceptsStopped false] ++ persisting ++
      [.pollDrain, .drained, .flushed, .trafficDrained false]) = some t ∧
    Transition.Avoids (step MemoryStore.store) (fun s a => loses MemoryStore.store recorder.key
      recorder.at' s₁.writer.pending.acceptedThrough s a = true) s₁
        (taking ++ [.signal, .acceptsStopped false] ++ persisting ++
          [.pollDrain, .drained, .flushed, .trafficDrained false]) ∧
    t.phase = .completed) ∧
    ∃ x, stamp t.writer.registry.store recorder.key = some x ∧ recorder.at' ≤ x := by
  refine Exists.imp (fun registry => Exists.imp fun s => Exists.imp fun s₁ => Exists.imp fun t =>
    Exists.imp fun recorder h => ⟨h, ?_⟩)
    ⟨_, _, _, _, _, rfl, rfl, by decide, rfl, rfl, rfl, by decide, ⟨5, by decide, by decide⟩, rfl,
      by decide, rfl⟩
  obtain ⟨hload, hbefore, hgood, hphase, hr, henq, hacc, hshow, hafter, hkept, hdone⟩ := h
  exact graceful_shutdown_persists MemoryStore.contract hload hbefore hgood hphase hr henq hacc
    hshow hafter hkept hdone

/-- The signal comes while the observation is still pending. The registry is sealed before the
worker asks for its mutation, the request is refused, and the coordinator returns without a fault
or a missed deadline, with the old timestamp in the store. -/
theorem graceful_shutdown_drops_pending : ∃ registry s s₁ t recorder,
    Registry.load MemoryStore.store 0 (.insert ∅ (.parse "/a") ⟨"http://b", 1, ∅⟩) = .ok registry ∧
    run MemoryStore.store (start registry 8) (recording (.parse "/a") 5) = some s ∧
    s.phase = .waiting ∧ s.writer.recorders[0]? = some recorder ∧
    recorder.key = .parse "/a" ∧ recorder.at' = 5 ∧
    step MemoryStore.store s (.writer (.enqueue 0)) = some s₁ ∧
    s.writer.pending.acceptedThrough < s₁.writer.pending.acceptedThrough ∧
    s.writer.registry.core.Shows recorder.key recorder.at' ∧
    run MemoryStore.store s₁ ([.signal, .acceptsStopped false, .drained] ++ taking ++
      [.writer .complete, .flushed, .trafficDrained false]) = some t ∧
    Transition.Avoids (step MemoryStore.store)
      (fun s a => a.deadline = true ∨
        Registry.disturbs MemoryStore.store recorder.key recorder.at' s.writer.registry
          (s.does a) = true) s₁
      ([.signal, .acceptsStopped false, .drained] ++ taking ++
        [.writer .complete, .flushed, .trafficDrained false]) ∧
    t.phase = .completed ∧ stamp t.writer.registry.store (.parse "/a") = some 1 := by
  exact ⟨_, _, _, _, _, rfl, rfl, rfl, rfl, rfl, rfl, rfl, by decide, ⟨5, by decide, by decide⟩, rfl,
    by decide, rfl, by decide⟩

end Shutdown

end ChpProxy
