import ChpProxy.Api.Lifecycle

/-! The management listener hands out no connection after it is known to have stopped, and once a
stop is requested everyone who waits for it learns of it after a bounded number of operations. -/
namespace ChpProxy

namespace Management

open Notify

variable {s s' : Management} {a : ManagementAction} {as : List ManagementAction} {n : ℕ}

structure Sound (s : Management) : Prop where
  requested : s.lifecycle.stopRequested = s.signal.requested
  stopped : s.lifecycle.acceptsStopped = s.acceptor.stopped
  first : s.lifecycle.acceptsStopped = false → s.lifecycle.stoppedChanged = 0
  saw : s.acceptor = .selecting .returned → s.lifecycle.stopRequested = true
  acceptor : s.acceptor.waiter.Sound s.lifecycle.stopChanged (s.lifecycle.stopRequested = true)
    (s.signal = .notifying)
  waiters : ∀ w ∈ s.signal.waiter :: s.observers,
    w.Sound s.lifecycle.stoppedChanged (s.lifecycle.acceptsStopped = true)
        (s.acceptor = .acknowledged) ∧
      (w = .returned → s.lifecycle.acceptsStopped = true)

theorem sound_start (n : ℕ) : (start n).Sound := by
  refine ⟨rfl, rfl, fun _ => rfl, nofun, trivial, fun w hw => ?_⟩
  obtain rfl : w = .idle := by
    rcases List.mem_cons.mp hw with rfl | hw
    · rfl
    · exact List.eq_of_mem_replicate hw
  exact ⟨trivial, nofun⟩

theorem Sound.wait {w w' : Waiter} (h : s.Sound) (hw : w ∈ s.signal.waiter :: s.observers)
    (hs : s.waitForAcceptsStopped w = some w') :
    w'.Sound s.lifecycle.stoppedChanged (s.lifecycle.acceptsStopped = true)
        (s.acceptor = .acknowledged) ∧
      (w' = .returned → s.lifecycle.acceptsStopped = true) := by
  refine ⟨(h.waiters w hw).1.step hs, fun hr => ?_⟩
  subst hr
  exact Waiter.ready_of_step hs

theorem Sound.accepting {next : AcceptPhase} (h : s.Sound) (hrun : s.acceptor.stopped = false)
    (hnext : next.stopped = false)
    (hsaw : next = .selecting .returned → s.lifecycle.stopRequested = true)
    (hw : next.waiter.Sound s.lifecycle.stopChanged (s.lifecycle.stopRequested = true)
      (s.signal = .notifying)) : Sound { s with acceptor := next } := by
  refine ⟨h.requested, h.stopped.trans (hrun.trans hnext.symm), h.first, hsaw, hw, fun w hw => ?_⟩
  obtain ⟨hsound, hreturned⟩ := h.waiters w hw
  refine ⟨hsound.change .inl fun hack => ?_, hreturned⟩
  rw [hack] at hrun
  cases hrun

theorem Sound.step (h : s.Sound) (hs : s.step a = some s') : s'.Sound := by
  have hacceptor := h.acceptor
  have hsignal := h.waiters s.signal.waiter List.mem_cons_self
  have hobservers : ∀ w ∈ s.observers, _ := fun w hw => h.waiters w (List.mem_cons_of_mem _ hw)
  cases step_cases hs with
  | shutdown hw =>
    have hoff : s.lifecycle.stopRequested = false := by
      rw [h.requested, hw]
      rfl
    refine ⟨hoff, h.stopped, h.first, h.saw, hacceptor.change .inl fun hn => ?_, fun w hmem => ?_⟩
    · rw [hw] at hn
      cases hn
    · rcases List.mem_cons.mp hmem with rfl | hmem
      · exact ⟨trivial, nofun⟩
      · exact hobservers w hmem
  | requestStop hw =>
    refine ⟨rfl, h.stopped, h.first, fun _ => rfl,
      hacceptor.change (fun _ => .inr rfl) fun _ => rfl, fun w hmem => ?_⟩
    rcases List.mem_cons.mp hmem with rfl | hmem
    · exact ⟨trivial, nofun⟩
    · exact hobservers w hmem
  | notifyStop hw =>
    have hon : s.lifecycle.stopRequested = true := by
      rw [h.requested, hw]
      rfl
    refine ⟨hon, h.stopped, h.first, h.saw, hacceptor.notify _ _, fun w hmem => ?_⟩
    rcases List.mem_cons.mp hmem with rfl | hmem
    · exact ⟨trivial, nofun⟩
    · exact hobservers w hmem
  | signal w w' hw hstep =>
    have hmem : w ∈ s.signal.waiter :: s.observers := by
      rw [hw]
      exact List.mem_cons_self
    have hon : s.lifecycle.stopRequested = true := by
      rw [h.requested, hw]
      rfl
    refine ⟨hon, h.stopped, h.first, h.saw, hacceptor.change .inl fun hn => ?_, fun v hv => ?_⟩
    · rw [hw] at hn
      cases hn
    · rcases List.mem_cons.mp hv with rfl | hv
      · exact h.wait hmem hstep
      · exact hobservers v hv
  | observe i w w' hi hstep =>
    refine ⟨h.requested, h.stopped, h.first, h.saw, hacceptor, fun v hv => ?_⟩
    rcases List.mem_cons.mp hv with rfl | hv
    · exact hsignal
    · rcases List.mem_or_eq_of_mem_set hv with hv | rfl
      · exact hobservers v hv
      · exact h.wait (List.mem_cons_of_mem _ (List.mem_of_getElem? hi)) hstep
  | poll w w' ha hstep =>
    rw [ha] at hacceptor
    refine h.accepting (by rw [ha]; rfl) rfl (fun hr => ?_) (hacceptor.step hstep)
    cases hr
    exact Waiter.ready_of_step hstep
  | turn seen ha hseen =>
    rw [ha] at hacceptor
    exact h.accepting (by rw [ha]; rfl) rfl nofun hacceptor
  | accept seen ha => exact h.accepting (by rw [ha]; rfl) rfl nofun trivial
  | park seen ha =>
    rw [ha] at hacceptor
    exact h.accepting (by rw [ha]; rfl) rfl nofun hacceptor
  | handled ha => exact h.accepting (by rw [ha]; rfl) rfl nofun trivial
  | acknowledge ha =>
    refine ⟨h.requested, rfl, nofun, nofun, trivial, fun w hmem => ?_⟩
    obtain ⟨hsound, -⟩ := h.waiters w hmem
    exact ⟨hsound.change (fun _ => .inr rfl) fun _ => rfl, fun _ => rfl⟩
  | notifyStopped ha =>
    have hon : s.lifecycle.acceptsStopped = true := by
      rw [h.stopped, ha]
      rfl
    refine ⟨h.requested, hon, fun hoff => ?_, nofun, trivial, fun w hmem => ?_⟩
    · rw [hon] at hoff
      cases hoff
    · obtain ⟨hsound, hreturned⟩ := h.waiters w hmem
      exact ⟨hsound.notify _ _, hreturned⟩
  | close hw ha =>
    have hon : s.lifecycle.acceptsStopped = true := by
      apply hsignal.2
      rw [hw]
      rfl
    refine ⟨h.requested, hon, h.first, nofun, trivial, fun w hmem => ?_⟩
    obtain ⟨hsound, hreturned⟩ := h.waiters w hmem
    refine ⟨hsound.change .inl fun hack => ?_, hreturned⟩
    rcases ha with ha | ⟨v, ha⟩
    · rw [ha] at hack
      cases hack
    · rw [ha] at hack
      cases hack

theorem sound_run (h : run (start n) as = some s) : s.Sound :=
  Transition.run_invariant (fun _ _ _ h hs => h.step hs) (sound_start n) h

theorem length_observers (h : run (start n) as = some s) : s.observers.length = n := by
  refine Transition.run_invariant (P := fun u => u.observers.length = n) ?_ ?_ h
  · intro u b u' hu hs
    cases step_cases hs with
    | observe i w w' hi hstep => exact (List.length_set ..).trans hu
    | _ => exact hu
  · exact List.length_replicate

theorem flags_step (hs : s.step a = some s') :
    (s.lifecycle.stopRequested = true → s'.lifecycle.stopRequested = true) ∧
      (s.lifecycle.acceptsStopped = true → s'.lifecycle.acceptsStopped = true) := by
  cases step_cases hs with
  | requestStop hw => exact ⟨fun _ => rfl, id⟩
  | acknowledge ha => exact ⟨id, fun _ => rfl⟩
  | _ => exact ⟨id, id⟩

/-- After the acknowledgement the accept loop is in `pending().await`, or has ended. -/
theorem connections_of_stopped (h : s.Sound) (hon : s.lifecycle.acceptsStopped = true)
    (hr : run s as = some s') : connections s as = 0 := by
  refine (Transition.trace_invariant
    (P := fun l u => u.Sound ∧ u.lifecycle.acceptsStopped = true ∧ l.length = 0) ?_
    ⟨h, hon, rfl⟩ hr).2.2
  rintro l u b u' ⟨hu, hu', hl⟩ hs
  refine ⟨hu.step hs, (flags_step hs).2 hu', ?_⟩
  cases step_cases hs with
  | accept seen ha =>
    rw [hu.stopped, ha] at hu'
    cases hu'
  | _ => simpa using hl

/-- Once the stop is requested, whoever takes a call of `accept` out of its sleep ends it, and the
next call sees the request. -/
theorem chances_step (hon : s.lifecycle.stopRequested = true) (hs : s.step a = some s') :
    (if a = .accept then [()] else []).length + s'.acceptor.chances ≤ s.acceptor.chances := by
  cases step_cases hs with
  | poll w w' ha hstep =>
    rw [ha]
    cases w with
    | idle =>
      cases hstep
      exact Nat.le_refl _
    | armed seen =>
      simp only [waitForStopRequested, Waiter.step, hon] at hstep
      cases hstep
      exact Nat.le_refl _
    | asleep seen =>
      simp only [waitForStopRequested, Waiter.step] at hstep
      split_ifs at hstep
      cases hstep
      exact Nat.zero_le _
    | returned => cases hstep
  | turn seen ha hseen =>
    rw [ha]
    exact Nat.le_refl _
  | accept seen ha =>
    rw [ha]
    exact Nat.le_refl _
  | park seen ha =>
    rw [ha]
    exact Nat.le_refl _
  | handled ha => exact Nat.zero_le _
  | acknowledge ha => exact Nat.zero_le _
  | notifyStopped ha => exact Nat.zero_le _
  | close hw ha => exact Nat.zero_le _
  | _ => exact Nat.le_of_eq (Nat.zero_add _)

theorem connections_of_requested (hon : s.lifecycle.stopRequested = true)
    (hr : run s as = some s') : connections s as ≤ 1 := by
  have hbound : s'.lifecycle.stopRequested = true ∧
      connections s as + s'.acceptor.chances ≤ s.acceptor.chances := by
    refine Transition.trace_invariant (P := fun l u => u.lifecycle.stopRequested = true ∧
      l.length + u.acceptor.chances ≤ s.acceptor.chances) ?_ ⟨hon, Nat.le_of_eq (Nat.zero_add _)⟩ hr
    rintro l u b u' ⟨hu, hl⟩ hs
    refine ⟨(flags_step hs).1 hu, ?_⟩
    have hstep := chances_step hu hs
    rw [List.length_append]
    omega
  have hle : s.acceptor.chances ≤ 1 := by
    unfold AcceptPhase.chances
    split <;> omega
  omega

/-- The operations left before everyone has finished, once the stop is requested. -/
def remaining (s : Management) : ℕ :=
  s.signal.rank s.lifecycle.acceptsStopped + s.acceptor.rank +
    Waiter.ranks s.lifecycle.acceptsStopped s.observers

theorem remaining_le (s : Management) : s.remaining ≤ 13 + 5 * s.observers.length := by
  have hsignal : s.signal.rank s.lifecycle.acceptsStopped ≤ 6 := by
    unfold SignalPhase.rank
    split
    · next w hw => exact Nat.le_succ_of_le (w.rank_le _)
    · exact Nat.le_refl 6
  have hacceptor : s.acceptor.rank ≤ 7 := by
    cases s.acceptor with
    | selecting w => cases w <;> simp [AcceptPhase.rank, Waiter.rank]
    | _ => simp [AcceptPhase.rank]
  have hobservers := Waiter.ranks_le s.lifecycle.acceptsStopped s.observers
  unfold remaining
  omega

theorem rank_poll {w w' : Waiter} (hon : s.lifecycle.stopRequested = true)
    (hw : s.waitForStopRequested w = some w') :
    (AcceptPhase.selecting w').rank < (AcceptPhase.selecting w).rank := by
  cases w with
  | idle =>
    cases hw
    simp [AcceptPhase.rank, Waiter.rank]
  | armed seen =>
    simp only [waitForStopRequested, Waiter.step, hon] at hw
    cases hw
    simp [AcceptPhase.rank, Waiter.rank]
  | asleep seen =>
    simp only [waitForStopRequested, Waiter.step] at hw
    split_ifs at hw
    cases hw
    simp [AcceptPhase.rank, Waiter.rank]
  | returned => cases hw

theorem remaining_step (h : s.Sound) (hon : s.lifecycle.stopRequested = true)
    (hs : s.step a = some s') :
    s'.remaining < s.remaining ∨ s.idles a = true ∧ s'.remaining = s.remaining := by
  have hwait : ∀ w ∈ s.signal.waiter :: s.observers, ∀ w', s.waitForAcceptsStopped w = some w' →
      w'.rank s.lifecycle.acceptsStopped < w.rank s.lifecycle.acceptsStopped :=
    fun w hw w' hw' => (h.waiters w hw).1.rank_step h.first hw'
  have hrequested := h.requested
  cases step_cases hs with
  | shutdown hw => simp [hon, hw, SignalPhase.requested] at hrequested
  | requestStop hw => simp [hon, hw, SignalPhase.requested] at hrequested
  | notifyStop hw =>
    have hidle := Waiter.rank_le s.lifecycle.acceptsStopped .idle
    left
    simp only [remaining, hw, SignalPhase.rank]
    omega
  | signal w w' hw hstep =>
    have hlt := hwait w (by simp [hw, SignalPhase.waiter]) w' hstep
    left
    simp only [remaining, hw, SignalPhase.rank]
    omega
  | observe i w w' hi hstep =>
    have hlt := Waiter.ranks_set hi
      (hwait w (List.mem_cons_of_mem _ (List.mem_of_getElem? hi)) w' hstep)
    left
    simp only [remaining]
    omega
  | poll w w' ha hstep =>
    have hlt := rank_poll hon hstep
    left
    simp only [remaining, ha]
    omega
  | turn seen ha hseen =>
    right
    simp [remaining, idles, ha, hseen, AcceptPhase.rank, AcceptPhase.waiter]
  | park seen ha =>
    right
    simp [remaining, idles, ha, AcceptPhase.rank]
  | acknowledge ha =>
    have hsignal : s.signal.rank true ≤ s.signal.rank s.lifecycle.acceptsStopped := by
      unfold SignalPhase.rank
      split
      · next w hw => exact w.rank_true_le _
      · exact Nat.le_refl 6
    have hobservers := Waiter.ranks_true_le s.lifecycle.acceptsStopped s.observers
    left
    simp only [remaining, ha, AcceptPhase.rank, Waiter.rank]
    omega
  | close hw ha =>
    have hpos : 0 < s.acceptor.rank := by
      rcases ha with ha | ⟨w, ha⟩
      · rw [ha]
        exact Nat.zero_lt_one
      · rw [ha]
        cases w <;> simp [AcceptPhase.rank]
    left
    have hended : AcceptPhase.ended.rank = 0 := rfl
    simp only [remaining, hended]
    omega
  | accept seen ha =>
    left
    simp only [remaining, ha, AcceptPhase.rank]
    omega
  | handled ha =>
    left
    simp only [remaining, ha, AcceptPhase.rank, Waiter.rank, if_true]
    omega
  | notifyStopped ha =>
    left
    simp only [remaining, ha, AcceptPhase.rank]
    omega

theorem moves_le_remaining (h : s.Sound) (hon : s.lifecycle.stopRequested = true)
    (hr : run s as = some s') : moves s as ≤ s.remaining := by
  have hbound : s'.Sound ∧ s'.lifecycle.stopRequested = true ∧
      moves s as + s'.remaining ≤ s.remaining := by
    refine Transition.trace_invariant (P := fun l u => u.Sound ∧ u.lifecycle.stopRequested = true ∧
      l.length + u.remaining ≤ s.remaining) ?_ ⟨h, hon, Nat.le_of_eq (Nat.zero_add _)⟩ hr
    rintro l u b u' ⟨hu, hu', hl⟩ hs
    refine ⟨hu.step hs, (flags_step hs).1 hu', ?_⟩
    rw [List.length_append]
    rcases remaining_step hu hu' hs with hlt | ⟨hidle, heq⟩
    · have hone : (if u.idles b then [] else [()]).length ≤ 1 := by
        split <;> simp
      omega
    · rw [hidle, heq]
      exact hl
  omega

/-- Where nothing but an idle poll can happen, the accept loop has acknowledged the stop. -/
theorem stopped_of_quiet (h : s.Sound) (hon : s.lifecycle.stopRequested = true)
    (hsignal : s.signal ≠ .notifying) (hpoll : ∀ seen, s.acceptor ≠ .polling seen)
    (hquiet : ∀ a, s.idles a = false → s.step a = none) :
    s.acceptor = .pending ∨ s.acceptor = .ended := by
  have hacceptor := h.acceptor
  cases ha : s.acceptor with
  | pending => exact .inl rfl
  | ended => exact .inr rfl
  | polling seen => exact absurd ha (hpoll seen)
  | handling => simpa [step, ha] using hquiet .handled rfl
  | acknowledged => simpa [step, ha] using hquiet .notifyStopped rfl
  | selecting w =>
    exfalso
    by_cases hw : w = .returned
    · subst hw
      simpa [step, ha] using hquiet .acknowledge rfl
    · rw [ha] at hacceptor
      obtain ⟨w', hw'⟩ : ∃ w', s.waitForStopRequested w = some w' :=
        hacceptor.enabled hon hsignal hw
      have hbusy : s.idles .poll = false := by
        simp only [idles, ha, AcceptPhase.waiter, decide_eq_false_iff_not]
        rintro rfl
        simp [waitForStopRequested, Waiter.step] at hw'
      simpa [step, ha, hw'] using hquiet .poll hbusy

theorem finished_of_quiet (h : s.Sound) (hshutdown : s.signal ≠ .watching)
    (hpoll : ∀ seen, s.acceptor ≠ .polling seen)
    (hquiet : ∀ a, s.idles a = false → s.step a = none) : s.Finished := by
  obtain ⟨w, hw⟩ : ∃ w, s.signal = .waiting w := by
    cases hs : s.signal with
    | watching => exact absurd hs hshutdown
    | requesting => simpa [step, hs] using hquiet .requestStop rfl
    | notifying => simpa [step, hs] using hquiet .notifyStop rfl
    | waiting w => exact ⟨w, rfl⟩
  have hrequested : s.lifecycle.stopRequested = true := by
    rw [h.requested, hw]
    rfl
  have hended := stopped_of_quiet h hrequested (by simp [hw]) hpoll hquiet
  have hstopped : s.lifecycle.acceptsStopped = true := by
    rw [h.stopped]
    rcases hended with ha | ha <;> rw [ha] <;> rfl
  have hnotified : s.acceptor ≠ .acknowledged := by
    rcases hended with ha | ha <;> simp [ha]
  -- whoever still waits could move on
  have hreturned : ∀ v ∈ s.signal.waiter :: s.observers,
      (∀ v', s.waitForAcceptsStopped v ≠ some v') → v = .returned := by
    intro v hv hstuck
    by_contra hne
    obtain ⟨v', hv'⟩ := (h.waiters v hv).1.enabled hstopped hnotified hne
    exact hstuck v' hv'
  have hsignal : w = .returned := by
    refine hreturned w (by simp [hw, SignalPhase.waiter]) fun w' hw' => ?_
    simpa [step, hw, hw'] using hquiet .signal rfl
  subst hsignal
  refine ⟨hstopped, hw, ?_, fun v hv => ?_⟩
  · rcases hended with ha | ha
    · simpa [step, hw, ha] using hquiet .close rfl
    · exact ha
  · refine hreturned v (List.mem_cons_of_mem _ hv) fun v' hv' => ?_
    obtain ⟨i, hi⟩ := List.getElem?_of_mem hv
    simpa [step, hi, hv'] using hquiet (.observe i) rfl

/-- The management listener stops in order. A call of `wait_for_accepts_stopped` returns only after
the acknowledgement, and after the acknowledgement no connection is handed out. After the stop is
requested at most one connection is handed out, and the tasks take a bounded number of operations
between them, idle polls of the accept loop apart. They never block each other: once the shutdown has
begun and none of them can do anything but poll in vain, all have returned. -/
theorem accepts_stop (h : run (start n) as = some s) :
    (s.signal = .waiting .returned ∨ .returned ∈ s.observers → s.lifecycle.acceptsStopped = true) ∧
      (s.lifecycle.acceptsStopped = true →
        ∀ bs s', run s bs = some s' → connections s bs = 0) ∧
      (s.lifecycle.stopRequested = true →
        ∀ bs s', run s bs = some s' → connections s bs ≤ 1 ∧ moves s bs ≤ 13 + 5 * n) ∧
      (s.signal ≠ .watching → (∀ seen, s.acceptor ≠ .polling seen) →
        (∀ a, s.idles a = false → s.step a = none) → s.Finished) := by
  have hsound := sound_run h
  refine ⟨fun hr => ?_, fun hon bs s' hr => connections_of_stopped hsound hon hr,
    fun hon bs s' hr => ⟨connections_of_requested hon hr, ?_⟩, finished_of_quiet hsound⟩
  · rcases hr with hr | hr
    · exact (hsound.waiters .returned (by simp [hr, SignalPhase.waiter])).2 rfl
    · exact (hsound.waiters .returned (List.mem_cons_of_mem _ hr)).2 rfl
  · calc moves s bs ≤ s.remaining := moves_le_remaining hsound hon hr
      _ ≤ 13 + 5 * s.observers.length := s.remaining_le
      _ = 13 + 5 * n := by rw [length_observers h]

/-- A connection arrives between the two operations of `request_stop`, and two tasks wait, one since
before the shutdown. -/
theorem accepts_stop_late_connection :
    ∃ s, run (start 2)
        [.observe 0, .observe 0, .poll, .poll, .poll, .shutdown, .requestStop, .accept,
          .notifyStop, .handled, .poll, .signal, .poll, .acknowledge, .signal, .notifyStopped,
          .observe 1, .observe 0, .observe 1, .observe 0, .observe 0, .close] = some s ∧
      s.Finished ∧
      ∀ bs s', run s bs = some s' → connections s bs = 0 := by
  refine ⟨⟨⟨true, true, 1, 1⟩, .waiting .returned, .ended, [.returned, .returned]⟩, ?run,
    ⟨rfl, rfl, rfl, by simp⟩, (accepts_stop ?run).2.1 rfl⟩
  decide +kernel

end Management

end ChpProxy
