import ChpProxy.Lib.Notify
import ChpProxy.Traffic.Drain

/-! The waits of `ShutdownCoordinator::start` on a `TrafficLifecycle`, and the notifications that end
them. -/
namespace ChpProxy

/-- The coordinator in `wait_for_accepts_stopped`, between its two waits, in `wait_for_drain`, and
after it. It keeps which of the waits returned before its deadline. -/
inductive DrainPhase where
  | stopping (w : Notify.Waiter)
  | ordering (acknowledged : Bool)
  | draining (acknowledged : Bool) (w : Notify.Waiter)
  | completed (acknowledged drained : Bool)
  deriving DecidableEq

/-- `changed` counts the calls of `notify_waiters`, and `owed` those still to come from operations
that have taken effect. -/
structure TrafficShutdown where
  traffic : Traffic
  changed : ℕ
  owed : ℕ
  coordinator : DrainPhase
  deriving DecidableEq

inductive TrafficShutdownAction where
  | traffic (a : TrafficAction)
  | notify
  | advance
  | timeout
  deriving DecidableEq

namespace TrafficLifecycle

/-- The operation of `finish` is an exchange that takes the counter from one to zero. -/
def announces (t : TrafficLifecycle) (phase : FinishPhase) (spurious : Bool) : Bool :=
  match phase with
  | .loading => false
  | .exchanging observed => t.active = observed ∧ spurious = false ∧ observed = 1

theorem announces_of_finish {t t' : TrafficLifecycle} {phase : FinishPhase} {spurious : Bool}
    {next : Option FinishPhase} (h : t.finish phase spurious = (t', next)) (hzero : t'.active = 0)
    (hne : t.active ≠ 0) : t.announces phase spurious = true := by
  have hloop : t.loop t.active = (t, some (.exchanging t.active)) := by
    unfold loop
    rw [if_pos hne]
  cases phase with
  | loading =>
    cases hloop.symm.trans h
    exact absurd hzero hne
  | exchanging observed =>
    unfold finish at h
    dsimp only at h
    split_ifs at h with hswap
    · cases h
      have hone : observed = 1 := by
        have hpos := hswap.1
        simp only at hzero
        omega
      simpa [announces, hone] using hswap
    · cases hloop.symm.trans h
      exact absurd hzero hne

end TrafficLifecycle

namespace RequestContext

def finishing (ctx : RequestContext) : Option FinishPhase :=
  match ctx.phase with
  | .undoing phase | .releasing phase _ => some phase
  | _ => none

end RequestContext

namespace Traffic

variable {s s' : Traffic} {a : TrafficAction}

/-- The step is followed by `notify_waiters`. -/
def announces (s : Traffic) : TrafficAction → Bool
  | .acknowledge => true
  | .finish r spurious => (s.requests[r]?).any fun ctx =>
    ctx.finishing.any fun phase => s.lifecycle.announces phase spurious
  | _ => false

theorem announces_of_drained (h : s.Sound) (hs : s.step a = some s') (hne : s.lifecycle.active ≠ 0)
    (hzero : s'.lifecycle.active = 0) : s.announces a = true := by
  cases a with
  | finish r spurious =>
    obtain ⟨ctx, hr, hf⟩ := Option.bind_eq_some_iff.mp hs
    have hann : ∀ phase lifecycle next, ctx.finishing = some phase →
        s.lifecycle.finish phase spurious = (lifecycle, next) → lifecycle.active = 0 →
        s.announces (.finish r spurious) = true := by
      intro phase lifecycle next hp hfin hz
      simp [announces, hr, hp, TrafficLifecycle.announces_of_finish hfin hz hne]
    simp only [stepRequest] at hf
    split at hf
    · next phase hp =>
      split at hf
      all_goals
        next hfin =>
          cases hf
          exact hann _ _ _ (by simp [RequestContext.finishing, hp]) hfin hzero
    · next phase dropping hp =>
      split at hf
      all_goals
        next hfin =>
          cases hf
          exact hann _ _ _ (by simp [RequestContext.finishing, hp]) hfin hzero
    · cases hf
  | acknowledge => rfl
  | increment r =>
    cases step_cases hs with
    | move r' ctx ctx' a lifecycle hr hm =>
      cases hm with
      | increment r hp =>
        have hroom := h.active_lt hr hp
        have hnext : (s.lifecycle.active + 1) % 2 ^ 64 = 0 := hzero
        rw [Nat.mod_eq_of_lt hroom] at hnext
        omega
      | take a dropping hp ht hc ha => exact absurd hzero hne
      | taken a dropping hp ht ha => exact absurd hzero hne
  | _ =>
    cases step_cases hs with
    | move r' ctx ctx' a lifecycle hr hm =>
      cases hm
      all_goals exact absurd hzero hne
    | _ => exact absurd hzero hne

theorem announces_of_acceptsStopped (hs : s.step a = some s')
    (hoff : s.lifecycle.acceptsStopped = false) (hon : s'.lifecycle.acceptsStopped = true) :
    s.announces a = true := by
  cases step_cases hs with
  | acknowledge => rfl
  | move r ctx ctx' a lifecycle hr hm =>
    have hkeeps := hm.flags.2
    simp only at hon
    simp [hoff, hon] at hkeeps
  | request => simp [hoff] at hon
  | stopAccepting => simp [hoff] at hon

theorem accepting_step (hs : s.step a = some s') (hoff : s.lifecycle.accepting = false) :
    s'.lifecycle.accepting = false := by
  cases step_cases hs with
  | stopAccepting => rfl
  | move r ctx ctx' a lifecycle hr hm => exact hm.flags.1.trans hoff
  | _ => exact hoff

/-- Whoever acknowledges has closed the admission first. -/
structure Closing (s : Traffic) : Prop where
  acknowledging : 0 < s.acknowledging → s.lifecycle.accepting = false
  acknowledged : s.lifecycle.acceptsStopped = true → s.lifecycle.accepting = false

theorem Closing.step (h : s.Closing) (hs : s.step a = some s') : s'.Closing := by
  cases step_cases hs with
  | request => exact ⟨h.acknowledging, h.acknowledged⟩
  | stopAccepting => exact ⟨fun _ => rfl, fun _ => rfl⟩
  | acknowledge =>
    have hpos : 0 < s.acknowledging := by
      simp only [Traffic.step] at hs
      split_ifs at hs with hpos
      exact hpos
    exact ⟨fun _ => h.acknowledging hpos, fun _ => h.acknowledging hpos⟩
  | move r ctx ctx' a lifecycle hr hm =>
    refine ⟨fun hpos => hm.flags.1.trans (h.acknowledging hpos), fun hon => ?_⟩
    exact hm.flags.1.trans (h.acknowledged (hm.flags.2.symm.trans hon))

/-- The listeners have stopped, and no request is counted or on its way to be. -/
structure Quiet (s : Traffic) : Prop where
  accepting : s.lifecycle.accepting = false
  acceptsStopped : s.lifecycle.acceptsStopped = true
  active : s.lifecycle.active = 0
  incrementing : ∀ ctx ∈ s.requests, ctx.phase ≠ .incrementing

theorem Quiet.move {r : ℕ} {ctx ctx' : RequestContext} {lifecycle : TrafficLifecycle}
    (h : s.Quiet) (hsound : s.Sound) (hr : s.requests[r]? = some ctx)
    (hm : Move s ctx a ctx' lifecycle) : ctx'.phase ≠ .incrementing ∧ lifecycle = s.lifecycle := by
  -- a request that is in `finish` would be counted
  have hcounted : ctx.holdsToken = true ∨ ctx.undecided = true → False :=
    fun hc => hsound.active_ne_zero hr hc h.active
  have hmem := h.incrementing ctx (List.mem_of_getElem? hr)
  cases hm with
  | enter r hp hc => exact ⟨by simp, rfl⟩
  | refused r hp ha => exact ⟨by simp, rfl⟩
  | passed r hp ha =>
    rw [h.accepting] at ha
    cases ha
  | increment r hp => exact absurd hp hmem
  | admitted r hp ha ht => exact ⟨by simp, rfl⟩
  | undo r hp ha => exact ⟨by simp, rfl⟩
  | undoing r spurious phase lifecycle next hp hf =>
    exact (hcounted (.inr (by simp [RequestContext.undecided, hp]))).elim
  | releasing r spurious dropping phase lifecycle next hp hf =>
    exact (hcounted (.inl (by simp [RequestContext.holdsToken, hp]))).elim
  | take a dropping hp ht hc ha => exact ⟨by simp, rfl⟩
  | taken a dropping hp ht ha =>
    refine ⟨?_, rfl⟩
    cases dropping with
    | true => simp
    | false => exact hmem

theorem Quiet.step (h : s.Quiet) (hsound : s.Sound) (hs : s.step a = some s') : s'.Quiet := by
  cases step_cases hs with
  | request =>
    refine ⟨h.accepting, h.acceptsStopped, h.active, fun ctx hctx => ?_⟩
    rcases List.mem_append.mp hctx with hctx | hctx
    · exact h.incrementing ctx hctx
    · cases List.mem_singleton.mp hctx
      nofun
  | stopAccepting => exact ⟨rfl, h.acceptsStopped, h.active, h.incrementing⟩
  | acknowledge => exact ⟨h.accepting, rfl, h.active, h.incrementing⟩
  | move r ctx ctx' a lifecycle hr hm =>
    obtain ⟨hphase, rfl⟩ := h.move hsound hr hm
    refine ⟨h.accepting, h.acceptsStopped, h.active, fun c hc => ?_⟩
    rcases List.mem_or_eq_of_mem_set hc with hc | rfl
    · exact h.incrementing c hc
    · exact hphase

end Traffic

namespace DrainPhase

/-- The operations the coordinator has left once the traffic is quiet. -/
def rank : DrainPhase → ℕ
  | .stopping w => 6 + w.rank true
  | .ordering _ => 5
  | .draining _ w => 1 + w.rank true
  | .completed _ _ => 0

end DrainPhase

namespace TrafficShutdown

open Notify

def start : TrafficShutdown := ⟨.start, 0, 0, .stopping .idle⟩

/-- The next operation of the coordinator. `drain_mutations` and the flush, which come between the
two waits, count as one operation. The wait for the management listener, which is joined with the
first wait, counts as part of its return. -/
def advance (s : TrafficShutdown) : DrainPhase → Option DrainPhase
  | .stopping .returned => some (.ordering true)
  | .stopping w => (w.step s.changed s.traffic.lifecycle.acceptsStopped).map .stopping
  | .ordering acknowledged => some (.draining acknowledged .idle)
  | .draining acknowledged .returned => some (.completed acknowledged true)
  | .draining acknowledged w =>
    (w.step s.changed (decide (s.traffic.lifecycle.active = 0))).map (.draining acknowledged)
  | .completed _ _ => none

/-- The first wait is joined with the one for the management listener, so that its deadline may
pass although it has returned. -/
def timeout : DrainPhase → Option DrainPhase
  | .stopping _ => some (.ordering false)
  | .draining acknowledged _ => some (.completed acknowledged false)
  | _ => none

def step (s : TrafficShutdown) : TrafficShutdownAction → Option TrafficShutdown
  | .traffic a => (s.traffic.step a).map fun traffic =>
    { s with traffic := traffic, owed := s.owed + if s.traffic.announces a then 1 else 0 }
  | .notify =>
    if 0 < s.owed then some { s with changed := s.changed + 1, owed := s.owed - 1 } else none
  | .advance => (s.advance s.coordinator).map ({ s with coordinator := · })
  | .timeout => (timeout s.coordinator).map ({ s with coordinator := · })

abbrev run : TrafficShutdown → List TrafficShutdownAction → Option TrafficShutdown :=
  Transition.run step

def condition (s : TrafficShutdown) : Bool :=
  match s.coordinator with
  | .stopping _ => s.traffic.lifecycle.acceptsStopped
  | .draining _ _ => s.traffic.lifecycle.active = 0
  | _ => true

def admissions (s : TrafficShutdown) : TrafficShutdownAction → List ℕ
  | .traffic a => s.traffic.admissions a
  | _ => []

variable {s s' : TrafficShutdown} {a : TrafficShutdownAction} {as : List TrafficShutdownAction}

theorem advance_stopping {w : Waiter} (hw : w ≠ .returned) : s.advance (.stopping w) =
    (w.step s.changed s.traffic.lifecycle.acceptsStopped).map .stopping := by
  cases w with
  | returned => exact absurd rfl hw
  | _ => rfl

theorem advance_draining {w : Waiter} (hw : w ≠ .returned) (acknowledged : Bool) :
    s.advance (.draining acknowledged w) =
      (w.step s.changed (decide (s.traffic.lifecycle.active = 0))).map
        (.draining acknowledged) := by
  cases w with
  | returned => exact absurd rfl hw
  | _ => rfl

/-- What the phase of the coordinator rests on: its subscription, and what it has learnt. -/
def Informed (s : TrafficShutdown) : DrainPhase → Prop
  | .stopping w =>
    w.Sound s.changed (s.traffic.lifecycle.acceptsStopped = true) (0 < s.owed) ∧
      (w = .returned → s.traffic.lifecycle.accepting = false)
  | .ordering acknowledged => acknowledged = true → s.traffic.lifecycle.accepting = false
  | .draining acknowledged w =>
    w.Sound s.changed (decide (s.traffic.lifecycle.active = 0) = true) (0 < s.owed) ∧
      (acknowledged = true → s.traffic.lifecycle.accepting = false) ∧
      (acknowledged = true → w = .returned → s.traffic.Drained)
  | .completed acknowledged drained =>
    acknowledged = true → drained = true → s.traffic.Drained

structure Sound (s : TrafficShutdown) : Prop where
  traffic : s.traffic.Sound
  closing : s.traffic.Closing
  informed : s.Informed s.coordinator

theorem sound_start : start.Sound :=
  ⟨Traffic.sound_start, ⟨nofun, nofun⟩, trivial, nofun⟩

/-- A step of the requests or of the listeners: a wait whose condition it makes true is owed a
notification. -/
theorem Informed.traffic {b : TrafficAction} {traffic : Traffic} {phase : DrainPhase}
    (h : s.Informed phase) (hsound : s.traffic.Sound) (hs : s.traffic.step b = some traffic) :
    Informed
      { s with traffic := traffic, owed := s.owed + if s.traffic.announces b then 1 else 0 }
      phase := by
  have howed : 0 < s.owed → 0 < s.owed + if s.traffic.announces b then 1 else 0 :=
    fun hpos => Nat.lt_of_lt_of_le hpos (Nat.le_add_right _ _)
  have hannounced : s.traffic.announces b = true →
      0 < s.owed + if s.traffic.announces b then 1 else 0 := by
    intro hann
    rw [hann]
    exact Nat.succ_pos _
  cases phase with
  | stopping w =>
    refine ⟨h.1.change (fun hon => ?_) howed, fun hw => Traffic.accepting_step hs (h.2 hw)⟩
    cases hoff : s.traffic.lifecycle.acceptsStopped with
    | true => exact .inl rfl
    | false => exact .inr (hannounced (Traffic.announces_of_acceptsStopped hs hoff hon))
  | ordering acknowledged => exact fun hack => Traffic.accepting_step hs (h hack)
  | draining acknowledged w =>
    refine ⟨h.1.change (fun hzero => ?_) howed, fun hack => Traffic.accepting_step hs (h.2.1 hack),
      fun hack hw => (h.2.2 hack hw).step hs⟩
    by_cases hne : s.traffic.lifecycle.active = 0
    · exact .inl (decide_eq_true hne)
    · exact .inr (hannounced (Traffic.announces_of_drained hsound hs hne (of_decide_eq_true hzero)))
  | completed acknowledged drained => exact fun hack hdone => (h hack hdone).step hs

theorem Informed.notify {phase : DrainPhase} (h : s.Informed phase) :
    Informed { s with changed := s.changed + 1, owed := s.owed - 1 } phase := by
  cases phase with
  | stopping w => exact ⟨h.1.notify _ _, h.2⟩
  | ordering acknowledged => exact h
  | draining acknowledged w => exact ⟨h.1.notify _ _, h.2⟩
  | completed acknowledged drained => exact h

/-- What a wait returns on is what its caller may rely on. -/
theorem Sound.advance {phase : DrainPhase} (h : s.Sound)
    (hs : s.advance s.coordinator = some phase) : s.Informed phase := by
  have hinformed := h.informed
  generalize s.coordinator = old at hs hinformed
  cases old with
  | stopping w =>
    by_cases hw : w = .returned
    · subst hw
      cases hs
      exact fun _ => hinformed.2 rfl
    · rw [advance_stopping hw] at hs
      obtain ⟨w', hw', rfl⟩ := Option.map_eq_some_iff.mp hs
      refine ⟨hinformed.1.step hw', fun hr => ?_⟩
      subst hr
      exact h.closing.acknowledged (Waiter.ready_of_step hw')
  | ordering acknowledged =>
    cases hs
    exact ⟨trivial, hinformed, nofun⟩
  | draining acknowledged w =>
    by_cases hw : w = .returned
    · subst hw
      cases hs
      exact fun hack _ => hinformed.2.2 hack rfl
    · rw [advance_draining hw] at hs
      obtain ⟨w', hw', rfl⟩ := Option.map_eq_some_iff.mp hs
      refine ⟨hinformed.1.step hw', hinformed.2.1, fun hack hr => ?_⟩
      subst hr
      have hzero : s.traffic.lifecycle.active = 0 := of_decide_eq_true (Waiter.ready_of_step hw')
      have hactive := h.traffic.active
      exact ⟨hinformed.2.1 hack, by omega⟩
  | completed acknowledged drained => cases hs

theorem Informed.timeout {old phase : DrainPhase} (h : s.Informed old)
    (hs : timeout old = some phase) : s.Informed phase := by
  cases old with
  | stopping w =>
    cases hs
    nofun
  | draining acknowledged w =>
    cases hs
    nofun
  | ordering acknowledged => cases hs
  | completed acknowledged drained => cases hs

theorem Sound.step (h : s.Sound) (hs : s.step a = some s') : s'.Sound := by
  cases a with
  | traffic b =>
    obtain ⟨traffic, hb, rfl⟩ := Option.map_eq_some_iff.mp hs
    exact ⟨h.traffic.step hb, h.closing.step hb, h.informed.traffic h.traffic hb⟩
  | notify =>
    simp only [TrafficShutdown.step] at hs
    split_ifs at hs
    cases hs
    exact ⟨h.traffic, h.closing, h.informed.notify⟩
  | advance =>
    obtain ⟨phase, hp, rfl⟩ := Option.map_eq_some_iff.mp hs
    exact ⟨h.traffic, h.closing, h.advance hp⟩
  | timeout =>
    obtain ⟨phase, hp, rfl⟩ := Option.map_eq_some_iff.mp hs
    exact ⟨h.traffic, h.closing, h.informed.timeout hp⟩

theorem sound_run (h : run start as = some s) : s.Sound :=
  Transition.run_invariant (fun _ _ _ h hs => h.step hs) sound_start h

theorem traffic_step (hs : s.step a = some s') :
    s'.traffic = s.traffic ∨ ∃ b, a = .traffic b ∧ s.traffic.step b = some s'.traffic := by
  cases a with
  | traffic b =>
    obtain ⟨traffic, hb, rfl⟩ := Option.map_eq_some_iff.mp hs
    exact .inr ⟨b, rfl, hb⟩
  | notify =>
    simp only [step] at hs
    split_ifs at hs
    cases hs
    exact .inl rfl
  | advance =>
    obtain ⟨phase, -, rfl⟩ := Option.map_eq_some_iff.mp hs
    exact .inl rfl
  | timeout =>
    obtain ⟨phase, -, rfl⟩ := Option.map_eq_some_iff.mp hs
    exact .inl rfl

theorem drained_run {bs : List TrafficShutdownAction} (h : s.traffic.Drained)
    (hr : run s bs = some s') :
    s'.traffic.Drained ∧ Transition.trace step admissions s bs = [] := by
  apply Transition.trace_invariant (P := fun l u => u.traffic.Drained ∧ l = []) _ ⟨h, rfl⟩ hr
  rintro l u b u' ⟨hu, rfl⟩ hb
  constructor
  · rcases traffic_step hb with hsame | ⟨c, -, hc⟩
    · rwa [hsame]
    · exact hu.step hc
  · cases b with
    | traffic c => exact Traffic.admissions_eq_nil hu.accepting c
    | _ => rfl

/-- A wait whose condition holds has its notification behind it or owed to it. -/
theorem Sound.enabled (h : s.Sound) (hcondition : s.condition = true) (howed : s.owed = 0)
    (hopen : ∀ acknowledged drained, s.coordinator ≠ .completed acknowledged drained) :
    ∃ s', s.step .advance = some s' := by
  have hnone : ¬0 < s.owed := by omega
  have hinformed := h.informed
  obtain ⟨phase, hphase⟩ : ∃ phase, s.advance s.coordinator = some phase := by
    unfold condition at hcondition
    cases hc : s.coordinator with
    | stopping w =>
      rw [hc] at hcondition hinformed
      by_cases hw : w = .returned
      · subst hw
        exact ⟨_, rfl⟩
      · obtain ⟨w', hw'⟩ := hinformed.1.enabled hcondition hnone hw
        refine ⟨.stopping w', ?_⟩
        rw [advance_stopping hw, hw']
        rfl
    | ordering acknowledged => exact ⟨_, rfl⟩
    | draining acknowledged w =>
      rw [hc] at hcondition hinformed
      by_cases hw : w = .returned
      · subst hw
        exact ⟨_, rfl⟩
      · obtain ⟨w', hw'⟩ := hinformed.1.enabled hcondition hnone hw
        refine ⟨.draining acknowledged w', ?_⟩
        rw [advance_draining hw, hw']
        rfl
    | completed acknowledged drained => exact absurd hc (hopen acknowledged drained)
  exact ⟨_, Option.map_eq_some_iff.mpr ⟨phase, hphase, rfl⟩⟩

theorem condition_of_quiet (h : s.traffic.Quiet) : s.condition = true := by
  unfold condition
  split
  · exact h.acceptsStopped
  · exact decide_eq_true h.active
  · rfl

/-- With the traffic quiet, every operation of the coordinator brings it closer to its end. -/
theorem rank_advance {old phase : DrainPhase} (h : s.traffic.Quiet) (hsound : s.Informed old)
    (hs : s.advance old = some phase) : phase.rank < old.rank := by
  cases old with
  | stopping w =>
    by_cases hw : w = .returned
    · subst hw
      cases hs
      exact Nat.lt_succ_self 5
    · rw [advance_stopping hw, h.acceptsStopped] at hs
      obtain ⟨w', hw', rfl⟩ := Option.map_eq_some_iff.mp hs
      have hlt : w'.rank true < w.rank true := hsound.1.rank_step nofun hw'
      exact Nat.add_lt_add_left hlt 6
  | ordering acknowledged =>
    cases hs
    exact Nat.lt_of_succ_lt (Nat.lt_succ_self 4)
  | draining acknowledged w =>
    by_cases hw : w = .returned
    · subst hw
      cases hs
      exact Nat.zero_lt_one
    · rw [advance_draining hw, decide_eq_true h.active] at hs
      obtain ⟨w', hw', rfl⟩ := Option.map_eq_some_iff.mp hs
      have hlt : w'.rank true < w.rank true := hsound.1.rank_step nofun hw'
      exact Nat.add_lt_add_left hlt 1
  | completed acknowledged drained => cases hs

theorem rank_step (h : s.Sound) (hq : s.traffic.Quiet) (hs : s.step a = some s') :
    s'.coordinator.rank + (if a = .advance then 1 else 0) ≤ s.coordinator.rank := by
  cases a with
  | traffic b =>
    obtain ⟨traffic, -, rfl⟩ := Option.map_eq_some_iff.mp hs
    exact Nat.le_refl _
  | notify =>
    simp only [step] at hs
    split_ifs at hs
    cases hs
    exact Nat.le_refl _
  | advance =>
    obtain ⟨phase, hp, rfl⟩ := Option.map_eq_some_iff.mp hs
    exact rank_advance hq h.informed hp
  | timeout =>
    obtain ⟨phase, hp, rfl⟩ := Option.map_eq_some_iff.mp hs
    cases hc : s.coordinator with
    | stopping w =>
      rw [hc] at hp
      cases hp
      show 5 ≤ 6 + w.rank true
      omega
    | draining acknowledged w =>
      rw [hc] at hp
      cases hp
      exact Nat.zero_le _
    | ordering acknowledged =>
      rw [hc] at hp
      cases hp
    | completed acknowledged drained =>
      rw [hc] at hp
      cases hp

theorem quiet_run {bs : List TrafficShutdownAction} (h : s.Sound) (hq : s.traffic.Quiet)
    (hr : run s bs = some s') :
    s'.traffic.Quiet ∧ s'.coordinator.rank + bs.count .advance ≤ s.coordinator.rank := by
  refine (Transition.run_history (P := fun cs u => u.Sound ∧ u.traffic.Quiet ∧
    u.coordinator.rank + cs.count .advance ≤ s.coordinator.rank) ⟨h, hq, Nat.le_refl _⟩ ?_ hr).2
  rintro cs u b u' - ⟨hu, hquiet, hle⟩ hb
  refine ⟨hu.step hb, ?_, ?_⟩
  · rcases traffic_step hb with hsame | ⟨c, -, hc⟩
    · rwa [hsame]
    · exact hquiet.step hu.traffic hc
  · have hstep := rank_step hu hquiet hb
    rw [List.count_append, List.count_singleton]
    simp only [beq_iff_eq]
    omega

theorem rank_le (phase : DrainPhase) : phase.rank ≤ 9 := by
  cases phase with
  | stopping w => cases w <;> simp [DrainPhase.rank, Waiter.rank]
  | draining acknowledged w => cases w <;> simp [DrainPhase.rank, Waiter.rank]
  | _ => simp [DrainPhase.rank]

/-- The coordinator waits for the traffic without losing a wake-up and without giving up early. If
both of its waits returned, no token is left then or later and no call of `try_admit` will return
true. While what it waits for holds and no notification is owed, its next operation is possible. Once
the listeners have stopped and no request is counted or about to be, this stays so, and the
coordinator completes after at most nine operations of its own. -/
theorem drain_wait_completes (h : run start as = some s) :
    (s.coordinator = .completed true true →
        ∀ bs s', run s bs = some s' →
          s'.traffic.tokens = 0 ∧ Transition.trace step admissions s bs = []) ∧
      (s.condition = true → s.owed = 0 →
        (∀ acknowledged drained, s.coordinator ≠ .completed acknowledged drained) →
          ∃ s', s.step .advance = some s') ∧
      (s.traffic.Quiet →
        ∀ bs s', run s bs = some s' → s'.condition = true ∧ bs.count .advance ≤ 9) := by
  have hsound := sound_run h
  refine ⟨fun hdone bs s' hr => ?_, hsound.enabled, fun hq bs s' hr => ?_⟩
  · have hinformed := hsound.informed
    rw [hdone] at hinformed
    obtain ⟨hdrained, hnone⟩ := drained_run (hinformed rfl rfl) hr
    exact ⟨hdrained.tokens, hnone⟩
  · obtain ⟨hquiet, hrank⟩ := quiet_run hsound hq hr
    have hle := rank_le s.coordinator
    exact ⟨condition_of_quiet hquiet, by omega⟩

/-- One request is admitted and released while the coordinator sleeps in each of its waits. -/
theorem drain_wait_completes_released :
    ∃ s, run start
        [.advance, .advance, .traffic .request, .traffic (.tryAdmit 0), .traffic (.check 0),
          .traffic (.increment 0), .traffic (.confirm 0), .traffic .stopAccepting,
          .traffic .acknowledge, .notify, .advance, .advance, .advance, .advance, .advance,
          .advance, .advance, .traffic (.drop 0), .traffic (.finish 0 false),
          .traffic (.finish 0 false), .notify, .advance, .advance, .advance, .advance] = some s ∧
      s.coordinator = .completed true true ∧
      ∀ bs s', run s bs = some s' →
        s'.traffic.tokens = 0 ∧ Transition.trace step admissions s bs = [] := by
  refine ⟨⟨⟨⟨false, 0, true, 0⟩, [⟨false, .dropped⟩], 0⟩, 2, 0, .completed true true⟩, ?run, rfl,
    (drain_wait_completes ?run).1 rfl⟩
  decide +kernel

end TrafficShutdown

end ChpProxy
