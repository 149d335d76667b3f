import ChpProxy.Lib.Census
import ChpProxy.Registry.Tracked

/-! What the mutation tracker accounts for over a run: the number of active mutations, and every
diagnostic that was pushed. -/
namespace ChpProxy

namespace Tracked

variable {s s' : Tracked} {a : TrackerAction} {as : List TrackerAction}

theorem countP_set_none {g : ℕ} {active : ActiveMutation}
    (h : s.guards[g]? = some (some active)) :
    (s.guards.set g none).countP (·.isSome) + 1 = s.live := by
  have hset := Census.countP_set h (·.isSome) none
  unfold live
  simpa using hset

/-- The counter agrees with the guards, and no live guard has run its `finish`. -/
structure Guarded (s : Tracked) : Prop where
  active : s.tracker.active = s.live
  references : s.live ≤ maxReferences
  unfinished : ∀ active, some active ∈ s.guards → active.finished = false

theorem guarded_start : start.Guarded :=
  ⟨rfl, Nat.zero_le _, fun _ h => nomatch h⟩

theorem Guarded.release (h : s.Guarded) {g : ℕ} {active : ActiveMutation}
    (hg : s.guards[g]? = some (some active)) {t : MutationTracker}
    (ht : t.active = s.tracker.active - 1) :
    Guarded { s with tracker := t, guards := s.guards.set g none } := by
  have hcount := countP_set_none hg
  have hactive := h.active
  have hbound := h.references
  constructor
  · show t.active = (s.guards.set g none).countP (·.isSome)
    omega
  · show (s.guards.set g none).countP (·.isSome) ≤ maxReferences
    omega
  · intro active' hmem
    rcases List.mem_or_eq_of_mem_set hmem with hold | hnew
    · exact h.unfinished active' hold
    · cases hnew

theorem Guarded.step (h : s.Guarded) (hs : s.step a = some s') : s'.Guarded := by
  cases step_cases hs with
  | accept operation ho hl =>
    have hactive := h.active
    have hlive : (s.guards ++ [some (⟨operation, false⟩ : ActiveMutation)]).countP (·.isSome) =
        s.live + 1 := by
      rw [List.countP_append]
      rfl
    constructor
    · show saturatingAdd s.tracker.active 1 = _
      unfold live saturatingAdd
      rw [hlive]
      unfold maxReferences at hl
      omega
    · unfold live
      rw [hlive]
      exact hl
    · intro active hmem
      rcases List.mem_append.mp hmem with hold | hnew
      · exact h.unfinished active hold
      · cases List.mem_singleton.mp hnew
        rfl
  | refuse operation => exact h
  | finish g active failure panic hg =>
    exact h.release hg (MutationTracker.active_finish _ _ _)
  | drop g active hg =>
    apply h.release hg
    have hf := h.unfinished active (List.mem_of_getElem? hg)
    simp [ActiveMutation.drop, hf]
  | panicSeal => exact ⟨h.active, h.references, h.unfinished⟩
  | indeterminateSeal => exact ⟨h.active, h.references, h.unfinished⟩
  | wait ha => exact ⟨(active_shutdownSeal _).trans h.active, h.references, h.unfinished⟩
  | drained ha => exact ⟨(active_shutdownSeal _).trans h.active, h.references, h.unfinished⟩
  | polled d hd ha => exact ⟨h.active, h.references, h.unfinished⟩
  | expired d hd => exact ⟨h.active, h.references, h.unfinished⟩

/-- Every drain so far accounted for the diagnostics since the drain before it, and the tracker
retains those since the last one. -/
structure Booked (events : List (Ledger.Event DetachedMutationDiagnostic MutationDrainOutcome))
    (s : Tracked) : Prop where
  retains : s.tracker.Retains (Ledger.book events).pending
  accounts : ∀ account ∈ (Ledger.book events).closed, account.2.Accounts account.1
  timedOut : ∀ account ∈ (Ledger.book events).closed,
    account.2.timedOut = true ↔ account.2.activeMutations ≠ 0

variable {events : List (Ledger.Event DetachedMutationDiagnostic MutationDrainOutcome)}

theorem booked_start : start.Booked [] :=
  ⟨MutationTracker.retains_nil rfl rfl rfl, (fun _ h => nomatch h), (fun _ h => nomatch h)⟩

theorem Booked.entries (h : s.Booked events) {items : List DetachedMutationDiagnostic}
    (ht : s'.tracker.Retains ((Ledger.book events).pending ++ items)) :
    s'.Booked (events ++ items.map .entry) := by
  have hbook := Ledger.book_append_entries events items
  constructor
  · rw [hbook]
    exact ht
  · rw [hbook]
    exact h.accounts
  · rw [hbook]
    exact h.timedOut

/-- A drain closes the account of everything since the drain before it. -/
theorem Booked.report (h : s.Booked events) {t : MutationTracker} {timedOut : Bool}
    (ht : t.Retains (Ledger.book events).pending) (ho : timedOut = true ↔ t.active ≠ 0)
    (hs : s'.tracker = (t.takeOutcome timedOut).2) :
    s'.Booked (events ++ [.report (t.takeOutcome timedOut).1]) := by
  obtain ⟨haccounts, hretains⟩ := ht.takeOutcome timedOut
  have hbook := Ledger.book_concat events (.report (t.takeOutcome timedOut).1)
  constructor
  · rw [hbook, hs]
    exact hretains
  · rw [hbook]
    intro account hmem
    rcases List.mem_append.mp hmem with hold | hnew
    · exact h.accounts account hold
    · cases List.mem_singleton.mp hnew
      exact haccounts
  · rw [hbook]
    intro account hmem
    rcases List.mem_append.mp hmem with hold | hnew
    · exact h.timedOut account hold
    · cases List.mem_singleton.mp hnew
      exact ho

theorem Booked.same (h : s.Booked events) (hd : s'.tracker.diagnostics = s.tracker.diagnostics)
    (hf : s'.tracker.droppedDetachedFailures = s.tracker.droppedDetachedFailures)
    (hp : s'.tracker.droppedDetachedPanics = s.tracker.droppedDetachedPanics) :
    s'.Booked (events ++ []) := by
  rw [List.append_nil]
  have hr := h.retains
  exact ⟨⟨hd.trans hr.diagnostics, hf.trans hr.failures, hp.trans hr.panics⟩, h.accounts,
    h.timedOut⟩

theorem Booked.step (hg : s.Guarded) (h : s.Booked events) (hs : s.step a = some s') :
    s'.Booked (events ++ s.records a) := by
  cases step_cases hs with
  | accept operation ho hl => exact h.same rfl rfl rfl
  | refuse operation => exact h.same rfl rfl rfl
  | finish g active failure panic hguard =>
    have hitems : s.records (.finish g failure panic) =
        List.map .entry (failure.toList.map DetachedMutationDiagnostic.failure ++
          panic.toList.map DetachedMutationDiagnostic.panic) := by
      simp [records, Function.comp_def]
    rw [hitems]
    exact h.entries (h.retains.finish failure panic)
  | drop g active hguard =>
    have hf := hg.unfinished active (List.mem_of_getElem? hguard)
    have hitems : s.records (.drop g) = List.map .entry
        [.panic ⟨active.operation, active.operation.terminatedMessage⟩] := by
      simp [records, hguard]
    rw [hitems]
    apply h.entries
    have hfinish := h.retains.finish none
      (some ⟨active.operation, active.operation.terminatedMessage⟩)
    simpa [ActiveMutation.drop, hf] using hfinish
  | panicSeal => exact h.same rfl rfl rfl
  | indeterminateSeal => exact h.same rfl rfl rfl
  | wait ha =>
    have hpoll : s.tracker.shutdownSeal.pollDrain = none := by
      simp [MutationTracker.pollDrain, active_shutdownSeal, ha]
    have hnone : s.records .drain = [] := by simp [records, hpoll]
    have hr := h.retains.shutdownSeal
    rw [hnone, List.append_nil]
    exact ⟨hr, h.accounts, h.timedOut⟩
  | drained ha =>
    have hactive : s.tracker.shutdownSeal.active = 0 := (active_shutdownSeal _).trans ha
    have hpoll : s.tracker.shutdownSeal.pollDrain =
        some (s.tracker.shutdownSeal.takeOutcome false) := by
      simp [MutationTracker.pollDrain, hactive]
    have hone : s.records .drain = [.report (s.tracker.shutdownSeal.takeOutcome false).1] := by
      simp [records, hpoll]
    rw [hone]
    exact h.report (h.retains.shutdownSeal) (by simp [hactive]) rfl
  | polled d hd ha =>
    have hpoll : s.tracker.pollDrain = some (s.tracker.takeOutcome false) := by
      simp [MutationTracker.pollDrain, ha]
    have hone : s.records (.pollDrain d) = [.report (s.tracker.takeOutcome false).1] := by
      simp [records, hpoll]
    rw [hone]
    exact h.report h.retains (by simp [ha]) rfl
  | expired d hd => exact h.report h.retains (by simp) rfl

/-- A guard is consumed by exactly one action, and stays consumed. -/
def Spent (as : List TrackerAction) (s : Tracked) : Prop :=
  ∀ g, as.countP (·.releases g) = if s.guards[g]? = some none then 1 else 0

theorem Spent.keep (h : s.Spent as) (hr : ∀ g, a.releases g = false)
    (hg : ∀ g : ℕ, s'.guards[g]? = some none ↔ s.guards[g]? = some none) : s'.Spent (as ++ [a]) := by
  intro g
  rw [List.countP_append, h g, List.countP_singleton, hr g]
  simp only [hg g, Bool.false_eq_true, if_false, Nat.add_zero]

theorem Spent.release (h : s.Spent as) {g : ℕ} {active : ActiveMutation}
    (hg : s.guards[g]? = some (some active)) (hr : ∀ g', a.releases g' = decide (g = g'))
    (hs : s'.guards = s.guards.set g none) : s'.Spent (as ++ [a]) := by
  intro g'
  obtain ⟨hlt, hget⟩ := List.getElem?_eq_some_iff.mp hg
  rw [List.countP_append, h g', List.countP_singleton, hr g', hs]
  by_cases hgg : g = g'
  · subst hgg
    simp [hget, hlt]
  · simp [hgg]

theorem Spent.step (h : s.Spent as) (hs : s.step a = some s') : s'.Spent (as ++ [a]) := by
  cases step_cases hs with
  | accept operation ho hl =>
    apply h.keep (fun _ => rfl)
    intro g
    rcases lt_trichotomy g s.guards.length with hlt | heq | hgt
    · rw [List.getElem?_append_left hlt]
    · subst heq
      simp
    · have hnone : s.guards[g]? = none := List.getElem?_eq_none_iff.mpr hgt.le
      rw [hnone, List.getElem?_append_right hgt.le, List.getElem?_singleton]
      simp [Nat.sub_ne_zero_of_lt hgt]
  | finish g active failure panic hg => exact h.release hg (fun _ => rfl) rfl
  | drop g active hg => exact h.release hg (fun _ => rfl) rfl
  | refuse _ | panicSeal | indeterminateSeal | wait _ | drained _ | polled _ _ _ | expired _ _ =>
    exact h.keep (fun _ => rfl) fun _ => Iff.rfl

theorem active_le_of_sealed (hseal : s.tracker.sealState ≠ .open) (hs : s.step a = some s') :
    s'.tracker.sealState ≠ .open ∧ s'.tracker.active ≤ s.tracker.active := by
  cases step_cases hs with
  | accept operation ho hl => exact absurd ho hseal
  | refuse operation => exact ⟨hseal, le_refl _⟩
  | finish g active failure panic hg =>
    constructor
    · simpa using hseal
    · simp
  | drop g active hg =>
    unfold ActiveMutation.drop
    split_ifs
    · exact ⟨hseal, le_refl _⟩
    · constructor
      · simpa using hseal
      · simp
  | panicSeal => exact ⟨nofun, le_refl _⟩
  | indeterminateSeal => exact ⟨nofun, le_refl _⟩
  | wait ha => exact ⟨sealState_shutdownSeal _, (active_shutdownSeal _).le⟩
  | drained ha => exact ⟨sealState_shutdownSeal _, (active_shutdownSeal _).le⟩
  | polled d hd ha => exact ⟨hseal, le_refl _⟩
  | expired d hd => exact ⟨hseal, le_refl _⟩

def outcomes (s : Tracked) : List MutationDrainOutcome :=
  s.drains.filterMap fun d => match d with | .returned o => some o | .waiting => none

theorem outcomes_conclude {d : ℕ} (hd : s.drains[d]? = some .waiting)
    (r : MutationDrainOutcome × MutationTracker) :
    (s.conclude d r).outcomes.Perm (s.outcomes ++ [r.1]) := by
  obtain ⟨hlt, hget⟩ := List.getElem?_eq_some_iff.mp hd
  have hsplit : s.drains = s.drains.take d ++ .waiting :: s.drains.drop (d + 1) := by
    rw [← hget, List.cons_getElem_drop_succ, List.take_append_drop]
  unfold outcomes conclude
  conv_rhs => rw [hsplit]
  rw [List.set_eq_take_append_cons_drop, if_pos hlt]
  simp only [List.filterMap_append, List.filterMap_cons]
  rw [List.append_assoc]
  apply List.Perm.append_left
  exact (List.perm_append_singleton _ _).symm

theorem outcomes_step (h : s.outcomes.Perm (Ledger.reports events)) (hs : s.step a = some s') :
    s'.outcomes.Perm (Ledger.reports (events ++ s.records a)) := by
  have happ : Ledger.reports (events ++ s.records a) =
      Ledger.reports events ++ Ledger.reports (s.records a) := List.filterMap_append
  rw [happ]
  cases step_cases hs with
  | finish g active failure panic hg =>
    have hnone : Ledger.reports (s.records (.finish g failure panic)) = [] := by
      cases failure <;> cases panic <;> rfl
    rw [hnone, List.append_nil]
    exact h
  | drop g active hg =>
    have hnone : Ledger.reports (s.records (.drop g)) = [] := by simp [records, hg, Ledger.reports]
    rw [hnone, List.append_nil]
    exact h
  | accept _ _ _ | refuse _ | panicSeal | indeterminateSeal =>
    show s.outcomes.Perm (Ledger.reports events ++ [])
    rw [List.append_nil]
    exact h
  | wait ha =>
    have hnone : Ledger.reports (s.records .drain) = [] := by
      simp [records, MutationTracker.pollDrain, active_shutdownSeal, ha, Ledger.reports]
    rw [hnone, List.append_nil]
    simpa [outcomes] using h
  | drained ha =>
    have hone : Ledger.reports (s.records .drain) =
        [(s.tracker.shutdownSeal.takeOutcome false).1] := by
      simp [records, MutationTracker.pollDrain, active_shutdownSeal, ha, Ledger.reports]
    rw [hone]
    simpa [outcomes] using h.append_right _
  | polled d hd ha =>
    have hone : Ledger.reports (s.records (.pollDrain d)) = [(s.tracker.takeOutcome false).1] := by
      simp [records, MutationTracker.pollDrain, ha, Ledger.reports]
    rw [hone]
    exact (outcomes_conclude hd _).trans (h.append_right _)
  | expired d hd => exact (outcomes_conclude hd _).trans (h.append_right _)

def history (as : List TrackerAction) :
    List (Ledger.Event DetachedMutationDiagnostic MutationDrainOutcome) :=
  Transition.trace step records start as

theorem history_invariant (h : run start as = some s) :
    s.Guarded ∧ s.Booked (history as) ∧ s.outcomes.Perm (Ledger.reports (history as)) := by
  refine Transition.trace_invariant
    (P := fun events t => t.Guarded ∧ t.Booked events ∧ t.outcomes.Perm (Ledger.reports events))
    ?_ ⟨guarded_start, booked_start, List.Perm.refl _⟩ h
  rintro events t a t' ⟨hg, hb, ho⟩ ht
  exact ⟨hg.step ht, hb.step hg ht, outcomes_step ho ht⟩

theorem spent_run (h : run start as = some s) : s.Spent as := by
  have hstart : start.Spent [] := fun g => rfl
  refine Transition.run_history (P := fun bs t => t.Spent bs) hstart ?_ h
  intro bs t a t' _ ht hs
  exact ht.step hs

/-- Consuming a guard never finds the counter at zero. -/
theorem active_of_release (hg : s.Guarded) (hs : s.step a = some s')
    (hr : ∃ g, a.releases g = true) : s'.tracker.active + 1 = s.tracker.active := by
  have hactive := hg.active
  have hactive' := (hg.step hs).active
  have hlive : s'.live + 1 = s.live := by
    obtain ⟨g, hr⟩ := hr
    cases step_cases hs with
    | finish g' active failure panic hguard => exact countP_set_none hguard
    | drop g' active hguard => exact countP_set_none hguard
    | _ => cases hr
  omega

theorem sealed_of_drain (h : run start as = some s) (hd : TrackerAction.drain ∈ as) :
    s.tracker.sealState ≠ .open := by
  refine Transition.run_history
    (P := fun bs t => TrackerAction.drain ∈ bs → t.tracker.sealState ≠ .open) nofun ?_ h hd
  intro bs t a t' _ ht hs hmem
  rcases List.mem_append.mp hmem with hold | hnew
  · exact (active_le_of_sealed (ht hold) hs).1
  · cases List.mem_singleton.mp hnew
    cases step_cases hs with
    | wait ha => exact sealState_shutdownSeal _
    | drained ha => exact sealState_shutdownSeal _

theorem active_le_run (hseal : s.tracker.sealState ≠ .open) (h : run s as = some s') :
    s'.tracker.active ≤ s.tracker.active :=
  Transition.run_relation (P := fun t : Tracked => t.tracker.sealState ≠ .open)
    (R := fun t t' => t'.tracker.active ≤ t.tracker.active) (fun _ => le_refl _)
    (fun _ _ _ h₁ h₂ => h₂.trans h₁) (fun _ _ _ ht hs => (active_le_of_sealed ht hs).1)
    (fun _ _ _ ht hs => (active_le_of_sealed ht hs).2) hseal h

/-- The accounting of the tracker, in every state that any order of admissions, finished and dropped
guards, seals and drains reaches. Counters of dropped diagnostics stop at the maximum of `usize`. -/
theorem mutation_accounting (h : run start as = some s) :
    s.tracker.active = s.live ∧
    (∀ g, as.countP (·.releases g) = if s.guards[g]? = some none then 1 else 0) ∧
    (∀ a s', s.step a = some s' → (∃ g, a.releases g = true) →
      s'.tracker.active + 1 = s.tracker.active) ∧
    (∀ o ∈ s.outcomes, o.timedOut = true ↔ o.activeMutations ≠ 0) ∧
    (TrackerAction.drain ∈ as →
      ∀ bs t, run s bs = some t → t.tracker.active ≤ s.tracker.active) ∧
    s.tracker.diagnostics.length ≤ detachedMutationDiagnosticCapacity ∧
    ∃ accounts : List (List DetachedMutationDiagnostic × MutationDrainOutcome),
      ∃ pending : List DetachedMutationDiagnostic,
        Ledger.entries (history as) = accounts.flatMap (·.1) ++ pending ∧
        s.outcomes.Perm (accounts.map (·.2)) ∧
        (∀ account ∈ accounts, account.2.Accounts account.1) ∧ s.tracker.Retains pending := by
  obtain ⟨hguarded, hbooked, houtcomes⟩ := history_invariant h
  have hperm : s.outcomes.Perm ((Ledger.book (history as)).closed.map (·.2)) := by
    rw [← Ledger.reports_eq]
    exact houtcomes
  refine ⟨hguarded.active, spent_run h, fun a s' hs hr => active_of_release hguarded hs hr, ?_,
    fun hd bs t ht => active_le_run (sealed_of_drain h hd) ht, ?_, _, _,
    Ledger.entries_eq (history as), hperm, hbooked.accounts, hbooked.retains⟩
  · intro o ho
    obtain ⟨account, hmem, rfl⟩ := List.mem_map.mp (hperm.mem_iff.mp ho)
    exact hbooked.timedOut account hmem
  · rw [hbooked.retains.diagnostics, Ledger.length_rtake]
    exact Nat.min_le_left _ _

theorem mutation_accounting_two_drains :
    ∃ s, run start [.begin .add, .begin .delete, .drain, .deadline 0,
        .finish 0 (some ⟨.add, .message "lost"⟩) none, .drop 1, .drain] = some s ∧
      s.outcomes.length = 2 ∧ s.tracker.active = s.live := by
  obtain ⟨s, hs, hlen⟩ := Option.map_eq_some_iff.mp (show (run start [.begin .add, .begin .delete,
    .drain, .deadline 0, .finish 0 (some ⟨.add, .message "lost"⟩) none, .drop 1, .drain]).map
      (·.outcomes.length) = some 2 from rfl)
  exact ⟨s, hs, hlen, (mutation_accounting hs).1⟩

/-- Mutations that are admitted one after the other and all fail after their callers left. -/
def failing : ℕ → List TrackerAction
  | 0 => []
  | n + 1 => failing n ++ [.begin .add] ++ [.finish n (some ⟨.add, .message "lost"⟩) none]

theorem run_failing (n : ℕ) :
    ∃ s, run start (failing n) = some s ∧ s.tracker.sealState = .open ∧ s.tracker.active = 0 ∧
      s.guards = List.replicate n none ∧ s.drains = [] ∧
      history (failing n) =
        List.map .entry (List.replicate n (.failure ⟨.add, .message "lost"⟩)) := by
  induction n with
  | zero => exact ⟨start, rfl, rfl, rfl, rfl, rfl, rfl⟩
  | succ n ih =>
    obtain ⟨s, hrun, hopen, hactive, hguards, hdrains, hhistory⟩ := ih
    have hlive : s.live = 0 := by simp [live, hguards]
    have hbegin : s.step (.begin .add) = some { s with
        tracker := { s.tracker with active := 1 }
        guards := List.replicate n none ++ [some ⟨.add, false⟩] } := by
      simp [step, begin, MutationTracker.begin, hopen, hactive, hlive, hguards, maxReferences,
        saturatingAdd]
    have hrun' := (Transition.run_concat_eq_some_iff step).mpr ⟨s, hrun, hbegin⟩
    have hget : (List.replicate n none ++ [some (⟨.add, false⟩ : ActiveMutation)])[n]? =
        some (some ⟨.add, false⟩) := by simp
    have hset : (List.replicate n none ++ [some (⟨.add, false⟩ : ActiveMutation)]).set n none =
        List.replicate (n + 1) none := by simp [List.replicate_succ']
    have hfinish : step
        { s with
          tracker := { s.tracker with active := 1 }
          guards := List.replicate n none ++ [some ⟨.add, false⟩] }
        (.finish n (some ⟨.add, .message "lost"⟩) none) = some
        { s with
          tracker := { s.tracker with active := 1 }.finish (some ⟨.add, .message "lost"⟩) none
          guards := List.replicate (n + 1) none } := by
      simp only [step, release, hget, hset, Option.join_some]
      rfl
    refine ⟨_, (Transition.run_concat_eq_some_iff step).mpr ⟨_, hrun', hfinish⟩, ?_, ?_, rfl, hdrains,
      ?_⟩
    · simpa using hopen
    · simp
    · have hrecorded : history (failing (n + 1)) = history (failing n) ++
          [] ++ [.entry (.failure ⟨.add, .message "lost"⟩)] := by
        show Transition.trace step records start (failing n ++ [_] ++ [_]) = _
        rw [Transition.trace_concat step hrun', Transition.trace_concat step hrun]
        rfl
      rw [hrecorded, hhistory, List.replicate_succ', List.map_append, List.append_nil]
      rfl

theorem drain_failing (n : ℕ) :
    ∃ s o, run start (failing n ++ [.drain]) = some s ∧ s.drains = [.returned o] ∧
      (Ledger.entries (history (failing n ++ [.drain]))).length = n ∧
      o.detachedFailures.length = n - (n - 256) ∧
      o.droppedDetachedFailures = MutationTracker.saturated (n - 256) ∧
      o.detachedPanics = [] ∧ o.droppedDetachedPanics = 0 := by
  obtain ⟨s, hrun, hopen, hactive, hguards, hdrains, hhistory⟩ := run_failing n
  have hpoll : s.tracker.shutdownSeal.pollDrain =
      some (s.tracker.shutdownSeal.takeOutcome false) := by
    simp [MutationTracker.pollDrain, active_shutdownSeal, hactive]
  have hdrain : s.step .drain = some { s with
      tracker := (s.tracker.shutdownSeal.takeOutcome false).2
      drains := [.returned (s.tracker.shutdownSeal.takeOutcome false).1] } := by
    simp [step, drain, hpoll, hdrains]
  have hretains := (history_invariant hrun).2.1.retains
  have hpending : (Ledger.book (history (failing n))).pending =
      List.replicate n (.failure ⟨.add, .message "lost"⟩) := by
    have hbook := Ledger.book_append_entries
      ([] : List (Ledger.Event DetachedMutationDiagnostic MutationDrainOutcome))
      (List.replicate n (.failure ⟨.add, .message "lost"⟩))
    rw [hhistory, ← List.nil_append (List.map _ _), hbook]
    rfl
  rw [hpending] at hretains
  have haccounts := (hretains.shutdownSeal.takeOutcome false).1
  have hentries : Ledger.entries (history (failing n ++ [.drain])) =
      List.replicate n (.failure ⟨.add, .message "lost"⟩) := by
    unfold history
    rw [Transition.trace_concat step hrun]
    show Ledger.entries (history (failing n) ++ s.records .drain) = _
    rw [hhistory]
    simp [Ledger.entries, records, hpoll]
  refine ⟨_, _, (Transition.run_concat_eq_some_iff step).mpr ⟨s, hrun, hdrain⟩, rfl, ?_, ?_, ?_, ?_,
    ?_⟩
  · rw [hentries, List.length_replicate]
  · rw [haccounts.listedFailures]
    simp [List.rtake, DetachedMutationDiagnostic.failure?, detachedMutationDiagnosticCapacity]
  · rw [haccounts.countedFailures]
    simp [List.rdrop, DetachedMutationDiagnostic.failure?, detachedMutationDiagnosticCapacity]
  · rw [haccounts.listedPanics]
    simp [List.rtake, DetachedMutationDiagnostic.panic?]
  · rw [haccounts.countedPanics]
    simp [List.rdrop, DetachedMutationDiagnostic.panic?, MutationTracker.saturated]

/-- The counter of dropped failures is saturated: one failure is neither listed nor counted. -/
theorem drain_misses_a_failure :
    ∃ s o, run start (failing (2 ^ 64 + 256) ++ [.drain]) = some s ∧ s.drains = [.returned o] ∧
      (Ledger.entries (history (failing (2 ^ 64 + 256) ++ [.drain]))).length = 2 ^ 64 + 256 ∧
      o.detachedFailures.length = 256 ∧ o.droppedDetachedFailures = 2 ^ 64 - 1 ∧
      o.detachedPanics = [] ∧ o.droppedDetachedPanics = 0 := by
  obtain ⟨s, o, hrun, hdrains, hlen, hlisted, hcounted, hpanics⟩ := drain_failing (2 ^ 64 + 256)
  have hrest : 2 ^ 64 + 256 - (2 ^ 64 + 256 - 256) = 256 := by omega
  have hsaturated : MutationTracker.saturated (2 ^ 64 + 256 - 256) = 2 ^ 64 - 1 := by
    unfold MutationTracker.saturated
    omega
  exact ⟨s, o, hrun, hdrains, hlen, hlisted.trans hrest, hcounted.trans hsaturated, hpanics⟩

end Tracked

end ChpProxy
