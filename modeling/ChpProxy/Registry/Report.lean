import ChpProxy.Registry.Delivery
import ChpProxy.Registry.Diagnostics

/-! Where the failure of a mutation is found afterwards: with the caller, in the tracker's ring and
counters, or in the outcome of a drain that has emptied them. -/
namespace ChpProxy

/-- A diagnostic and the mutation that it is for. -/
abbrev Report := ℕ × DetachedMutationDiagnostic

/-- The drain has taken these reports: its outcome lists the newest ones and counts the others. -/
def Drain.Takes (reports : List Report) : Drain → Prop
  | .waiting => reports = []
  | .returned outcome => outcome.Accounts (reports.map Prod.snd)

/-- The reports that the drains have taken, and those that none has. -/
structure Reports where
  taken : List (Drain × List Report)
  kept : List Report

namespace Reports

def all (r : Reports) : List Report := r.taken.flatMap Prod.snd ++ r.kept

def of (r : Reports) (i : ℕ) : List DetachedMutationDiagnostic :=
  (r.all.filter (·.1 = i)).map Prod.snd

/-- The registry has recorded these reports and no others. -/
structure RecordedBy {σ : Type} (r : Reports) (s : Registry σ) : Prop where
  drains : r.taken.map Prod.fst = s.drains
  takes : ∀ p ∈ r.taken, p.1.Takes p.2
  ring : s.mutations.Retains (r.kept.map Prod.snd)

end Reports

/-- The error that a failed mutation returns, and its diagnostic. -/
def Outcome.failure (operation : MutationOperation) :
    Outcome → Option (StoreError × DetachedMutationDiagnostic)
  | .returned (.error e) => some (e, .failure ⟨operation, e⟩)
  | .returned (.ok _) => none
  | .panicked => some (.message operation.panicMessage, .panic ⟨operation, operation.panicMessage⟩)

/-- The mutation has ended with `outcome`, and these diagnostics are recorded for it. -/
structure Mutation.ReportedOnce (m : Mutation) (outcome : Outcome)
    (recorded : List DetachedMutationDiagnostic) : Prop where
  success : ∀ result, outcome = .returned (.ok result) → recorded = []
  atMostOnce : ∀ e d, outcome.failure m.request.operation = some (e, d) →
    recorded = [] ∨ recorded = [d]
  notBoth : ∀ e d, outcome.failure m.request.operation = some (e, d) →
    ¬(m.caller = .returned (.error e) ∧ recorded = [d])
  concluded : ∀ e d, outcome.failure m.request.operation = some (e, d) → m.phase.concluded = true →
    m.caller = .returned (.error e) ∧ recorded = [] ∨ m.caller = .cancelled ∧ recorded = [d]

namespace Registry

variable {σ ι : Type} {S : Store σ ι} {s s' : Registry σ} {a : Action ι} {r : Reports}

def reports (s : Registry σ) (a : Action ι) : List Report :=
  match a with
  | .finish i | .spawnPanics i => (diagnoses i s a).map (i, ·)
  | _ => []

theorem filter_reports (i : ℕ) (s : Registry σ) (a : Action ι) :
    ((reports s a).filter (·.1 = i)).map Prod.snd = diagnoses i s a := by
  have hown : ∀ (j : ℕ) (l : List DetachedMutationDiagnostic),
      ((l.map (j, ·)).filter (·.1 = i)).map Prod.snd = if j = i then l else [] := by
    intro j l
    by_cases hj : j = i
    · simp [hj, List.filter_map, Function.comp_def]
    · simp [hj, List.filter_map, Function.comp_def]
  cases a with
  | finish j =>
    refine (hown j _).trans ?_
    split_ifs with hj
    · rw [hj]
    · simp [diagnoses, hj]
  | spawnPanics j =>
    refine (hown j _).trans ?_
    split_ifs with hj
    · rw [hj]
    · simp [diagnoses, hj]
  | _ => rfl

theorem retains_task {i : ℕ} {m : Mutation} {l : List DetachedMutationDiagnostic}
    (hm : s.tasks[i]? = some m) (ht : TaskStep S s i m a s') (h : s.mutations.Retains l) :
    s'.drains = s.drains ∧ s'.mutations.Retains (l ++ (reports s a).map Prod.snd) := by
  have hsame : ∀ {t : MutationTracker}, t.diagnostics = s.mutations.diagnostics →
      t.droppedDetachedFailures = s.mutations.droppedDetachedFailures →
      t.droppedDetachedPanics = s.mutations.droppedDetachedPanics → t.Retains (l ++ []) := by
    intro t hd hf hp
    rw [List.append_nil]
    exact ⟨hd.trans h.diagnostics, hf.trans h.failures, hp.trans h.panics⟩
  cases ht with
  | spawnPanics hp =>
    refine ⟨rfl, ?_⟩
    have hreports : (reports s (.spawnPanics i : Action ι)).map Prod.snd =
        [.panic ⟨m.request.operation, m.request.operation.terminatedMessage⟩] := by
      simp [reports, diagnoses, hm]
    rw [hreports]
    exact h.finish none (some _)
  | finish outcome detached hp =>
    refine ⟨rfl, ?_⟩
    obtain ⟨request, phase, caller⟩ := m
    cases hp
    have hreports : (reports s (.finish i : Action ι)).map Prod.snd =
        (outcome.detachedFailure request.operation detached).toList.map .failure ++
          (outcome.detachedPanic request.operation detached).toList.map .panic := by
      simp [reports, diagnoses, hm, Function.comp_def]
    rw [hreports]
    exact h.finish _ _
  | _ => exact ⟨rfl, hsame rfl rfl rfl⟩

/-- Reports that a drain takes all at once are neither lost nor doubled. -/
theorem flatMap_set_perm {α β : Type} {l : List (α × List β)} {d : ℕ} {x : α}
    (h : l[d]? = some (x, [])) (y : α × List β) :
    ((l.set d y).flatMap Prod.snd).Perm (l.flatMap Prod.snd ++ y.2) := by
  obtain ⟨hlt, hget⟩ := List.getElem?_eq_some_iff.mp h
  have hl : l = l.take d ++ (x, []) :: l.drop (d + 1) := by
    rw [← hget]
    simp
  have hset : l.set d y = l.take d ++ y :: l.drop (d + 1) :=
    List.set_eq_take_append_cons_drop.trans (if_pos hlt)
  rw [hset]
  conv_rhs => rw [hl]
  rw [List.flatMap_append, List.flatMap_cons, List.flatMap_append, List.flatMap_cons,
    List.nil_append, List.append_assoc]
  exact List.Perm.append_left _ List.perm_append_comm

/-- The drain empties the ring: what was kept is taken. -/
theorem recorded_take (h : r.RecordedBy s) {d : ℕ} (hd : s.drains[d]? = some .waiting)
    {t : MutationTracker} (ht : t.Retains (r.kept.map Prod.snd)) (timedOut : Bool) :
    ∃ r' : Reports, r'.all.Perm r.all ∧
      r'.RecordedBy { s with
        mutations := (t.takeOutcome timedOut).2
        drains := s.drains.set d (.returned (t.takeOutcome timedOut).1) } := by
  obtain ⟨haccounts, hempty⟩ := ht.takeOutcome timedOut
  rw [← h.drains, List.getElem?_map] at hd
  obtain ⟨⟨drain, taken⟩, htaken, rfl⟩ := Option.map_eq_some_iff.mp hd
  obtain rfl : taken = [] := h.takes _ (List.mem_of_getElem? htaken)
  refine ⟨⟨r.taken.set d (.returned (t.takeOutcome timedOut).1, r.kept), []⟩, ?_, ?_, ?_, hempty⟩
  · rw [Reports.all, List.append_nil]
    exact flatMap_set_perm htaken _
  · rw [List.map_set, h.drains]
  · intro p hp
    rcases List.mem_or_eq_of_mem_set hp with hold | rfl
    · exact h.takes p hold
    · exact haccounts

theorem recorded_enter (h : r.RecordedBy s) {drain : Drain} {taken kept : List Report}
    {mutations : MutationTracker} (hkept : r.kept = taken ++ kept)
    (htakes : drain.Takes taken) (hring : mutations.Retains (kept.map Prod.snd)) :
    ∃ r' : Reports, r'.all.Perm r.all ∧
      r'.RecordedBy { s with mutations := mutations, drains := s.drains ++ [drain] } := by
  refine ⟨⟨r.taken ++ [(drain, taken)], kept⟩, ?_, ?_, ?_, hring⟩
  · simp [Reports.all, hkept]
  · simp [h.drains]
  · intro p hp
    rcases List.mem_append.mp hp with hold | hnew
    · exact h.takes p hold
    · obtain rfl := List.mem_singleton.mp hnew
      exact htakes

theorem recorded_drain (h : r.RecordedBy s) :
    ∃ r' : Reports, r'.all.Perm r.all ∧ r'.RecordedBy s.drain := by
  have hseal := h.ring.shutdownSeal
  unfold Registry.drain
  cases hpoll : s.mutations.shutdownSeal.pollDrain with
  | none => exact recorded_enter h (List.nil_append _).symm rfl hseal
  | some outcome =>
    obtain ⟨-, rfl⟩ := MutationTracker.pollDrain_eq_some hpoll
    obtain ⟨haccounts, hempty⟩ := hseal.takeOutcome false
    exact recorded_enter h (List.append_nil _).symm haccounts hempty

theorem recorded_push (h : r.RecordedBy s) {l : List Report} (hdrains : s'.drains = s.drains)
    (hring : s'.mutations.Retains (r.kept.map Prod.snd ++ l.map Prod.snd)) :
    ∃ r' : Reports, r'.all.Perm (r.all ++ l) ∧ r'.RecordedBy s' := by
  refine ⟨⟨r.taken, r.kept ++ l⟩, ?_, h.drains.trans hdrains.symm, h.takes, ?_⟩
  · simp [Reports.all]
  · rw [List.map_append]
    exact hring

theorem recorded_stepDrain (h : r.RecordedBy s) {d : ℕ} (hs : s.stepDrain d a = some s') :
    ∃ r' : Reports, r'.all.Perm r.all ∧ r'.RecordedBy s' := by
  unfold stepDrain at hs
  split at hs
  · split at hs
    · next outcome mutations hd hpoll =>
      obtain ⟨-, hr⟩ := MutationTracker.pollDrain_eq_some hpoll
      obtain ⟨rfl, rfl⟩ := Prod.mk.inj hr
      obtain rfl := Option.some.inj hs
      exact recorded_take h hd h.ring false
    · cases hs
  · split at hs
    · next hd =>
      obtain rfl := Option.some.inj hs
      exact recorded_take h hd h.ring _
    · cases hs
  · cases hs

theorem recorded_step (h : r.RecordedBy s) (hs : step S s a = some s') :
    ∃ r' : Reports, r'.all.Perm (r.all ++ reports s a) ∧ r'.RecordedBy s' := by
  have hkeep : ∀ {t : Registry σ}, t.drains = s.drains →
      t.mutations.diagnostics = s.mutations.diagnostics →
      t.mutations.droppedDetachedFailures = s.mutations.droppedDetachedFailures →
      t.mutations.droppedDetachedPanics = s.mutations.droppedDetachedPanics →
      ∃ r' : Reports, r'.all.Perm (r.all ++ []) ∧ r'.RecordedBy t := by
    intro t hdrains hd hf hp
    refine recorded_push h hdrains ?_
    rw [List.map_nil, List.append_nil]
    exact ⟨hd.trans h.ring.diagnostics, hf.trans h.ring.failures, hp.trans h.ring.panics⟩
  cases step_cases hs with
  | accept request hopen => exact hkeep rfl rfl rfl rfl
  | refuse request hsealed => exact hkeep rfl rfl rfl rfl
  | enter key at' => exact hkeep rfl rfl rfl rfl
  | observer j o a s' ho hobs => cases hobs <;> exact hkeep rfl rfl rfl rfl
  | task i m a s' hm ht =>
    obtain ⟨hdrains, hring⟩ := retains_task hm ht h.ring
    exact recorded_push h hdrains hring
  | drain mutations drains _ _ =>
    rw [← Option.some.inj hs]
    exact (recorded_drain h).imp fun r' hr => ⟨by simpa [reports] using hr.1, hr.2⟩
  | drained a mutations drains ha _ _ =>
    rcases ha with ⟨d, rfl⟩ | ⟨d, rfl⟩
    · have hdrain : s.stepDrain d (.pollDrain d : Action ι) = some _ := hs
      exact (recorded_stepDrain h hdrain).imp fun r' hr => ⟨by simpa [reports] using hr.1, hr.2⟩
    · have hdrain : s.stepDrain d (.deadline d : Action ι) = some _ := hs
      exact (recorded_stepDrain h hdrain).imp fun r' hr => ⟨by simpa [reports] using hr.1, hr.2⟩

/-- In every reachable state the recorded reports are those that the mutations' own steps made. -/
theorem recorded_run {choice : ι} {store : σ} {s₀ : Registry σ} {as : List (Action ι)}
    (hload : load S choice store = .ok s₀) (h : run S s₀ as = some s) :
    ∃ r : Reports, r.RecordedBy s ∧ ∀ i, (r.of i).Perm (diagnosed S i s₀ as) := by
  refine Transition.run_history (P := fun as t => ∃ r : Reports, r.RecordedBy t ∧
    ∀ i, (r.of i).Perm (diagnosed S i s₀ as)) ?_ ?_ h
  · obtain ⟨-, hdrains, hmutations⟩ := fresh_of_load hload
    refine ⟨⟨[], []⟩, ⟨?_, ?_, ?_⟩, fun i => .nil⟩
    · rw [hdrains]
      rfl
    · intro p hp
      cases hp
    · rw [hmutations]
      exact MutationTracker.retains_nil rfl rfl rfl
  · rintro as t a t' ht ⟨r, hr, hperm⟩ hstep
    obtain ⟨r', hall, hr'⟩ := recorded_step hr hstep
    refine ⟨r', hr', fun i => ?_⟩
    have hof : (r'.of i).Perm (r.of i ++ diagnoses i t a) := by
      rw [← filter_reports i t a]
      unfold Reports.of
      rw [← List.map_append, ← List.filter_append]
      exact (hall.filter _).map _
    have htrace : diagnosed S i s₀ (as ++ [a]) = diagnosed S i s₀ as ++ diagnoses i t a :=
      Transition.trace_concat _ ht a
    rw [htrace]
    exact hof.trans ((hperm i).append_right _)

variable {i : ℕ} {m : Mutation} {outcome : Outcome}

theorem diagnostic_eq_of_failure {operation : MutationOperation} {e : StoreError}
    {d : DetachedMutationDiagnostic} (h : outcome.failure operation = some (e, d)) :
    outcome.diagnostic operation = some d ∧ outcome.response operation = .error e := by
  rcases outcome with (e' | result) | _
  · obtain ⟨rfl, rfl⟩ := Prod.mk.inj (Option.some.inj h)
    exact ⟨rfl, rfl⟩
  · cases h
  · obtain ⟨rfl, rfl⟩ := Prod.mk.inj (Option.some.inj h)
    exact ⟨rfl, rfl⟩

theorem exists_failure_of_diagnostic {operation : MutationOperation}
    {d : DetachedMutationDiagnostic} (h : outcome.diagnostic operation = some d) :
    ∃ e, outcome.failure operation = some (e, d) := by
  rcases outcome with (e | result) | _
  · obtain rfl := Option.some.inj h
    exact ⟨e, rfl⟩
  · cases h
  · obtain rfl := Option.some.inj h
    exact ⟨_, rfl⟩

theorem reportedOnce_of_delivered {recorded : List DetachedMutationDiagnostic}
    (h : m.Delivered recorded) (ho : m.phase.outcome? = some outcome) :
    m.ReportedOnce outcome recorded := by
  rcases h.cases ho with ⟨hover, rfl⟩ | ⟨-, hcaller, rfl⟩ | ⟨-, hcaller, rfl⟩
  · refine ⟨fun _ _ => rfl, fun _ _ _ => .inl rfl, fun e d _ hboth => ?_, fun e d _ hc => ?_⟩
    · cases hboth.2
    · rw [hover] at hc
      cases hc
  · refine ⟨fun _ _ => rfl, fun _ _ _ => .inl rfl, fun e d _ hboth => ?_, fun e d hf _ => .inl ?_⟩
    · cases hboth.2
    · rw [hcaller, (diagnostic_eq_of_failure hf).2]
      exact ⟨rfl, rfl⟩
  · refine ⟨?_, fun e d hf => .inr ?_, fun e d _ hboth => ?_, fun e d hf _ => .inr ⟨hcaller, ?_⟩⟩
    · rintro result rfl
      rfl
    · rw [(diagnostic_eq_of_failure hf).1]
      rfl
    · cases hcaller.symm.trans hboth.1
    · rw [(diagnostic_eq_of_failure hf).1]
      rfl

/-- What is recorded for a mutation is its failure. -/
theorem diagnostic_of_delivered {recorded : List DetachedMutationDiagnostic}
    {d : DetachedMutationDiagnostic} (h : m.Delivered recorded) (hd : d ∈ recorded) :
    m.phase = .abandoned ∨ ∃ outcome e, m.phase.outcome? = some outcome ∧
      outcome.failure m.request.operation = some (e, d) := by
  cases ho : m.phase.outcome? with
  | some outcome =>
    rcases h.cases ho with ⟨-, rfl⟩ | ⟨-, -, rfl⟩ | ⟨-, -, rfl⟩
    · cases hd
    · cases hd
    · obtain ⟨e, he⟩ := exists_failure_of_diagnostic (Option.mem_toList.mp hd)
      exact .inr ⟨outcome, e, rfl, he⟩
  | none =>
    obtain ⟨request, phase, caller⟩ := m
    cases phase with
    | abandoned => exact .inl rfl
    | admitted | queued | locked | running _ | unspawned =>
      rw [h.2] at hd
      cases hd
    | _ => cases ho

/-- A failure is reported exactly once: by returning it to a caller that is still there, or by one
diagnostic of its kind and operation in the tracker's ring, where a drain finds it. Whatever the
order in which the task ends, sends its response, is acknowledged and its caller leaves, the two
never happen together, one of them has happened when the mutation is concluded, and the parties are
never stuck before that. -/
theorem failure_reported_once {choice : ι} {store : σ} {s₀ : Registry σ} {as : List (Action ι)}
    (hload : load S choice store = .ok s₀) (h : run S s₀ as = some s) :
    (∃ r : Reports, r.RecordedBy s ∧
      (∀ i, ∀ d ∈ r.of i, ∃ m, s.tasks[i]? = some m ∧ (m.phase = .abandoned ∨
        ∃ outcome e, m.phase.outcome? = some outcome ∧
          outcome.failure m.request.operation = some (e, d))) ∧
      ∀ (i : ℕ) (m : Mutation) outcome, s.tasks[i]? = some m → m.phase.outcome? = some outcome →
        m.ReportedOnce outcome (r.of i)) ∧
    ∀ (i : ℕ) (m : Mutation) outcome, s.tasks[i]? = some m → m.phase.outcome? = some outcome →
      (m.phase ≠ .done outcome → ∃ a s', step S s a = some s' ∧ ∃ m' : Mutation,
        s'.tasks[i]? = some m' ∧ m'.remaining < m.remaining) ∧
      ∀ a s', step S s a = some s' → ∃ m' : Mutation, s'.tasks[i]? = some m' ∧
        m'.phase.outcome? = some outcome ∧ (m' = m ∨ m'.remaining < m.remaining) := by
  obtain ⟨r, hr, hperm⟩ := recorded_run hload h
  have hdelivered : ∀ (i : ℕ) (m : Mutation), s.tasks[i]? = some m →
      m.Delivered (diagnosed S i s₀ as) := fun i => (delivered_run hload h i).2
  refine ⟨⟨r, hr, ?_, ?_⟩, ?_⟩
  · intro i d hd
    have hmem := (hperm i).mem_iff.mp hd
    cases hm : s.tasks[i]? with
    | none =>
      rw [(delivered_run hload h i).1 hm] at hmem
      cases hmem
    | some m => exact ⟨m, rfl, diagnostic_of_delivered (hdelivered i m hm) hmem⟩
  · intro i m outcome hm ho
    have honce := reportedOnce_of_delivered (hdelivered i m hm) ho
    -- There is at most one diagnostic, so the order of the reports does not matter.
    have hlength : (diagnosed S i s₀ as).length ≤ 1 := by
      rcases (hdelivered i m hm).cases ho with ⟨-, hnone⟩ | ⟨-, -, hnone⟩ | ⟨-, -, hone⟩
      · simp [hnone]
      · simp [hnone]
      · rw [hone]
        cases outcome.diagnostic m.request.operation <;> simp
    have heq : r.of i = diagnosed S i s₀ as := by
      have hi := hperm i
      generalize diagnosed S i s₀ as = l at hi hlength ⊢
      cases l with
      | nil => exact List.perm_nil.mp hi
      | cons d l =>
        obtain rfl : l = [] := List.eq_nil_of_length_eq_zero (by simpa using hlength)
        exact List.perm_singleton.mp hi
    rw [heq]
    exact honce
  · intro i m outcome hm ho
    refine ⟨fun hdone => ?_, fun a s' hs => ?_⟩
    · obtain ⟨a, s', m', hstep, hm', hlt⟩ := enabled_of_delivered hm (hdelivered i m hm) ho hdone
      exact ⟨a, s', hstep, m', hm', hlt⟩
    rcases handoff_step hs hm with ⟨m', hm', hh⟩ | ⟨hm', -⟩
    · have hnext := Mutation.remaining_lt_of_handoff ho hh
      exact ⟨m', hm', hnext.1, .inr hnext.2⟩
    · exact ⟨m, hm', ho, .inl rfl⟩

/-- A caller leaves while the response to its panicked mutation is on the way: the ring has the
panic. -/
theorem failure_reported_once_cancelled : ∃ s₀ s m, (load MemoryStore.store 0 ∅ = .ok s₀ ∧
    run MemoryStore.store s₀ [.begin (.delete (.parse "/a")), .spawn 0, .lock 0, .fence 0, .poll 0,
      .panic 0, .respond 0, .cancel 0, .acknowledged 0, .finish 0] = some s ∧
    s.tasks = [m] ∧ s.drains = [] ∧ m.request = .delete (.parse "/a") ∧
    m.phase = .releasing .panicked ∧ m.caller = .cancelled) ∧
    s.mutations.diagnostics = [.panic ⟨.delete, "route delete mutation task panicked"⟩] := by
  refine Exists.imp (fun s₀ => Exists.imp fun s => Exists.imp fun m h => ⟨h, ?_⟩)
    ⟨_, _, _, rfl, rfl, rfl, rfl, rfl, rfl, rfl⟩
  obtain ⟨hload, hrun, htasks, hdrains, hrequest, hphase, hcaller⟩ := h
  obtain ⟨⟨r, hr, honly, honce⟩, -⟩ := failure_reported_once hload hrun
  have hm : s.tasks[0]? = some m := by rw [htasks]; rfl
  have ho : m.phase.outcome? = some .panicked := by rw [hphase]; rfl
  have hfailure : Outcome.panicked.failure m.request.operation =
      some (.message "route delete mutation task panicked",
        .panic ⟨.delete, "route delete mutation task panicked"⟩) := by rw [hrequest]; rfl
  have hone : r.of 0 = [.panic ⟨.delete, "route delete mutation task panicked"⟩] := by
    rcases (honce 0 m .panicked hm ho).concluded _ _ hfailure (by rw [hphase]; rfl) with
      ⟨hreturned, -⟩ | ⟨-, hone⟩
    · cases hcaller.symm.trans hreturned
    · exact hone
  have htaken : r.taken = [] := List.map_eq_nil_iff.mp (hr.drains.trans hdrains)
  have hall : r.kept.filter (·.1 = 0) = r.kept := by
    refine List.filter_eq_self.mpr fun p hp => ?_
    have hmem : p.2 ∈ r.of p.1 := by
      refine List.mem_map.mpr ⟨p, List.mem_filter.mpr ⟨List.mem_append_right _ hp, ?_⟩, rfl⟩
      exact decide_eq_true rfl
    obtain ⟨n, hn, -⟩ := honly p.1 p.2 hmem
    rw [htasks] at hn
    have hlt := (List.getElem?_eq_some_iff.mp hn).1
    exact decide_eq_true (Nat.lt_one_iff.mp hlt)
  have hkept : r.kept.map Prod.snd = r.of 0 := by
    rw [Reports.of, Reports.all, htaken, List.flatMap_nil, List.nil_append, hall]
  rw [hr.ring.diagnostics, hkept, hone]
  rfl

end Registry

end ChpProxy
