import ChpProxy.Registry.Core
import ChpProxy.Registry.Handoff

/-! Every mutation of the registry as its two parties see it, over whole runs: when a diagnostic is
recorded for it, and when its caller gets the result. -/
namespace ChpProxy

namespace Registry

variable {σ ι : Type} {S : Store σ ι} {s s' : Registry σ}

/-- The diagnostics that a step records for mutation `i`. -/
def diagnoses (i : ℕ) (s : Registry σ) : Action ι → List DetachedMutationDiagnostic
  | .finish j => if j = i then
      match s.tasks[i]? with
      | some ⟨request, .finishing outcome detached, _⟩ =>
        (outcome.detachedFailure request.operation detached).toList.map .failure ++
          (outcome.detachedPanic request.operation detached).toList.map .panic
      | _ => []
    else []
  | .spawnPanics j => if j = i then
      match s.tasks[i]? with
      | some m => [.panic ⟨m.request.operation, m.request.operation.terminatedMessage⟩]
      | none => []
    else []
  | _ => []

def diagnosed (S : Store σ ι) (i : ℕ) (s : Registry σ) (as : List (Action ι)) :
    List DetachedMutationDiagnostic :=
  Transition.trace (step S) (diagnoses i) s as

theorem diagnostics_finish (operation : MutationOperation) (outcome : Outcome) (detached : Bool) :
    (outcome.detachedFailure operation detached).toList.map DetachedMutationDiagnostic.failure ++
      (outcome.detachedPanic operation detached).toList.map DetachedMutationDiagnostic.panic =
      if detached then (outcome.diagnostic operation).toList else [] := by
  cases detached with
  | true => rcases outcome with (e | r) | _ <;> rfl
  | false => rcases outcome with (e | r) | _ <;> rfl

theorem invoke_running_or_settled (s : Registry σ) (request : Request) :
    (∃ body, s.invoke request = .running body) ∨ ∃ result, s.invoke request = .settled result := by
  cases request with
  | persistObservedActivity key at' =>
    unfold invoke
    dsimp only
    split
    · exact .inr ⟨_, rfl⟩
    · exact .inl ⟨_, rfl⟩
  | _ => exact .inl ⟨_, rfl⟩

theorem afterCall_running_or_settled (request : Request) (call : Call)
    (reply : Except StoreError call.Output) :
    (∃ body, afterCall request call reply = .running body) ∨
      ∃ result, afterCall request call reply = .settled result := by
  unfold afterCall
  split
  · exact .inr ⟨_, rfl⟩
  · split_ifs
    · exact .inl ⟨_, rfl⟩
    · exact .inr ⟨_, rfl⟩

variable {i : ℕ} {m : Mutation}

theorem tasks_setPhase_self (hm : s.tasks[i]? = some m) (p : Phase) :
    (s.setPhase i p).tasks[i]? = some { m with phase := p } := by
  rw [getElem?_setPhase hm, if_pos rfl]

theorem tasks_setCaller_self (hm : s.tasks[i]? = some m) (c : Caller) :
    (s.setCaller i c).tasks[i]? = some { m with caller := c } := by
  rw [getElem?_setCaller hm, if_pos rfl]

theorem handoff_task {a : Action ι} (hm : s.tasks[i]? = some m) (ht : TaskStep S s i m a s') :
    ∃ m', s'.tasks[i]? = some m' ∧ Handoff m m' (diagnoses i s a) := by
  have advance : ∀ p : Phase, m.phase.working = true →
      (p = .queued ∨ p = .locked ∨ (∃ body, p = .running body) ∨
        (∃ result, p = .settled result) ∨ p = .responding .panicked) →
      (m.phase = .admitted → p = .queued) →
      ∃ m', (s.setPhase i p).tasks[i]? = some m' ∧ Handoff m m' [] :=
    fun p hw hp hc => ⟨_, tasks_setPhase_self hm p, .advance p hw hp hc⟩
  have move : ∀ {p : Phase} {l : List DetachedMutationDiagnostic},
      Handoff m { m with phase := p } l →
      ∃ m', (s.setPhase i p).tasks[i]? = some m' ∧ Handoff m m' l :=
    fun {p _} hh => ⟨_, tasks_setPhase_self hm p, hh⟩
  cases ht with
  | spawn hp => exact advance _ (by rw [hp]; rfl) (.inl rfl) fun _ => rfl
  | runtimeUnavailable hp =>
    have hself := tasks_setCaller_self (tasks_setPhase_self hm .unspawned)
      (.returned (.error (.message m.request.operation.noRuntimeMessage)))
    exact ⟨_, hself, .unavailable hp⟩
  | spawnPanics hp =>
    have hdiag : diagnoses i s (.spawnPanics i : Action ι) =
        [.panic ⟨m.request.operation, m.request.operation.terminatedMessage⟩] := by
      simp [diagnoses, hm]
    rw [hdiag]
    exact move (.terminated hp)
  | lock hp _ => exact advance _ (by rw [hp]; rfl) (.inr (.inl rfl)) (by rw [hp]; nofun)
  | pass hp _ =>
    exact advance _ (by rw [hp]; rfl) (.inr (.inr (.inl ⟨_, rfl⟩))) (by rw [hp]; nofun)
  | reject e hp _ _ =>
    exact advance _ (by rw [hp]; rfl) (.inr (.inr (.inr (.inl ⟨_, rfl⟩)))) (by rw [hp]; nofun)
  | poll hp =>
    refine advance _ (by rw [hp]; rfl) (.inr (.inr ?_)) (by rw [hp]; nofun)
    rcases invoke_running_or_settled s m.request with hrun | hset
    · exact .inl hrun
    · exact .inr (.inl hset)
  | sampleFloor _ _ hp _ | load _ _ hp | retry _ _ _ hp _ =>
    exact advance _ (by rw [hp]; rfl) (.inr (.inr (.inl ⟨_, rfl⟩))) (by rw [hp]; nofun)
  | exec call floors choice store reply hp _ =>
    refine advance _ (by rw [hp]; rfl) (.inr (.inr ?_)) (by rw [hp]; nofun)
    rcases afterCall_running_or_settled m.request call reply with hrun | hset
    · exact .inl hrun
    · exact .inr (.inl hset)
  | swap _ _ _ hp _ =>
    exact advance _ (by rw [hp]; rfl) (.inr (.inr (.inr (.inl ⟨_, rfl⟩)))) (by rw [hp]; nofun)
  | panic _ hp =>
    exact advance _ (by rw [hp]; rfl) (.inr (.inr (.inr (.inr rfl)))) (by rw [hp]; nofun)
  | conclude result hp _ => exact move (.conclude result hp)
  | concludeIndeterminate result hp _ => exact move (.conclude result hp)
  | respond outcome hp hc => exact move (.respond outcome hp hc)
  | respondDetached outcome hp hc => exact move (.respondDetached outcome hp hc)
  | acknowledged outcome result hp hc => exact move (.acknowledged outcome result hp hc)
  | acknowledgmentLost outcome hp hc => exact move (.acknowledgmentLost outcome hp hc)
  | finish outcome detached hp =>
    obtain ⟨request, phase, caller⟩ := m
    cases hp
    have hdiag : diagnoses i s (.finish i : Action ι) =
        if detached then (outcome.diagnostic request.operation).toList else [] := by
      simp only [diagnoses, hm, if_true]
      exact diagnostics_finish request.operation outcome detached
    rw [hdiag]
    exact move (.finish outcome detached rfl)
  | unlock outcome hp => exact move (.unlock outcome hp)
  | receive outcome hc hp => exact ⟨_, tasks_setCaller_self hm _, .receive outcome hc hp⟩
  | receiveNothing hc hp => exact ⟨_, tasks_setCaller_self hm _, .receiveNothing hc hp⟩
  | acknowledge result hc => exact ⟨_, tasks_setCaller_self hm _, .acknowledge result hc⟩
  | cancel hc hp => exact ⟨_, tasks_setCaller_self hm _, .cancel hc hp⟩

theorem handoff_of_ne {a : Action ι} {j : ℕ} {n : Mutation} (hn : s.tasks[j]? = some n)
    (ht : TaskStep S s j n a s') (hij : i ≠ j) :
    s'.tasks[i]? = s.tasks[i]? ∧ diagnoses i s a = [] := by
  have hphase : ∀ p : Phase, (s.setPhase j p).tasks[i]? = s.tasks[i]? := fun p => by
    rw [getElem?_setPhase hn, if_neg hij]
  have hne : ¬j = i := fun e => hij e.symm
  have hcaller : ∀ c : Caller, (s.setCaller j c).tasks[i]? = s.tasks[i]? := fun c => by
    simp [setCaller, hne]
  cases ht with
  | runtimeUnavailable hp =>
    refine ⟨?_, rfl⟩
    show ((s.setPhase j .unspawned).setCaller j _).tasks[i]? = _
    simp [setCaller, hne, hphase]
  | spawnPanics hp => exact ⟨hphase _, by simp [diagnoses, hne]⟩
  | finish outcome detached hp => exact ⟨hphase _, by simp [diagnoses, hne]⟩
  | receive _ _ _ | receiveNothing _ _ | acknowledge _ _ | cancel _ _ => exact ⟨hcaller _, rfl⟩
  | _ => exact ⟨hphase _, rfl⟩

theorem handoff_step {a : Action ι} (hs : step S s a = some s') (hm : s.tasks[i]? = some m) :
    (∃ m', s'.tasks[i]? = some m' ∧ Handoff m m' (diagnoses i s a)) ∨
      s'.tasks[i]? = some m ∧ diagnoses i s a = [] := by
  cases step_cases hs with
  | accept request hopen =>
    have hlt : i < s.tasks.length := (List.getElem?_eq_some_iff.mp hm).1
    exact .inr ⟨(List.getElem?_append_left hlt).trans hm, rfl⟩
  | task j n a s' hn ht =>
    by_cases hij : i = j
    · subst hij
      obtain rfl := Option.some.inj (hm.symm.trans hn)
      exact .inl (handoff_task hm ht)
    · obtain ⟨htasks, hdiag⟩ := handoff_of_ne hn ht hij
      exact .inr ⟨htasks.trans hm, hdiag⟩
  | observer j o a s' ho hobs => cases hobs <;> exact .inr ⟨hm, rfl⟩
  | drained a mutations drains ha _ _ =>
    rcases ha with ⟨d, rfl⟩ | ⟨d, rfl⟩
    · exact .inr ⟨hm, rfl⟩
    · exact .inr ⟨hm, rfl⟩
  | _ => exact .inr ⟨hm, rfl⟩

/-- A mutation enters the registry unreported, and its own steps are the first to record anything
for it. -/
theorem absent_step {a : Action ι} (hs : step S s a = some s') (hm : s.tasks[i]? = none) :
    diagnoses i s a = [] ∧
      (s'.tasks[i]? = none ∨ ∃ request, s'.tasks[i]? = some ⟨request, .admitted, .waiting⟩) := by
  have hsilent : diagnoses i s a = [] := by
    cases a with
    | finish j => simp [diagnoses, hm]
    | spawnPanics j => simp [diagnoses, hm]
    | _ => rfl
  refine ⟨hsilent, ?_⟩
  cases step_cases hs with
  | accept request hopen =>
    show (s.tasks ++ [_])[i]? = none ∨ _
    rcases Nat.lt_or_ge s.tasks.length i with hlt | hge
    · left
      rw [List.getElem?_eq_none_iff, List.length_append, List.length_singleton]
      exact hlt
    · have hi : i = s.tasks.length := le_antisymm hge (List.getElem?_eq_none_iff.mp hm)
      right
      exact ⟨request, by simp [hi]⟩
  | task j n a s' hn ht =>
    have hij : i ≠ j := by
      rintro rfl
      rw [hm] at hn
      cases hn
    exact .inl ((handoff_of_ne hn ht hij).1.trans hm)
  | observer j o a s' ho hobs => cases hobs <;> exact .inl hm
  | _ => exact .inl hm

theorem fresh_of_load {choice : ι} {store : σ} (h : load S choice store = .ok s) :
    s.tasks = [] ∧ s.drains = [] ∧ s.mutations = .default := by
  unfold load at h
  split at h
  · cases h
  · cases h
    exact ⟨rfl, rfl, rfl⟩

/-- In every reachable state each mutation is delivered as far as its phase says. -/
theorem delivered_run {choice : ι} {store : σ} {s₀ : Registry σ} {as : List (Action ι)}
    (hload : load S choice store = .ok s₀) (h : run S s₀ as = some s) (i : ℕ) :
    (s.tasks[i]? = none → diagnosed S i s₀ as = []) ∧
      ∀ m, s.tasks[i]? = some m → m.Delivered (diagnosed S i s₀ as) := by
  have hstart : s₀.tasks = [] := (fresh_of_load hload).1
  refine Transition.trace_invariant
    (P := fun l t => (t.tasks[i]? = none → l = []) ∧
      ∀ m : Mutation, t.tasks[i]? = some m → m.Delivered l) ?_ ?_ h
  · rintro l t a t' ⟨hnone, hsome⟩ ht
    cases hm : t.tasks[i]? with
    | none =>
      obtain ⟨hsilent, hnew⟩ := absent_step ht hm
      have hl := hnone hm
      rw [hsilent, hl]
      refine ⟨fun _ => rfl, fun m hm' => ?_⟩
      rcases hnew with hnew | ⟨request, hnew⟩
      · rw [hnew] at hm'
        cases hm'
      · obtain rfl := Option.some.inj (hnew.symm.trans hm')
        exact ⟨rfl, rfl⟩
    | some m =>
      have hdelivered := hsome m hm
      rcases handoff_step ht hm with ⟨m', hm', hh⟩ | ⟨hm', hsilent⟩
      · refine ⟨fun hn => ?_, fun n hn => ?_⟩
        · rw [hm'] at hn
          cases hn
        · obtain rfl := Option.some.inj (hm'.symm.trans hn)
          exact hdelivered.handoff hh
      · rw [hsilent, List.append_nil]
        refine ⟨fun hn => ?_, fun n hn => ?_⟩
        · rw [hm'] at hn
          cases hn
        · obtain rfl := Option.some.inj (hm'.symm.trans hn)
          exact hdelivered
  · rw [hstart]
    refine ⟨fun _ => rfl, fun m hm => ?_⟩
    simp at hm

/-- The parties of a mutation that has ended are never stuck before its guard is released. -/
theorem enabled_of_delivered (hm : s.tasks[i]? = some m)
    {reported : List DetachedMutationDiagnostic} (hd : m.Delivered reported) {outcome : Outcome}
    (ho : m.phase.outcome? = some outcome) (hdone : m.phase ≠ .done outcome) :
    ∃ a s' m', step S s a = some s' ∧ s'.tasks[i]? = some m' ∧ m'.remaining < m.remaining := by
  have own : ∀ {a : Action ι} {t : Registry σ}, step S s a = some t → TaskStep S s i m a t →
      ∃ a s' m', step S s a = some s' ∧ s'.tasks[i]? = some m' ∧ m'.remaining < m.remaining := by
    intro a t ht hstep
    obtain ⟨n, hn, hh⟩ := handoff_task hm hstep
    exact ⟨a, t, n, ht, hn, (Mutation.remaining_lt_of_handoff ho hh).2⟩
  obtain ⟨request, phase, caller⟩ := m
  cases phase with
  | settled result =>
    cases hterminal : (Outcome.returned result).terminal with
    | true =>
      exact own (a := .conclude i) (by simp [step, hm, stepTask, hterminal])
        (.concludeIndeterminate result rfl hterminal)
    | false =>
      exact own (a := .conclude i) (by simp [step, hm, stepTask, hterminal]; rfl)
        (.conclude result rfl hterminal)
  | responding o =>
    rcases hd.1 with hc | hc
    · cases hc
      exact own (a := .respond i) (by simp [step, hm, stepTask]) (.respond o rfl rfl)
    · cases hc
      exact own (a := .respond i) (by simp [step, hm, stepTask]) (.respondDetached o rfl rfl)
  | awaiting o =>
    rcases hd.1 with hc | hc | hc | hc
    · cases hc
      exact own (a := .receive i) (by simp [step, hm, stepTask]) (.receive o rfl rfl)
    · cases hc
      exact own (a := .acknowledged i) (by simp [step, hm, stepTask])
        (.acknowledgmentLost o rfl rfl)
    · have hc' : caller = .received (o.response request.operation) := hc
      subst hc'
      exact own (a := .acknowledge i) (by simp [step, hm, stepTask]) (.acknowledge _ rfl)
    · have hc' : caller = .returned (o.response request.operation) := hc
      subst hc'
      exact own (a := .acknowledged i) (by simp [step, hm, stepTask])
        (.acknowledged o _ rfl rfl)
  | finishing o detached =>
    exact own (a := .finish i) (by simp [step, hm, stepTask]) (.finish o detached rfl)
  | releasing o => exact own (a := .unlock i) (by simp [step, hm, stepTask]) (.unlock o rfl)
  | done o =>
    obtain rfl := Option.some.inj ho
    exact absurd rfl hdone
  | _ => cases ho

end Registry

end ChpProxy
