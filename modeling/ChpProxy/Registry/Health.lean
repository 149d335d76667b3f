import ChpProxy.Registry.Agreement
import ChpProxy.Registry.Publication

/-! Runs in which every store call succeeds and no task is lost. No mutation fails in them, and a
caller that has a result got it from a mutation that is over. -/
namespace ChpProxy

def Phase.answered : Phase → Bool
  | .unspawned | .abandoned => true
  | p => p.outcome?.isSome

namespace Registry

variable {σ ι : Type} {S : Store σ ι} {s s' : Registry σ}

/-- A backend panic, a mutation task that cannot be spawned, or a store call that fails. -/
def faulty (S : Store σ ι) (s : Registry σ) : Action ι → Bool
  | .panic _ | .spawnPanics _ => true
  | .exec i choice => match s.tasks[i]? with
    | some ⟨_, .running (.calling call floors), _⟩ =>
      match S.exec choice floors s.store call with
      | some (_, .error _) => true
      | _ => false
    | _ => false
  | _ => false

theorem reply_of_not_faulty {i : ℕ} {m : Mutation} {call : Call}
    {floors : List (Option DateTime)} {choice : ι} {store : σ}
    {reply : Except StoreError call.Output} (hm : s.tasks[i]? = some m)
    (hp : m.phase = .running (.calling call floors))
    (hs : S.exec choice floors s.store call = some (store, reply))
    (hgood : faulty S s (.exec i choice) = false) : ∃ out, reply = .ok out := by
  obtain ⟨request, phase, caller⟩ := m
  cases hp
  cases reply with
  | ok out => exact ⟨out, rfl⟩
  | error e => simp [faulty, hm, hs] at hgood

theorem not_failed_step {a : Action ι} (h : ¬Failed s) (hs : step S s a = some s')
    (hgood : faulty S s a = false) : ¬Failed s' := by
  have keep : ∀ {i : ℕ} {p : Phase}, Moves s s' i p → p.failed = false → ¬Failed s' := by
    rintro i p hm hp ⟨j, q, hj, hq⟩
    by_cases hji : j = i
    · rw [hji, hm.self] at hj
      rw [← Option.some.inj hj, hp] at hq
      cases hq
    · rw [hm.other hji] at hj
      exact h ⟨j, q, hj, hq⟩
  cases step_cases hs with
  | accept request hopen =>
    rintro ⟨j, q, hj, hq⟩
    rcases phase?_concat request _ j q hj with hj | rfl
    · exact h ⟨j, q, hj, hq⟩
    · cases hq
  | refuse _ _ | enter _ _ | drain _ _ _ _ | drained _ _ _ _ _ _ => exact h
  | observer j o a s' ho hobs => cases hobs <;> exact h
  | task i m a s' hm ht =>
    have hq : m.phase.failed = false := by
      rw [← Bool.not_eq_true]
      exact fun hf => h ⟨i, _, phase?_eq hm, hf⟩
    cases ht with
    | panic _ _ | spawnPanics _ => cases hgood
    | runtimeUnavailable hp => exact keep (moves_setPhase_setCaller hm .unspawned _ rfl) rfl
    | receive _ _ _ | receiveNothing _ _ | acknowledge _ _ | cancel _ _ =>
      exact keep (moves_setCaller hm _ rfl) hq
    | reject e hp hseal he => exact keep (moves_setPhase hm _ rfl) he
    | poll hp => exact keep (moves_setPhase hm _ rfl) (failed_invoke s m.request)
    | exec call floors choice store reply hp hexec =>
      obtain ⟨out, rfl⟩ := reply_of_not_faulty hm hp hexec hgood
      refine keep (moves_setPhase hm _ rfl) ?_
      simp only [afterCall]
      split_ifs <;> rfl
    | conclude _ hp _ | concludeIndeterminate _ hp _ | respond _ hp _ | respondDetached _ hp _
    | acknowledged _ _ hp _ | acknowledgmentLost _ hp _ | finish _ _ hp | unlock _ hp =>
      rw [hp] at hq
      exact keep (moves_setPhase hm _ rfl) hq
    | _ => exact keep (moves_setPhase hm _ rfl) rfl

/-- A caller that has its result got it from an answered mutation. -/
def CallerInv (s : Registry σ) : Prop :=
  ∀ (i : ℕ) (m : Mutation), s.tasks[i]? = some m →
    ∀ result, m.caller = .received result ∨ m.caller = .returned result → m.phase.answered = true

theorem callerInv_setPhase (h : CallerInv s) {i : ℕ} {m : Mutation} (hm : s.tasks[i]? = some m)
    {p : Phase} (hp : m.phase.answered = true → p.answered = true)
    (ht : s'.tasks = (s.setPhase i p).tasks) : CallerInv s' := by
  intro j m' hj result hc
  rw [ht, getElem?_setPhase hm] at hj
  by_cases hji : j = i
  · rw [if_pos hji] at hj
    obtain rfl := Option.some.inj hj
    exact hp (h i m hm result hc)
  · rw [if_neg hji] at hj
    exact h j m' hj result hc

theorem callerInv_setCaller (h : CallerInv s) {i : ℕ} {m : Mutation} (hm : s.tasks[i]? = some m)
    {c : Caller} (hc : (∃ result, c = .received result ∨ c = .returned result) →
      m.phase.answered = true) : CallerInv (s.setCaller i c) := by
  intro j m' hj result hres
  rw [getElem?_setCaller hm] at hj
  by_cases hji : j = i
  · rw [if_pos hji] at hj
    obtain rfl := Option.some.inj hj
    exact hc ⟨result, hres⟩
  · rw [if_neg hji] at hj
    exact h j m' hj result hres

theorem callerInv_step (h : CallerInv s) {a : Action ι} (hs : step S s a = some s') :
    CallerInv s' := by
  cases step_cases hs with
  | accept request hopen =>
    intro j m hj result hc
    change (s.tasks ++ [_])[j]? = some m at hj
    rcases List.mem_append.mp (List.mem_of_getElem? hj) with hmem | hmem
    · obtain ⟨k, hk⟩ := List.mem_iff_getElem?.mp hmem
      exact h k m hk result hc
    · rw [List.mem_singleton.mp hmem] at hc
      rcases hc with hc | hc <;> cases hc
  | refuse _ _ | enter _ _ | drain _ _ _ _ | drained _ _ _ _ _ _ => exact h
  | observer j o a s' ho hobs => cases hobs <;> exact h
  | task i m a s' hm ht =>
    cases ht with
    | runtimeUnavailable hp =>
      have hphase : CallerInv (s.setPhase i .unspawned) :=
        callerInv_setPhase h hm (fun _ => rfl) rfl
      have hm' : (s.setPhase i .unspawned).tasks[i]? = some { m with phase := .unspawned } := by
        rw [getElem?_setPhase hm, if_pos rfl]
      exact callerInv_setCaller hphase hm' fun _ => rfl
    | receive outcome hc hp =>
      exact callerInv_setCaller h hm fun _ => by rw [hp]; rfl
    | receiveNothing hc hp => exact callerInv_setCaller h hm fun _ => by rw [hp]; rfl
    | acknowledge result hc =>
      exact callerInv_setCaller h hm fun _ => h i m hm result (.inl hc)
    | cancel hc hp =>
      refine callerInv_setCaller h hm fun hres => ?_
      obtain ⟨result, hres | hres⟩ := hres <;> cases hres
    | spawn hp | spawnPanics hp | lock hp _ | pass hp _ | reject _ hp _ _ | poll hp
    | sampleFloor _ _ hp _ | exec _ _ _ _ _ hp _ | load _ _ hp | swap _ _ _ hp _ | retry _ _ _ hp _
    | panic _ hp =>
      refine callerInv_setPhase h hm (fun ha => ?_) rfl
      rw [hp] at ha
      cases ha
    | conclude _ hp _ | concludeIndeterminate _ hp _ | respond _ hp _ | respondDetached _ hp _
    | acknowledged _ _ hp _ | acknowledgmentLost _ hp _ | finish _ _ hp | unlock _ hp =>
      exact callerInv_setPhase h hm (fun _ => rfl) rfl

variable {K : S.ActivityContract}

/-- What holds in every run without a fault. -/
structure Healthy (K : S.ActivityContract) (s : Registry σ) : Prop where
  inv : Inv s
  edits : EditInv s
  callers : CallerInv s
  ok : ¬Failed s
  agrees : s.core.Agrees K.toContract

theorem healthy_load {choice : ι} {store : σ} (h : load S choice store = .ok s) : Healthy K s := by
  have hagrees := agrees_load K.toContract h
  have hinv := inv_load h
  unfold load at h
  split at h
  · cases h
  · obtain rfl := Except.ok.inj h
    refine ⟨hinv, fun i p hp => ?_, fun i m hm => ?_, ?_, hagrees⟩
    · cases hp
    · cases hm
    · rintro ⟨i, p, hp, -⟩
      cases hp

theorem healthy_step (h : Healthy K s) {a : Action ι} (hs : step S s a = some s')
    (hgood : faulty S s a = false) : Healthy K s' := by
  have hok := not_failed_step h.ok hs hgood
  exact ⟨inv_step h.inv hs, editInv_step h.edits hs, callerInv_step h.callers hs, hok,
    Core.agrees_step K.toContract h.agrees (core_step h.inv hs hok)⟩

theorem Healthy.nonterminal (h : Healthy K s) : s.mutations.sealState.terminal = false := by
  rw [← Bool.not_eq_true]
  exact fun ht => h.ok (h.inv.sealing.failure ht)

end Registry

end ChpProxy
