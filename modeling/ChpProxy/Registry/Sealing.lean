import ChpProxy.Registry.Invariant
import ChpProxy.Store.Memory

/-! The seal of the registry. A future that can still reach the backend runs under a seal that is
not terminal, so the seal that a panic or an unknown outcome sets is never overwritten and no later
mutation reaches the backend. -/
namespace ChpProxy

namespace Phase

/-- The future may still call the backend, panic, or turn out indeterminate. -/
def live : Phase → Bool
  | .running _ => true
  | .settled (.error e) => e.isIndeterminate
  | _ => false

/-- The future ended in a panic or with an unknown outcome. -/
def failed (p : Phase) : Bool := p.outcome?.any Outcome.terminal

theorem holdsMutex_of_live {p : Phase} (h : p.live = true) : p.holdsMutex = true := by
  unfold live at h
  split at h
  · rfl
  · rfl
  · cases h

end Phase

namespace Registry

variable {σ ι : Type} {S : Store σ ι} {s s' : Registry σ}

def Failed (s : Registry σ) : Prop := ∃ i p, s.phase? i = some p ∧ p.failed = true

theorem failed_iff : Failed s ↔ ∃ m ∈ s.tasks, m.phase.failed = true := by
  constructor
  · rintro ⟨i, p, hi, hp⟩
    obtain ⟨m, hm, rfl⟩ := Option.map_eq_some_iff.mp hi
    exact ⟨m, List.mem_of_getElem? hm, hp⟩
  · rintro ⟨m, hm, hp⟩
    obtain ⟨i, hi⟩ := List.mem_iff_getElem?.mp hm
    exact ⟨i, m.phase, phase?_eq hi, hp⟩

instance (s : Registry σ) : Decidable (Failed s) := decidable_of_iff _ failed_iff.symm

theorem Failed.moves (h : Failed s) {i : ℕ} {p q : Phase} (hm : Moves s s' i p)
    (hq : s.phase? i = some q) (hf : q.failed = true → p.failed = true) : Failed s' := by
  obtain ⟨j, r, hr, hr'⟩ := h
  by_cases hj : j = i
  · subst hj
    obtain rfl := Option.some.inj (hq.symm.trans hr)
    exact ⟨j, p, hm.self, hf hr'⟩
  · exact ⟨j, r, by rw [hm.other hj, hr], hr'⟩

theorem failed_task (h : Failed s) {i : ℕ} {m : Mutation} {a : Action ι}
    (hm : s.tasks[i]? = some m) (ht : TaskStep S s i m a s') : Failed s' := by
  have hq := phase?_eq hm
  cases ht with
  | runtimeUnavailable hp =>
    refine h.moves (moves_setPhase_setCaller hm .unspawned _ rfl) hq ?_
    rw [hp]; exact fun hf => by cases hf
  | receive _ _ _ | receiveNothing _ _ | acknowledge _ _ | cancel _ _ =>
    exact h.moves (moves_setCaller hm _ rfl) hq id
  | panic _ hp => exact h.moves (moves_setPhase hm _ rfl) hq fun _ => rfl
  | pass hp _ | reject _ hp _ _ | poll hp | sampleFloor _ _ hp _ | exec _ _ _ _ _ hp _ | load _ _ hp
  | swap _ _ _ hp _ | retry _ _ _ hp _ =>
    refine h.moves (moves_setPhase hm _ rfl) hq ?_
    rw [hp]; exact fun hf => by cases hf
  | spawn hp | spawnPanics hp | lock hp _ | conclude _ hp _ | concludeIndeterminate _ hp _
  | respond _ hp _ | respondDetached _ hp _ | acknowledged _ _ hp _ | acknowledgmentLost _ hp _
  | finish _ _ hp | unlock _ hp =>
    refine h.moves (moves_setPhase hm _ rfl) hq ?_
    rw [hp]; exact id

theorem failed_step (h : Failed s) {a : Action ι} (hs : step S s a = some s') : Failed s' := by
  cases step_cases hs with
  | accept request hopen =>
    obtain ⟨i, p, hi, hf⟩ := h
    exact ⟨i, p, phase?_concat_of_some request _ hi, hf⟩
  | refuse _ _ => exact h
  | task i m a s' hm ht => exact failed_task h hm ht
  | enter _ _ => exact h
  | observer j o a s' ho hobs => cases hobs <;> exact h
  | drain _ _ _ _ => exact h
  | drained _ _ _ _ _ _ => exact h

/-- A live future runs under a seal that is not terminal, a failed one has sealed unless it is
still live, and only a failed one seals for good. -/
structure SealInv (s : Registry σ) : Prop where
  live : ∀ i p, s.phase? i = some p → p.live = true → s.mutations.sealState.terminal = false
  recorded : ∀ i p, s.phase? i = some p → p.failed = true → p.live = false →
    s.mutations.sealState.terminal = true
  failure : s.mutations.sealState.terminal = true → Failed s

namespace SealInv

theorem moves (h : SealInv s) {i : ℕ} {p : Phase} (hm : Moves s s' i p) (hf : Failed s → Failed s')
    (hseal : s'.mutations.sealState = s.mutations.sealState)
    (hlive : p.live = true → s.mutations.sealState.terminal = false)
    (hrec : p.failed = true → p.live = false → s.mutations.sealState.terminal = true) :
    SealInv s' where
  live := by
    rw [hseal]
    exact hm.forall_phase h.live hlive
  recorded := by
    rw [hseal]
    exact hm.forall_phase h.recorded hrec
  failure ht := by
    rw [hseal] at ht
    exact hf (h.failure ht)

/-- Sealing for good needs the mutex, so no other future is live. -/
theorem sealed (hx : MutexInv s) {i : ℕ} {p q : Phase} (hm : Moves s s' i p)
    (hq : s.phase? i = some q) (hh : q.holdsMutex = true)
    (hseal : s'.mutations.sealState.terminal = true) (hf : p.failed = true)
    (hl : p.live = false) : SealInv s' where
  live j r hr hlive := by
    by_cases hj : j = i
    · rw [hj, hm.self] at hr
      rw [← Option.some.inj hr, hl] at hlive
      cases hlive
    · rw [hm.other hj] at hr
      exact absurd (hx.unique hr hq (Phase.holdsMutex_of_live hlive) hh) hj
  recorded _ _ _ _ _ := hseal
  failure _ := ⟨i, p, hm.self, hf⟩

theorem congr (h : SealInv s) (hp : ∀ i, s'.phase? i = s.phase? i)
    (hseal : s'.mutations.sealState.terminal = s.mutations.sealState.terminal) : SealInv s' where
  live i p := by rw [hp, hseal]; exact h.live i p
  recorded i p := by rw [hp, hseal]; exact h.recorded i p
  failure ht := by
    rw [hseal] at ht
    obtain ⟨i, p, hi, hf⟩ := h.failure ht
    exact ⟨i, p, by rw [hp, hi], hf⟩

end SealInv

theorem terminal_shutdownSeal (t : MutationTracker) :
    t.shutdownSeal.sealState.terminal = t.sealState.terminal := by
  unfold MutationTracker.shutdownSeal
  split_ifs with h
  · rw [h]; rfl
  · rfl

theorem live_of_failed_afterCall {request : Request} {call : Call}
    {reply : Except StoreError call.Output} (h : (afterCall request call reply).failed = true) :
    (afterCall request call reply).live = true := by
  unfold afterCall at h ⊢
  split at h
  · exact h
  · split_ifs at h <;> cases h

theorem failed_invoke (s : Registry σ) (request : Request) : (s.invoke request).failed = false := by
  cases request with
  | persistObservedActivity key at' =>
    unfold invoke
    dsimp only
    split <;> rfl
  | _ => rfl

theorem sealInv_task (hx : MutexInv s) (h : SealInv s) {i : ℕ} {m : Mutation} {a : Action ι}
    (hm : s.tasks[i]? = some m) (ht : TaskStep S s i m a s') : SealInv s' := by
  have hq := phase?_eq hm
  have hlive : m.phase.live = true → s.mutations.sealState.terminal = false := h.live i _ hq
  have hrec := h.recorded i _ hq
  have hf : Failed s → Failed s' := fun hf => failed_task hf hm ht
  cases ht with
  | runtimeUnavailable hp =>
    exact h.moves (moves_setPhase_setCaller hm .unspawned _ rfl) hf (by simp)
      (fun hl => by cases hl) (fun hl => by cases hl)
  | pass hp hseal =>
    exact h.moves (moves_setPhase hm _ rfl) hf rfl (fun _ => hseal) (fun hl => by cases hl)
  | reject e hp hseal he =>
    refine h.moves (moves_setPhase hm _ rfl) hf rfl (fun hl => ?_) (fun _ _ => hseal)
    exact absurd (he.symm.trans hl) (by simp)
  | panic body hp =>
    exact SealInv.sealed hx (moves_setPhase hm _ rfl) hq (by rw [hp]; rfl) rfl rfl rfl
  | concludeIndeterminate result hp ht =>
    exact SealInv.sealed hx (moves_setPhase hm _ rfl) hq (by rw [hp]; rfl) rfl ht rfl
  | receive _ _ _ | receiveNothing _ _ | acknowledge _ _ | cancel _ _ =>
    exact h.moves (moves_setCaller hm _ rfl) hf rfl hlive hrec
  | poll hp =>
    refine h.moves (moves_setPhase hm _ rfl) hf rfl (fun _ => hlive (by rw [hp]; rfl)) fun hl => ?_
    rw [failed_invoke] at hl
    cases hl
  | exec call floors choice store reply hp hs =>
    refine h.moves (moves_setPhase hm _ rfl) hf rfl (fun _ => hlive (by rw [hp]; rfl)) fun hl hn => ?_
    rw [live_of_failed_afterCall hl] at hn
    cases hn
  | sampleFloor _ _ hp _ | load _ _ hp | swap _ _ _ hp _ | retry _ _ _ hp _ =>
    exact h.moves (moves_setPhase hm _ rfl) hf rfl (fun _ => hlive (by rw [hp]; rfl))
      (fun hl => by cases hl)
  | conclude result hp ht =>
    refine h.moves (moves_setPhase hm _ rfl) hf rfl (fun hl => by cases hl) fun hl => ?_
    exact absurd (ht.symm.trans hl) (by simp)
  | spawn hp | spawnPanics hp | lock hp _ | respond _ hp _ | respondDetached _ hp _
  | acknowledged _ _ hp _ | acknowledgmentLost _ hp _ | finish _ _ hp | unlock _ hp =>
    rw [hp] at hrec
    exact h.moves (moves_setPhase hm _ rfl) hf (by simp [setPhase]) (fun hl => by cases hl) hrec

theorem sealInv_step (hx : MutexInv s) (h : SealInv s) {a : Action ι}
    (hs : step S s a = some s') : SealInv s' := by
  cases step_cases hs with
  | accept request hopen =>
    have hopen' : s.mutations.sealState.terminal = false := by rw [hopen]; rfl
    refine ⟨fun _ _ _ _ => hopen', fun i p hi hf hl => ?_, fun ht => ?_⟩
    · rcases phase?_concat request _ i p hi with hi | rfl
      · exact h.recorded i p hi hf hl
      · cases hf
    · exact absurd (hopen'.symm.trans ht) (by simp)
  | refuse _ _ => exact h
  | task i m a s' hm ht => exact sealInv_task hx h hm ht
  | enter _ _ => exact h.congr (fun _ => rfl) rfl
  | observer j o a s' ho hobs => cases hobs <;> exact h.congr (fun _ => rfl) rfl
  | drain _ _ hseal _ =>
    exact h.congr (fun _ => rfl) (by rw [hseal, terminal_shutdownSeal])
  | drained _ _ _ _ hseal _ => exact h.congr (fun _ => rfl) (by rw [hseal])

/-- What holds in every registry that `load` and later steps can produce. -/
structure Inv (s : Registry σ) : Prop where
  mutex : MutexInv s
  snapshot : SnapshotInv s
  sealing : SealInv s

theorem inv_load {choice : ι} {store : σ} (h : load S choice store = .ok s) : Inv s := by
  unfold load at h
  split at h
  · cases h
  · obtain rfl := Except.ok.inj h
    refine ⟨⟨fun i p hp => ?_, fun i hi => by cases hi⟩, ⟨Nat.zero_lt_one, ?_, ?_⟩,
      ⟨fun i p hp => ?_, fun i p hp => ?_, fun ht => by cases ht⟩⟩
    · cases hp
    · rintro c (⟨i, e, r, hi⟩ | ⟨j, o, ho, -⟩)
      · cases hi
      · cases ho
    · rintro c (⟨i, e, r, hi⟩ | ⟨j, o, ho, -⟩)
      · cases hi
      · cases ho
    · cases hp
    · cases hp

theorem inv_step {a : Action ι} (h : Inv s) (hs : step S s a = some s') : Inv s' :=
  ⟨mutexInv_step h.mutex hs, snapshotInv_step h.snapshot hs, sealInv_step h.mutex h.sealing hs⟩

theorem inv_run {as : List (Action ι)} (h : Inv s) (hr : run S s as = some s') : Inv s' :=
  Transition.run_invariant (fun _ _ _ hi hs => inv_step hi hs) h hr

/-- The moves of the seal: a shutdown closes an open registry, and a failure closes for good what
is not closed for good. -/
inductive SealMove : MutationSeal → MutationSeal → Prop
  | shutdown : SealMove .open .shutdown
  | fail (before after : MutationSeal) (hb : before.terminal = false)
      (ha : after.terminal = true) : SealMove before after

theorem SealMove.nonterminal {before after : MutationSeal} (h : SealMove before after) :
    before.terminal = false := by
  cases h with
  | shutdown => rfl
  | fail _ _ hb _ => exact hb

theorem SealMove.ne_open {before after : MutationSeal} (h : SealMove before after) :
    after ≠ .open := by
  rintro rfl
  cases h with
  | fail _ _ _ ha => cases ha

theorem sealState_task (h : Inv s) {i : ℕ} {m : Mutation} {a : Action ι}
    (hm : s.tasks[i]? = some m) (ht : TaskStep S s i m a s') :
    s'.mutations.sealState = s.mutations.sealState ∨
      s.mutations.sealState.terminal = false ∧ s'.mutations.sealState.terminal = true := by
  have hlive := h.sealing.live i _ (phase?_eq hm)
  cases ht with
  | panic body hp => exact .inr ⟨hlive (by rw [hp]; rfl), rfl⟩
  | concludeIndeterminate result hp ht =>
    refine .inr ⟨hlive ?_, rfl⟩
    rw [hp]
    cases result with
    | ok _ => cases ht
    | error e => exact ht
  | _ => exact .inl (by simp [setPhase, setCaller, publish])

/-- Only a drain closes the registry without a failure. -/
theorem sealState_step (h : Inv s) {a : Action ι} (hs : step S s a = some s') (ha : a ≠ .drain) :
    s'.mutations.sealState = s.mutations.sealState ∨
      s.mutations.sealState.terminal = false ∧ s'.mutations.sealState.terminal = true := by
  cases step_cases hs with
  | accept _ _ | refuse _ _ | enter _ _ => exact .inl rfl
  | task i m a s' hm ht => exact sealState_task h hm ht
  | observer j o a s' ho hobs => cases hobs <;> exact .inl rfl
  | drain _ _ _ _ => exact absurd rfl ha
  | drained _ _ _ _ hseal _ => exact .inl hseal

theorem sealMove_step (h : Inv s) {a : Action ι} (hs : step S s a = some s') :
    s'.mutations.sealState = s.mutations.sealState ∨
      SealMove s.mutations.sealState s'.mutations.sealState := by
  by_cases ha : a = .drain
  · subst ha
    cases step_cases hs with
    | task i m a s' hm ht => cases ht
    | observer j o a s' ho hobs => cases hobs
    | drained _ _ _ hd _ _ => rcases hd with ⟨d, hd⟩ | ⟨d, hd⟩ <;> cases hd
    | drain mutations drains hseal _ =>
      change mutations.sealState = _ ∨ SealMove _ mutations.sealState
      rw [hseal]
      unfold MutationTracker.shutdownSeal
      split_ifs with hopen
      · rw [hopen]
        exact .inr .shutdown
      · exact .inl rfl
  · exact (sealState_step h hs ha).imp_right fun ht => .fail _ _ ht.1 ht.2

/-- A terminal seal stays as it is. -/
theorem sealState_run_of_terminal (h : Inv s) (ht : s.mutations.sealState.terminal = true)
    {bs : List (Action ι)} (hr : run S s bs = some s') :
    s'.mutations.sealState = s.mutations.sealState := by
  have hinv : ∀ t a t', (Inv t ∧ t.mutations.sealState = s.mutations.sealState) →
      step S t a = some t' → Inv t' ∧ t'.mutations.sealState = s.mutations.sealState := by
    rintro t a t' ⟨hi, he⟩ hs
    refine ⟨inv_step hi hs, ?_⟩
    rcases sealMove_step hi hs with hk | hk
    · exact hk.trans he
    · have hn := hk.nonterminal
      rw [he, ht] at hn
      cases hn
  exact (Transition.run_invariant hinv ⟨h, rfl⟩ hr).2

theorem length_tasks_task {i : ℕ} {m : Mutation} {a : Action ι} (ht : TaskStep S s i m a s') :
    s'.tasks.length = s.tasks.length := by
  cases ht <;> simp [setPhase, setCaller, publish]

/-- A sealed registry admits no mutation. -/
theorem length_tasks_run_of_sealed (h : Inv s) (hsealed : s.mutations.sealState ≠ .open)
    {bs : List (Action ι)} (hr : run S s bs = some s') : s'.tasks.length = s.tasks.length := by
  have hinv : ∀ t a t', (Inv t ∧ t.mutations.sealState ≠ .open ∧
      t.tasks.length = s.tasks.length) → step S t a = some t' →
      Inv t' ∧ t'.mutations.sealState ≠ .open ∧ t'.tasks.length = s.tasks.length := by
    rintro t a t' ⟨hi, hne, hl⟩ hs
    refine ⟨inv_step hi hs, ?_, ?_⟩
    · rcases sealMove_step hi hs with hk | hk
      · rwa [hk]
      · exact hk.ne_open
    · cases step_cases hs with
      | accept _ hopen => exact absurd hopen hne
      | task i m a s' hm ht => rw [length_tasks_task ht, hl]
      | observer j o a s' ho hobs => cases hobs <;> exact hl
      | _ => exact hl
  exact (Transition.run_invariant hinv ⟨h, hsealed, rfl⟩ hr).2.2

end Registry

/-- The task whose future an action polls towards or inside a `Store` mutator. -/
def Action.mutator? {ι : Type} : Action ι → Option ℕ
  | .poll i | .sampleFloor i | .exec i _ => some i
  | _ => none

namespace Registry

variable {σ ι : Type} {S : Store σ ι} {s s' : Registry σ}

theorem step_mutator_eq_none {a : Action ι} {i : ℕ} (ha : a.mutator? = some i)
    (hi : ∀ body, s.phase? i ≠ some (.running body)) : step S s a = none := by
  rw [Option.eq_none_iff_forall_ne_some]
  intro s' hs
  have hphase : ∀ {m : Mutation} {body : Body}, s.tasks[i]? = some m →
      m.phase ≠ .running body := by
    intro m body hm hp
    exact hi body (by rw [phase?_eq hm, hp])
  cases step_cases hs with
  | task j m a s' hm ht =>
    cases ht with
    | poll hp | sampleFloor _ _ hp _ | exec _ _ _ _ _ hp _ =>
      obtain rfl := Option.some.inj ha
      exact hphase hm hp
    | _ => cases ha
  | observer j o a s' ho hobs => cases hobs <;> cases ha
  | drained _ _ _ hd _ _ => rcases hd with ⟨d, rfl⟩ | ⟨d, rfl⟩ <;> cases ha
  | _ => cases ha

/-- After a failure no future is running: the failed one is over, and the others queue behind it
until the seal is set. -/
theorem not_running_of_failed (h : Inv s) (hf : Failed s) (i : ℕ) (body : Body) :
    s.phase? i ≠ some (.running body) := by
  intro hi
  obtain ⟨j, p, hj, hp⟩ := hf
  have hopen := h.sealing.live i _ hi rfl
  cases hl : p.live with
  | false => exact absurd (hopen.symm.trans (h.sealing.recorded j p hj hp hl)) (by simp)
  | true =>
    obtain rfl := h.mutex.unique hj hi (Phase.holdsMutex_of_live hl) rfl
    obtain rfl := Option.some.inj (hi.symm.trans hj)
    cases hp

theorem failed_run (hf : Failed s) {bs : List (Action ι)} (hr : run S s bs = some s') : Failed s' :=
  Transition.run_invariant (fun _ _ _ hf hs => failed_step hf hs) hf hr

/-- Fail-stop. The seal moves only forward; no mutator runs for a mutation that comes after the
seal, nor for any mutation after a failure; and a registry whose store is in doubt serves
nothing. -/
theorem failStop {choice : ι} {store : σ} {s₀ : Registry σ} {as : List (Action ι)}
    (hload : load S choice store = .ok s₀) (hrun : run S s₀ as = some s) :
    (∀ a s', step S s a = some s' → s'.mutations.sealState = s.mutations.sealState ∨
      SealMove s.mutations.sealState s'.mutations.sealState) ∧
    ∀ bs s', run S s bs = some s' →
      (s.mutations.sealState.terminal = true →
        s'.mutations.sealState = s.mutations.sealState) ∧
      (s.mutations.sealState ≠ .open → s'.tasks.length = s.tasks.length ∧
        ∀ a i, a.mutator? = some i → s.tasks.length ≤ i → step S s' a = none) ∧
      (s.mutations.sealState.terminal = true ∨ Failed s →
        ∀ a i, a.mutator? = some i → step S s' a = none) ∧
      (s.mutations.sealState = .indeterminate → ∀ cs s'', run S s' cs = some s'' →
        (∀ key, get s' s'' key = none) ∧ all s' s'' = ∅ ∧ ∀ path, resolve s' s'' path = none) := by
  have hinv : Inv s := inv_run (inv_load hload) hrun
  refine ⟨fun a s' hs => sealMove_step hinv hs, fun bs s' hr => ⟨?_, ?_, ?_, ?_⟩⟩
  · intro ht
    exact sealState_run_of_terminal hinv ht hr
  · intro hsealed
    have hlen := length_tasks_run_of_sealed hinv hsealed hr
    refine ⟨hlen, fun a i ha hi => step_mutator_eq_none ha fun body hp => ?_⟩
    obtain ⟨m, hm, -⟩ := Option.map_eq_some_iff.mp hp
    have hlt := (List.getElem?_eq_some_iff.mp hm).1
    omega
  · intro hfail a i ha
    have hf : Failed s := hfail.elim hinv.sealing.failure id
    exact step_mutator_eq_none ha (not_running_of_failed (inv_run hinv hr) (failed_run hf hr) i)
  · intro hind cs s'' _
    have hs' : s'.mutations.sealState = .indeterminate :=
      (sealState_run_of_terminal hinv (by rw [hind]; rfl) hr).trans hind
    simp [get, all, resolve, MutationTracker.isIndeterminate, hs']

/-- The first backend panic seals a registry over a memory store for good. -/
theorem failStop_memory_panic : ∃ s₀ s, (load MemoryStore.store 0 ∅ = .ok s₀ ∧
    run MemoryStore.store s₀
      [.begin (.delete (.parse "/a")), .spawn 0, .lock 0, .fence 0, .poll 0, .panic 0] = some s ∧
    s.mutations.sealState = .backendPanic) ∧
    ∀ bs s', run MemoryStore.store s bs = some s' → s'.mutations.sealState = .backendPanic := by
  refine Exists.imp (fun s₀ => Exists.imp fun s h => ⟨h, fun bs s' hr => ?_⟩) ⟨_, _, rfl, rfl, rfl⟩
  obtain ⟨hload, hrun, hseal⟩ := h
  rw [((failStop hload hrun).2 bs s' hr).1 (by rw [hseal]; rfl), hseal]

end Registry

end ChpProxy
