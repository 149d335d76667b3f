import ChpProxy.Registry.Machine

/-! What one step of the registry can do. Every invariant below is proved by cases on these
relations and never unfolds the step function. -/
namespace ChpProxy.Registry

variable {σ ι : Type}

/-- A step of the task that supervises mutation `i`, or of its caller. -/
inductive TaskStep (S : Store σ ι) (s : Registry σ) (i : ℕ) (m : Mutation) :
    Action ι → Registry σ → Prop
  | spawn (hp : m.phase = .admitted) : TaskStep S s i m (.spawn i) (s.setPhase i .queued)
  | runtimeUnavailable (hp : m.phase = .admitted) :
      TaskStep S s i m (.runtimeUnavailable i)
        { (s.setPhase i .unspawned).setCaller i
            (.returned (.error (.message m.request.operation.noRuntimeMessage))) with
          mutations := s.mutations.finish none none }
  | spawnPanics (hp : m.phase = .admitted) :
      TaskStep S s i m (.spawnPanics i)
        { s.setPhase i .abandoned with
          mutations := s.mutations.finish none
            (some ⟨m.request.operation, m.request.operation.terminatedMessage⟩) }
  | lock (hp : m.phase = .queued) (hfree : s.mutation = none) :
      TaskStep S s i m (.lock i) { s.setPhase i .locked with mutation := some i }
  | pass (hp : m.phase = .locked) (hseal : s.mutations.sealState.terminal = false) :
      TaskStep S s i m (.fence i) (s.setPhase i (.running .start))
  | reject (e : StoreError) (hp : m.phase = .locked)
      (hseal : s.mutations.sealState.terminal = true) (he : e.isIndeterminate = false) :
      TaskStep S s i m (.fence i) (s.setPhase i (.settled (.error e)))
  | poll (hp : m.phase = .running .start) :
      TaskStep S s i m (.poll i) (s.setPhase i (s.invoke m.request))
  | sampleFloor (call : Call) (floors : List (Option DateTime))
      (hp : m.phase = .running (.calling call floors)) (hf : call.samplesFloor = true) :
      TaskStep S s i m (.sampleFloor i)
        (s.setPhase i (.running (.calling call (floors ++ [s.activityFloor call.key]))))
  | exec (call : Call) (floors : List (Option DateTime)) (choice : ι) (store : σ)
      (reply : Except StoreError call.Output) (hp : m.phase = .running (.calling call floors))
      (hs : S.exec choice floors s.store call = some (store, reply)) :
      TaskStep S s i m (.exec i choice)
        { s.setPhase i (afterCall m.request call reply) with store := store }
  | load (edit : RouteEdit) (result : Option RouteData)
      (hp : m.phase = .running (.merging edit result)) :
      TaskStep S s i m (.load i) (s.setPhase i (.running (.swapping edit result s.snapshot)))
  | swap (edit : RouteEdit) (result : Option RouteData) (current : Published)
      (hp : m.phase = .running (.swapping edit result current))
      (hid : s.snapshot.id = current.id) :
      TaskStep S s i m (.swap i) ((s.publish current edit).setPhase i (.settled (.ok result)))
  | retry (edit : RouteEdit) (result : Option RouteData) (current : Published)
      (hp : m.phase = .running (.swapping edit result current))
      (hid : s.snapshot.id ≠ current.id) :
      TaskStep S s i m (.swap i) (s.setPhase i (.running (.merging edit result)))
  | panic (body : Body) (hp : m.phase = .running body) :
      TaskStep S s i m (.panic i)
        { s.setPhase i (.responding .panicked) with mutations := s.mutations.panicSeal }
  | conclude (result : MutationResult) (hp : m.phase = .settled result)
      (ht : (Outcome.returned result).terminal = false) :
      TaskStep S s i m (.conclude i) (s.setPhase i (.responding (.returned result)))
  | concludeIndeterminate (result : MutationResult) (hp : m.phase = .settled result)
      (ht : (Outcome.returned result).terminal = true) :
      TaskStep S s i m (.conclude i)
        { s.setPhase i (.responding (.returned result)) with
          mutations := s.mutations.indeterminateSeal }
  | respond (outcome : Outcome) (hp : m.phase = .responding outcome) (hc : m.caller = .waiting) :
      TaskStep S s i m (.respond i) (s.setPhase i (.awaiting outcome))
  | respondDetached (outcome : Outcome) (hp : m.phase = .responding outcome)
      (hc : m.caller = .cancelled) :
      TaskStep S s i m (.respond i) (s.setPhase i (.finishing outcome true))
  | acknowledged (outcome : Outcome) (result : MutationResult) (hp : m.phase = .awaiting outcome)
      (hc : m.caller = .returned result) :
      TaskStep S s i m (.acknowledged i) (s.setPhase i (.finishing outcome false))
  | acknowledgmentLost (outcome : Outcome) (hp : m.phase = .awaiting outcome)
      (hc : m.caller = .cancelled) :
      TaskStep S s i m (.acknowledged i) (s.setPhase i (.finishing outcome true))
  | finish (outcome : Outcome) (detached : Bool) (hp : m.phase = .finishing outcome detached) :
      TaskStep S s i m (.finish i)
        { s.setPhase i (.releasing outcome) with
          mutations := s.mutations.finish
            (outcome.detachedFailure m.request.operation detached)
            (outcome.detachedPanic m.request.operation detached) }
  | unlock (outcome : Outcome) (hp : m.phase = .releasing outcome) :
      TaskStep S s i m (.unlock i) { s.setPhase i (.done outcome) with mutation := none }
  | receive (outcome : Outcome) (hc : m.caller = .waiting) (hp : m.phase = .awaiting outcome) :
      TaskStep S s i m (.receive i)
        (s.setCaller i (.received (outcome.response m.request.operation)))
  | receiveNothing (hc : m.caller = .waiting) (hp : m.phase = .abandoned) :
      TaskStep S s i m (.receive i) (s.setCaller i
        (.returned (.error (.message m.request.operation.noResultMessage))))
  | acknowledge (result : MutationResult) (hc : m.caller = .received result) :
      TaskStep S s i m (.acknowledge i) (s.setCaller i (.returned result))
  | cancel (hc : m.caller = .waiting) (hp : m.phase ≠ .admitted) :
      TaskStep S s i m (.cancel i) (s.setCaller i .cancelled)

inductive ObserverStep (s : Registry σ) (j : ℕ) (o : Observer) : Action ι → Registry σ → Prop
  | closed (hp : o.phase = .entered) (hi : s.mutations.isIndeterminate = true) :
      ObserverStep s j o (.checkObserver j) (s.setObserver j (.returned false))
  | check (hp : o.phase = .entered) (hi : s.mutations.isIndeterminate = false) :
      ObserverStep s j o (.checkObserver j) (s.setObserver j .loading)
  | absent (hp : o.phase = .loading) (hk : s.routes.byKey[o.key]? = none) :
      ObserverStep s j o (.loadObserver j) (s.setObserver j (.returned false))
  | stale (existing : RouteData) (hp : o.phase = .loading)
      (hk : s.routes.byKey[o.key]? = some existing) (ha : o.at' ≤ existing.lastActivity) :
      ObserverStep s j o (.loadObserver j) (s.setObserver j (.returned false))
  | load (existing : RouteData) (hp : o.phase = .loading)
      (hk : s.routes.byKey[o.key]? = some existing) (ha : existing.lastActivity < o.at') :
      ObserverStep s j o (.loadObserver j) (s.setObserver j (.swapping s.snapshot))
  | swap (current : Published) (hp : o.phase = .swapping current)
      (hid : s.snapshot.id = current.id) :
      ObserverStep s j o (.swapObserver j)
        ((s.publish current (.updateActivity o.key o.at')).setObserver j (.returned true))
  | retry (current : Published) (hp : o.phase = .swapping current)
      (hid : s.snapshot.id ≠ current.id) :
      ObserverStep s j o (.swapObserver j) (s.setObserver j .loading)

inductive Step (S : Store σ ι) (s : Registry σ) : Action ι → Registry σ → Prop
  | accept (request : Request) (hopen : s.mutations.sealState = .open) :
      Step S s (.begin request)
        { s with
          mutations := { s.mutations with active := saturatingAdd s.mutations.active 1 }
          tasks := s.tasks ++ [⟨request, .admitted, .waiting⟩] }
  | refuse (request : Request) (hsealed : s.mutations.sealState ≠ .open) :
      Step S s (.begin request) s
  | task (i : ℕ) (m : Mutation) (a : Action ι) (s' : Registry σ) (hm : s.tasks[i]? = some m)
      (h : TaskStep S s i m a s') : Step S s a s'
  | enter (key : RouteKey) (at' : DateTime) :
      Step S s (.observe key at') { s with observers := s.observers ++ [⟨key, at', .entered⟩] }
  | observer (j : ℕ) (o : Observer) (a : Action ι) (s' : Registry σ)
      (ho : s.observers[j]? = some o) (h : ObserverStep s j o a s') : Step S s a s'
  | drain (mutations : MutationTracker) (drains : List Drain)
      (hseal : mutations.sealState = s.mutations.shutdownSeal.sealState)
      (hactive : mutations.active = s.mutations.active) :
      Step S s .drain { s with mutations := mutations, drains := drains }
  | drained (a : Action ι) (mutations : MutationTracker) (drains : List Drain)
      (ha : (∃ d, a = .pollDrain d) ∨ ∃ d, a = .deadline d)
      (hseal : mutations.sealState = s.mutations.sealState)
      (hactive : mutations.active = s.mutations.active) :
      Step S s a { s with mutations := mutations, drains := drains }

private theorem task_cases {S : Store σ ι} {s s' : Registry σ} {i : ℕ} {a : Action ι}
    (h : (s.tasks[i]?).bind (s.stepTask S i · a) = some s')
    (hstep : ∀ m, s.stepTask S i m a = some s' → TaskStep S s i m a s') : Step S s a s' := by
  obtain ⟨m, hm, h⟩ := Option.bind_eq_some_iff.mp h
  exact .task i m a s' hm (hstep m h)

private theorem observer_cases {S : Store σ ι} {s s' : Registry σ} {j : ℕ} {a : Action ι}
    (h : (s.observers[j]?).bind (s.stepObserver j · a) = some s')
    (hstep : ∀ o, s.stepObserver j o a = some s' → ObserverStep s j o a s') : Step S s a s' := by
  obtain ⟨o, ho, h⟩ := Option.bind_eq_some_iff.mp h
  exact .observer j o a s' ho (hstep o h)

/-- The step function does nothing that the relation does not name. -/
theorem step_cases {S : Store σ ι} {s s' : Registry σ} {a : Action ι}
    (h : step S s a = some s') : Step S s a s' := by
  cases a with
  | begin request =>
    obtain rfl := Option.some.inj h
    unfold begin
    cases hb : s.mutations.begin with
    | ok mutations =>
      obtain ⟨hopen, rfl⟩ := MutationTracker.begin_eq_ok hb
      exact .accept request hopen
    | error e =>
      refine .refuse request fun hopen => ?_
      simp [MutationTracker.begin, hopen] at hb
  | spawn i =>
    refine task_cases h fun m h => ?_
    simp only [stepTask] at h
    split at h
    · next hp => cases h; exact .spawn hp
    · cases h
  | runtimeUnavailable i =>
    refine task_cases h fun m h => ?_
    simp only [stepTask] at h
    split at h
    · next hp => cases h; exact .runtimeUnavailable hp
    · cases h
  | spawnPanics i =>
    refine task_cases h fun m h => ?_
    simp only [stepTask] at h
    split at h
    · next hp => cases h; exact .spawnPanics hp
    · cases h
  | lock i =>
    refine task_cases h fun m h => ?_
    simp only [stepTask] at h
    split at h
    · next hp hf => cases h; exact .lock hp hf
    · cases h
  | fence i =>
    refine task_cases h fun m h => ?_
    simp only [stepTask] at h
    split at h
    · next hp =>
      split at h
      · next hr =>
        cases h
        exact .pass hp ((MutationTracker.rejectIfTerminallyFailed_eq_ok_iff _).mp hr)
      · next e hr =>
        cases h
        obtain ⟨ht, he⟩ := MutationTracker.rejectIfTerminallyFailed_ordinary hr
        exact .reject e hp ht he
    · cases h
  | poll i =>
    refine task_cases h fun m h => ?_
    simp only [stepTask] at h
    split at h
    · next hp => cases h; exact .poll hp
    · cases h
  | sampleFloor i =>
    refine task_cases h fun m h => ?_
    simp only [stepTask] at h
    split at h
    · next call floors hp =>
      split_ifs at h with hf
      cases h
      exact .sampleFloor call floors hp hf
    · cases h
  | exec i choice =>
    refine task_cases h fun m h => ?_
    simp only [stepTask] at h
    split at h
    · next call floors hp =>
      split at h
      · next store reply hs => cases h; exact .exec call floors choice store reply hp hs
      · cases h
    · cases h
  | load i =>
    refine task_cases h fun m h => ?_
    simp only [stepTask] at h
    split at h
    · next edit result hp => cases h; exact .load edit result hp
    · cases h
  | swap i =>
    refine task_cases h fun m h => ?_
    simp only [stepTask] at h
    split at h
    · next edit result current hp =>
      split_ifs at h with hid
      · cases h; exact .swap edit result current hp hid
      · cases h; exact .retry edit result current hp hid
    · cases h
  | panic i =>
    refine task_cases h fun m h => ?_
    simp only [stepTask] at h
    split at h
    · next body hp => cases h; exact .panic body hp
    · cases h
  | conclude i =>
    refine task_cases h fun m h => ?_
    simp only [stepTask] at h
    split at h
    · next result hp =>
      split_ifs at h with ht
      · cases h; exact .concludeIndeterminate result hp ht
      · cases h; exact .conclude result hp (by simpa using ht)
    · cases h
  | respond i =>
    refine task_cases h fun m h => ?_
    simp only [stepTask] at h
    split at h
    · next outcome hp hc => cases h; exact .respond outcome hp hc
    · next outcome hp hc => cases h; exact .respondDetached outcome hp hc
    · cases h
  | acknowledged i =>
    refine task_cases h fun m h => ?_
    simp only [stepTask] at h
    split at h
    · next outcome result hp hc => cases h; exact .acknowledged outcome result hp hc
    · next outcome hp hc => cases h; exact .acknowledgmentLost outcome hp hc
    · cases h
  | finish i =>
    refine task_cases h fun m h => ?_
    simp only [stepTask] at h
    split at h
    · next outcome detached hp => cases h; exact .finish outcome detached hp
    · cases h
  | unlock i =>
    refine task_cases h fun m h => ?_
    simp only [stepTask] at h
    split at h
    · next outcome hp => cases h; exact .unlock outcome hp
    · cases h
  | receive i =>
    refine task_cases h fun m h => ?_
    simp only [stepTask] at h
    split at h
    · next outcome hc hp => cases h; exact .receive outcome hc hp
    · next hc hp => cases h; exact .receiveNothing hc hp
    · cases h
  | acknowledge i =>
    refine task_cases h fun m h => ?_
    simp only [stepTask] at h
    split at h
    · next result hc => cases h; exact .acknowledge result hc
    · cases h
  | cancel i =>
    refine task_cases h fun m h => ?_
    simp only [stepTask] at h
    split at h
    · cases h
    · next hc hp => cases h; exact .cancel hc hp
    · cases h
  | observe key at' =>
    cases h
    exact .enter key at'
  | checkObserver j =>
    refine observer_cases h fun o h => ?_
    simp only [stepObserver] at h
    split at h
    · next hp =>
      split_ifs at h with hi
      · cases h; exact .closed hp hi
      · cases h; exact .check hp (by simpa using hi)
    · cases h
  | loadObserver j =>
    refine observer_cases h fun o h => ?_
    simp only [stepObserver] at h
    split at h
    · next hp =>
      split at h
      · next hk => cases h; exact .absent hp hk
      · next existing hk =>
        split_ifs at h with ha
        · cases h; exact .stale existing hp hk ha
        · cases h; exact .load existing hp hk (not_le.mp ha)
    · cases h
  | swapObserver j =>
    refine observer_cases h fun o h => ?_
    simp only [stepObserver] at h
    split at h
    · next current hp =>
      split_ifs at h with hid
      · cases h; exact .swap current hp hid
      · cases h; exact .retry current hp hid
    · cases h
  | drain =>
    obtain rfl := Option.some.inj h
    have hactive : s.mutations.shutdownSeal.active = s.mutations.active := by
      unfold MutationTracker.shutdownSeal
      split_ifs <;> rfl
    unfold Registry.drain
    cases hd : s.mutations.shutdownSeal.pollDrain with
    | some r =>
      obtain ⟨-, rfl⟩ := MutationTracker.pollDrain_eq_some hd
      exact .drain _ _ (by simp) (by simpa using hactive)
    | none => exact .drain _ _ rfl hactive
  | pollDrain d =>
    simp only [step, stepDrain] at h
    split at h
    · next outcome mutations _ hd =>
      obtain ⟨-, hr⟩ := MutationTracker.pollDrain_eq_some hd
      obtain ⟨-, rfl⟩ := Prod.mk.inj hr
      cases h
      exact .drained _ _ _ (.inl ⟨d, rfl⟩) (by simp) (by simp)
    · cases h
  | deadline d =>
    simp only [step, stepDrain] at h
    split at h
    · cases h
      exact .drained _ _ _ (.inr ⟨d, rfl⟩) (by simp) rfl
    · cases h

end ChpProxy.Registry
