import ChpProxy.Registry.Publication

/-! Published timestamps only grow until a route is deleted, and a completed observation is never
lost, whatever is published in between. -/
namespace ChpProxy.Registry

variable {σ ι : Type} {S : Store σ ι} {s s' : Registry σ}

/-- One call of `observe_activity` after it has published `edits`. -/
inductive ObserverOutcome (j : ℕ) (key : RouteKey) (at' : DateTime) (edits : List RouteEdit)
    (s : Registry σ) : Prop
  | unpublished (phase : ObserverPhase) (ho : s.observers[j]? = some ⟨key, at', phase⟩)
      (hp : phase ≠ .returned true) (he : edits = [])
  | published (ho : s.observers[j]? = some ⟨key, at', .returned true⟩)
      (he : edits = [.updateActivity key at'])

theorem observer_step {j : ℕ} {o : Observer} {a : Action ι} (hs : step S s a = some s')
    (ho : s.observers[j]? = some o) :
    s'.observers[j]? = some o ∨ ObserverStep s j o a s' := by
  cases step_cases hs with
  | enter key at' =>
    have hlt : j < s.observers.length := (List.getElem?_eq_some_iff.mp ho).1
    exact .inl ((List.getElem?_append_left hlt).trans ho)
  | task i m a s' hm ht => cases ht <;> exact .inl ho
  | observer k o' a s' hk hobs =>
    by_cases hj : j = k
    · subst hj
      obtain rfl := Option.some.inj (ho.symm.trans hk)
      exact .inr hobs
    · have hj' : ¬k = j := fun e => hj e.symm
      cases hobs <;> exact .inl (by simpa [setObserver, publish, hj'] using ho)
  | _ => exact .inl ho

theorem getElem?_setObserver_self {j : ℕ} {o : Observer} (ho : s.observers[j]? = some o)
    (p : ObserverPhase) : (s.setObserver j p).observers[j]? = some { o with phase := p } := by
  simp [setObserver, ho]

theorem editsBy_observer_eq_nil {a : Action ι} (h : Publication S s a s') {j : ℕ}
    (hj : s'.observers[j]? = s.observers[j]? ∨
      ∀ o current, s.observers[j]? = some o → o.phase ≠ .swapping current) :
    editsBy (.observer j) (events S s a) = [] := by
  cases h with
  | none hsnap hev => exact editsBy_eq_nil fun edit => hev _ edit
  | task i edit result current hp hp' hsnap hev => rw [hev]; rfl
  | observer k o current ho hp ho' hsnap hev =>
    rw [hev]
    have hk : k ≠ j := by
      rintro rfl
      rcases hj with hj | hj
      · rw [ho, ho'] at hj
        have := congrArg Observer.phase (Option.some.inj hj)
        rw [hp] at this
        cases this
      · exact hj o current ho hp
    refine editsBy_eq_nil fun e he => ?_
    simp [hk.symm] at he

theorem observerOutcome_step {j : ℕ} {key : RouteKey} {at' : DateTime} {l : List Event}
    {a : Action ι} (h : Inv s) (hl : ObserverOutcome j key at' (editsBy (.observer j) l) s)
    (hs : step S s a = some s') :
    ObserverOutcome j key at' (editsBy (.observer j) (l ++ events S s a)) s' := by
  have hpub := publication_step h hs
  rw [editsBy_append]
  cases hl with
  | published ho he =>
    have hnil : editsBy (.observer j) (events S s a) = [] := by
      refine editsBy_observer_eq_nil hpub (.inr fun o c hc => ?_)
      obtain rfl := Option.some.inj (ho.symm.trans hc)
      simp
    rw [he, hnil, List.append_nil]
    rcases observer_step hs ho with hsame | hobs
    · exact .published hsame rfl
    · cases hobs with
      | closed hp _ | check hp _ | absent hp _ | stale _ hp _ _ | load _ hp _ _ | swap _ hp _
      | retry _ hp _ => cases hp
  | unpublished phase ho hp he =>
    rw [he, List.nil_append]
    rcases observer_step hs ho with hsame | hobs
    · exact .unpublished phase hsame hp (editsBy_observer_eq_nil hpub (.inl (hsame.trans ho.symm)))
    · cases hobs with
      | swap current hp' hid =>
        cases hp'
        refine .published (getElem?_setObserver_self ho _) ?_
        simp [events, ho, hid, editsBy]
      | retry current hp' hid =>
        cases hp'
        exact .unpublished _ (getElem?_setObserver_self ho _) (by simp)
          (by simp [events, ho, hid])
      | _ =>
        exact .unpublished _ (getElem?_setObserver_self ho _) (by simp)
          (editsBy_eq_nil fun e => by simp [events])

/-- The step publishes the deletion of a route. -/
def Deletes (S : Store σ ι) (key : RouteKey) (s : Registry σ) (a : Action ι) : Prop :=
  ∃ event ∈ events S s a, event.deletes key = true

instance (key : RouteKey) (s : Registry σ) (a : Action ι) : Decidable (Deletes S key s a) :=
  inferInstanceAs (Decidable (∃ event ∈ events S s a, event.deletes key = true))

theorem deletes_iff {key : RouteKey} {a : Action ι} :
    Deletes S key s a ↔ ∃ author, .published author (.remove key) ∈ events S s a := by
  constructor
  · rintro ⟨event, hev, hdel⟩
    cases event with
    | published author edit =>
      cases edit with
      | remove k =>
        obtain rfl : k = key := by simpa [Event.deletes] using hdel
        exact ⟨author, hev⟩
      | _ => cases hdel
    | _ => cases hdel
  · rintro ⟨author, hev⟩
    exact ⟨_, hev, by simp [Event.deletes]⟩

theorem lastActivity_le_run (h : Inv s) (he : EditInv s) {bs : List (Action ι)} {key : RouteKey}
    {d : RouteData} (hd : s.routes.byKey[key]? = some d) (hr : run S s bs = some s')
    (hk : Transition.Avoids (step S) (Deletes S key) s bs) :
    ∃ d', s'.routes.byKey[key]? = some d' ∧ d.lastActivity ≤ d'.lastActivity := by
  have hstep : ∀ u a u', ¬Deletes S key u a →
      (Inv u ∧ EditInv u ∧ ∃ e, u.routes.byKey[key]? = some e ∧ d.lastActivity ≤ e.lastActivity) →
      step S u a = some u' →
      Inv u' ∧ EditInv u' ∧
        ∃ e, u'.routes.byKey[key]? = some e ∧ d.lastActivity ≤ e.lastActivity := by
    rintro u a u' hnot ⟨hi, hed, e, hu, hle⟩ hs
    obtain ⟨e', he', hle'⟩ := lastActivity_le_step hi hed hs hu fun author hev =>
      hnot (deletes_iff.mpr ⟨author, hev⟩)
    exact ⟨inv_step hi hs, editInv_step hed hs, e', he', le_trans hle hle'⟩
  exact (hk.invariant hstep ⟨h, he, d, hd, le_refl _⟩ hr).2.2

theorem not_deletes_of_present (h : Inv s) {a : Action ι} (hs : step S s a = some s')
    {key : RouteKey} {d' : RouteData} (hd : s'.routes.byKey[key]? = some d') :
    ¬Deletes S key s a := by
  intro hdel
  obtain ⟨author, hev⟩ := deletes_iff.mp hdel
  have gone : ∀ {edit : RouteEdit}, s'.snapshot.snapshot = s.snapshot.snapshot.edited edit →
      edit = .remove key → False := by
    rintro edit hsnap rfl
    have hroutes : s'.routes = s.routes.remove key := congrArg RouteSnapshot.routes hsnap
    rw [hroutes] at hd
    simp at hd
  cases publication_step h hs with
  | none hsnap hno => exact hno _ _ hev
  | task i edit result current hp hp' hsnap hev' =>
    rw [hev'] at hev
    simp only [List.mem_singleton, Event.published.injEq] at hev
    exact gone hsnap hev.2.symm
  | observer j o current ho hp ho' hsnap hev' =>
    rw [hev'] at hev
    simp at hev

/-- What a call of `observe_activity` has achieved: once it returns, the route carries the
observed timestamp. -/
def Observed (j : ℕ) (key : RouteKey) (at' : DateTime) (s : Registry σ) : Prop :=
  ∃ phase, s.observers[j]? = some ⟨key, at', phase⟩ ∧ ∀ b, phase = .returned b →
    ∃ d, s.routes.byKey[key]? = some d ∧ at' ≤ d.lastActivity

/-- The route is published and the registry still serves it. -/
def Serves (key : RouteKey) (s : Registry σ) : Prop :=
  key ∈ s.routes.byKey ∧ s.mutations.sealState ≠ .indeterminate

instance (key : RouteKey) (s : Registry σ) : Decidable (Serves key s) :=
  inferInstanceAs (Decidable (key ∈ s.routes.byKey ∧ s.mutations.sealState ≠ .indeterminate))

theorem observed_step (h : Inv s) (he : EditInv s) {j : ℕ} {key : RouteKey} {at' : DateTime}
    {a : Action ι} (hs : step S s a = some s') (hserves : Serves key s) (hserves' : Serves key s')
    (ho : Observed j key at' s) : Observed j key at' s' := by
  obtain ⟨phase, hj, hret⟩ := ho
  obtain ⟨hmem, hopen⟩ := hserves
  obtain ⟨d, hd⟩ := (OrderedRoutes.mem_byKey_iff s.routes key).mp hmem
  obtain ⟨d', hd'⟩ := (OrderedRoutes.mem_byKey_iff s'.routes key).mp hserves'.1
  have grows : ∀ {e : RouteData}, s.routes.byKey[key]? = some e → at' ≤ e.lastActivity →
      ∃ e', s'.routes.byKey[key]? = some e' ∧ at' ≤ e'.lastActivity := by
    intro e hd hle
    obtain ⟨e', he', hle'⟩ := lastActivity_le_step h he hs hd fun author hev =>
      not_deletes_of_present h hs hd' (deletes_iff.mpr ⟨author, hev⟩)
    exact ⟨e', he', le_trans hle hle'⟩
  rcases observer_step hs hj with hsame | hobs
  · refine ⟨phase, hsame, fun b hb => ?_⟩
    obtain ⟨e, hd, hle⟩ := hret b hb
    exact grows hd hle
  · cases hobs with
    | closed hp hi =>
      have : s.mutations.sealState = .indeterminate := by
        simpa [MutationTracker.isIndeterminate] using hi
      exact absurd this hopen
    | check hp hi => exact ⟨_, getElem?_setObserver_self hj _, fun b hb => by cases hb⟩
    | absent hp hk =>
      rw [hd] at hk
      cases hk
    | stale existing hp hk ha =>
      exact ⟨_, getElem?_setObserver_self hj _, fun b _ => ⟨existing, hk, ha⟩⟩
    | load existing hp hk ha => exact ⟨_, getElem?_setObserver_self hj _, fun b hb => by cases hb⟩
    | swap current hp hid =>
      obtain rfl := h.snapshot.held_eq current (.inr ⟨j, _, hj, hp⟩) hid
      refine ⟨_, getElem?_setObserver_self hj _, fun b _ => ?_⟩
      refine ⟨{ d with lastActivity := max d.lastActivity at' }, ?_, le_max_right _ _⟩
      change (s.routes.updateActivity key at').byKey[key]? = _
      rw [OrderedRoutes.getElem?_updateActivity, if_pos rfl, hd]
      rfl
    | retry current hp hid => exact ⟨_, getElem?_setObserver_self hj _, fun b hb => by cases hb⟩

theorem editInv_load {choice : ι} {store : σ} (h : load S choice store = .ok s) : EditInv s := by
  unfold load at h
  split at h
  · cases h
  · obtain rfl := Except.ok.inj h
    intro i p hp
    cases hp

theorem editInv_run (h : EditInv s) {as : List (Action ι)} (hr : run S s as = some s') :
    EditInv s' :=
  Transition.run_invariant (fun _ _ _ he hs => editInv_step he hs) h hr

theorem loopOutcome_run (h : Inv s) {i : ℕ} {m : Mutation} {edit : RouteEdit}
    {result : Option RouteData} (hm : s.tasks[i]? = some m) (hl : m.phase.Looping edit result)
    {bs : List (Action ι)} (hr : run S s bs = some s') :
    LoopOutcome i edit result (editsBy (.task i) (Transition.trace (step S) (events S) s bs)) s' := by
  have hstep : ∀ l u a u', (Inv u ∧ LoopOutcome i edit result (editsBy (.task i) l) u) →
      step S u a = some u' →
      Inv u' ∧ LoopOutcome i edit result (editsBy (.task i) (l ++ events S u a)) u' :=
    fun l u a u' hu hs => ⟨inv_step hu.1 hs, loopOutcome_step hu.1 hu.2 hs⟩
  exact (Transition.trace_invariant hstep ⟨h, .looping _ (phase?_eq hm) hl rfl⟩ hr).2

theorem observerOutcome_run (h : Inv s) {j : ℕ} {key : RouteKey} {at' : DateTime}
    (ho : s.observers[j]? = some ⟨key, at', .entered⟩) {bs : List (Action ι)}
    (hr : run S s bs = some s') :
    ObserverOutcome j key at'
      (editsBy (.observer j) (Transition.trace (step S) (events S) s bs)) s' := by
  have hstep : ∀ l u a u', (Inv u ∧ ObserverOutcome j key at' (editsBy (.observer j) l) u) →
      step S u a = some u' →
      Inv u' ∧ ObserverOutcome j key at' (editsBy (.observer j) (l ++ events S u a)) u' :=
    fun l u a u' hu hs => ⟨inv_step hu.1 hs, observerOutcome_step hu.1 hu.2 hs⟩
  exact (Transition.trace_invariant hstep ⟨h, .unpublished _ ho (by simp) rfl⟩ hr).2

theorem observed_run (h : Inv s) (he : EditInv s) {j : ℕ} {key : RouteKey} {at' : DateTime}
    (ho : s.observers[j]? = some ⟨key, at', .entered⟩) {bs : List (Action ι)}
    (hserves : Transition.Throughout (step S) (Serves key) s bs) (hr : run S s bs = some s') :
    Observed j key at' s' := by
  have hstep : ∀ u a u', Serves key u → Serves key u' →
      (Inv u ∧ EditInv u ∧ Observed j key at' u) → step S u a = some u' →
      Inv u' ∧ EditInv u' ∧ Observed j key at' u' :=
    fun u a u' hu hu' hP hs => ⟨inv_step hP.1 hs, editInv_step hP.2.1 hs,
      observed_step hP.1 hP.2.1 hs hu hu' hP.2.2⟩
  exact (hserves.invariant hstep ⟨h, he, _, ho, fun b hb => by cases hb⟩ hr).2.2

/-- No lost activity, from any reachable registry. A publication edits the snapshot it replaces;
the loop of a mutation publishes its edit once, and a call of `observe_activity` publishes once or
not at all; timestamps do not decrease while a route is not deleted; and a completed observation
of a served route bounds its timestamp until the next deletion. -/
theorem noLostActivity {choice : ι} {store : σ} {s₀ : Registry σ} {as : List (Action ι)}
    (hload : load S choice store = .ok s₀) (hrun : run S s₀ as = some s) :
    (∀ a s', step S s a = some s' →
      (∀ author edit, .published author edit ∈ events S s a →
        s'.snapshot.snapshot = s.snapshot.snapshot.edited edit) ∧
      ((∀ author edit, .published author edit ∉ events S s a) → s'.snapshot = s.snapshot)) ∧
    (∀ i m edit result bs s', s.tasks[i]? = some m → m.phase.Looping edit result →
      run S s bs = some s' → LoopOutcome i edit result
        (editsBy (.task i) (Transition.trace (step S) (events S) s bs)) s') ∧
    (∀ (j : ℕ) key at' bs s', s.observers[j]? = some ⟨key, at', .entered⟩ → run S s bs = some s' →
      ObserverOutcome j key at'
        (editsBy (.observer j) (Transition.trace (step S) (events S) s bs)) s') ∧
    (∀ key d bs s', s.routes.byKey[key]? = some d → run S s bs = some s' →
      Transition.Avoids (step S) (Deletes S key) s bs →
      ∃ d', s'.routes.byKey[key]? = some d' ∧ d.lastActivity ≤ d'.lastActivity) ∧
    (∀ (j : ℕ) key at' bs s' b cs s'', s.observers[j]? = some ⟨key, at', .entered⟩ →
      Transition.Throughout (step S) (Serves key) s bs → run S s bs = some s' →
      s'.observers[j]? = some ⟨key, at', .returned b⟩ → run S s' cs = some s'' →
      Transition.Avoids (step S) (Deletes S key) s' cs →
      ∃ d, s''.routes.byKey[key]? = some d ∧ at' ≤ d.lastActivity) := by
  have hinv : Inv s := inv_run (inv_load hload) hrun
  have hedit : EditInv s := editInv_run (editInv_load hload) hrun
  refine ⟨fun a s' hs => ?_, ?_, ?_, ?_, ?_⟩
  · cases publication_step hinv hs with
    | none hsnap hev => exact ⟨fun author edit he => absurd he (hev author edit), fun _ => hsnap⟩
    | task i edit result current hp hp' hsnap hev | observer j o current ho hp ho' hsnap hev =>
      rw [hev]
      refine ⟨fun author e he => ?_, fun hno => absurd (List.mem_singleton.mpr rfl) (hno _ _)⟩
      simp only [List.mem_singleton, Event.published.injEq] at he
      rw [hsnap, he.2]
  · intro i m edit result bs s' hm hl hr
    exact loopOutcome_run hinv hm hl hr
  · intro j key at' bs s' ho hr
    exact observerOutcome_run hinv ho hr
  · intro key d bs s' hd hr hk
    exact lastActivity_le_run hinv hedit hd hr hk
  · intro j key at' bs s' b cs s'' ho hserves hr ho' hr' hk
    obtain ⟨phase, hj, hret⟩ := observed_run hinv hedit ho hserves hr
    obtain rfl : phase = .returned b := by
      have := Option.some.inj (hj.symm.trans ho')
      exact congrArg Observer.phase this
    obtain ⟨d, hd, hle⟩ := hret b rfl
    obtain ⟨d', hd', hle'⟩ :=
      lastActivity_le_run (inv_run hinv hr) (editInv_run hedit hr) hd hr' hk
    exact ⟨d', hd', le_trans hle hle'⟩

/-- A replacement stamped before an observation is published after it. -/
theorem noLostActivity_stale_put : ∃ s₀ s s' s'',
    (load MemoryStore.store 0 (.insert ∅ (.parse "/a") ⟨"http://b", 1, ∅⟩) = .ok s₀ ∧
    run MemoryStore.store s₀
      [.begin (.put (.parse "/a") ⟨"http://c", 0, ∅⟩), .spawn 0, .lock 0, .fence 0, .poll 0,
        .sampleFloor 0, .exec 0 0, .load 0, .observe (.parse "/a") 9] = some s ∧
    s.observers[0]? = some ⟨.parse "/a", 9, .entered⟩ ∧
    Transition.Throughout (step MemoryStore.store) (Serves (.parse "/a")) s
      [.checkObserver 0, .loadObserver 0, .swapObserver 0] ∧
    run MemoryStore.store s [.checkObserver 0, .loadObserver 0, .swapObserver 0] = some s' ∧
    s'.observers[0]? = some ⟨.parse "/a", 9, .returned true⟩ ∧
    run MemoryStore.store s' [.swap 0, .load 0, .swap 0] = some s'' ∧
    Transition.Avoids (step MemoryStore.store) (Deletes MemoryStore.store (.parse "/a")) s'
      [.swap 0, .load 0, .swap 0]) ∧
    ∃ d, s''.routes.byKey[RouteKey.parse "/a"]? = some d ∧ 9 ≤ d.lastActivity := by
  refine Exists.imp (fun s₀ => Exists.imp fun s => Exists.imp fun s' => Exists.imp fun s'' h =>
    ⟨h, ?_⟩) ⟨_, _, _, _, rfl, rfl, rfl, by decide, rfl, rfl, rfl, by decide⟩
  obtain ⟨hload, hrun, ho, hserves, hr, ho', hr', hk⟩ := h
  exact (noLostActivity hload hrun).2.2.2.2 0 _ _ _ _ _ _ _ ho hserves hr ho' hr' hk

end ChpProxy.Registry
