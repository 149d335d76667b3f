import ChpProxy.Registry.Synced

/-! Restarting over the memory store. -/
namespace ChpProxy

namespace Registry

variable {s s' : Registry MemoryStore.State}

/-- The step commits an activity update that is older than what is published, or begins to persist
an observation that is not published. -/
def Outdated (s : Registry MemoryStore.State) (a : Action DateTime) : Prop :=
  ∃ event ∈ events MemoryStore.store s a, event.outdated s.routes.byKey = true

instance (s : Registry MemoryStore.State) (a : Action DateTime) : Decidable (Outdated s a) :=
  inferInstanceAs (Decidable (∃ event ∈ events MemoryStore.store s a, _))

theorem routes_load {now : DateTime} {store : MemoryStore.State}
    (h : load MemoryStore.store now store = .ok s) : s.routes.byKey = store ∧ s.store = store := by
  obtain rfl := Except.ok.inj h
  exact ⟨rfl, rfl⟩

theorem synced_load {now : DateTime} {store : MemoryStore.State}
    (h : load MemoryStore.store now store = .ok s) : s.core.Synced [] := by
  obtain rfl := Except.ok.inj h
  refine Core.Synced.of_settled (by simp [activity]) (by simp [activity]) fun k x y hs hr => ?_
  obtain rfl := Option.some.inj (hs.symm.trans hr)
  exact .refl _ _ _

theorem synced_run {as : List (Action DateTime)} (hinv : Inv s)
    (hk : s.core.Agrees MemoryStore.contract.toContract) (hsync : s.core.Synced [])
    (hnew : Transition.Avoids (step MemoryStore.store) Outdated s as)
    (hr : run MemoryStore.store s as = some s') (hok : ¬Failed s') :
    s'.core.Synced
      (owed (Transition.trace (step MemoryStore.store) (events MemoryStore.store) s as)) := by
  have hstep : ∀ l u a u', ¬Outdated u a →
      (Inv u ∧ (¬Failed u → u.core.Agrees MemoryStore.contract.toContract ∧
        u.core.Synced (owed l))) →
      step MemoryStore.store u a = some u' →
      Inv u' ∧ (¬Failed u' → u'.core.Agrees MemoryStore.contract.toContract ∧
        u'.core.Synced (owed (l ++ events MemoryStore.store u a))) := by
    rintro l u a u' hnot ⟨hi, hu⟩ hs
    refine ⟨inv_step hi hs, fun hok' => ?_⟩
    obtain ⟨hagree, hsync⟩ := hu fun hf => hok' (failed_step hf hs)
    have hcore := core_step hi hs hok'
    refine ⟨Core.agrees_step _ hagree hcore, ?_⟩
    rw [owed, List.foldl_append]
    refine Core.synced_step hsync hagree hcore fun event hev => ?_
    rw [← Bool.not_eq_true]
    exact fun ho => hnot ⟨event, hev, ho⟩
  exact ((hnew.trace_invariant hstep ⟨hinv, fun _ => ⟨hk, hsync⟩⟩ hr).2 hok).2

theorem ext_of_payloads_stamp {a b : RouteMap} (hp : ∀ k, payloads a k = payloads b k)
    (hs : ∀ k x y, stamp a k = some x → stamp b k = some y → x = y) : a = b := by
  refine Std.ExtTreeMap.ext_getElem? fun {k} => ?_
  have hp := hp k
  have hs := hs k
  unfold payloads at hp
  unfold stamp at hs
  cases ha : a[k]? with
  | none =>
    rw [ha] at hp
    exact (Option.map_eq_none_iff.mp hp.symm).symm
  | some d =>
    rw [ha] at hp hs
    obtain ⟨d', hb, hpay⟩ := Option.map_eq_some_iff.mp hp.symm
    have hla := hs _ _ rfl (by rw [hb]; rfl)
    rw [hb]
    obtain ⟨t, la, ex⟩ := d
    obtain ⟨t', la', ex'⟩ := d'
    simp only [RouteData.payload, Prod.mk.injEq] at hpay
    simp_all

/-- Restart equivalence over the memory store, for runs without outdated timestamps: when the
mutex is free and no observation is owed, the registry serves exactly what the store holds, and so
does a registry loaded from it. -/
theorem restart_equivalence {now : DateTime} {store : MemoryStore.State}
    {s₀ : Registry MemoryStore.State} {as : List (Action DateTime)}
    (hload : load MemoryStore.store now store = .ok s₀)
    (hrun : run MemoryStore.store s₀ as = some s)
    (hnew : Transition.Avoids (step MemoryStore.store) Outdated s₀ as)
    (hok : ¬Failed s) (hfree : s.mutation = none)
    (howed : owed
      (Transition.trace (step MemoryStore.store) (events MemoryStore.store) s₀ as) = []) :
    all s s = s.store ∧ ∀ now' s₁, load MemoryStore.store now' s.store = .ok s₁ →
      s₁.routes.byKey = s.routes.byKey := by
  have hinv := inv_run (inv_load hload) hrun
  have hidle : s.activity = .idle := by simp [activity, hfree]
  have hsync := synced_run (inv_load hload) (agrees_load _ hload) (synced_load hload) hnew hrun hok
  rw [howed] at hsync
  have hpay : ∀ k, payloads s.routes.byKey k = payloads s.store k :=
    payloads_of_free MemoryStore.contract.toContract hload hrun hok hfree
  have hstamp : ∀ k x y, stamp s.routes.byKey k = some x → stamp s.store k = some y → x = y := by
    intro k x y hx hy
    have hset : s.core.settledRoutes = s.routes := by
      simp only [Core.settledRoutes, core, hidle]
      rfl
    have htr := hsync.settled k y x hy (by rw [hset]; exact hx)
    rcases htr.2 with he | he
    · exact he
    · cases he
  have hsame : s.routes.byKey = s.store := ext_of_payloads_stamp hpay hstamp
  have hopen : s.mutations.sealState.terminal = false := by
    rw [← Bool.not_eq_true]
    exact fun ht => hok (hinv.sealing.failure ht)
  refine ⟨?_, fun now' s₁ h₁ => ?_⟩
  · simp [all, MutationTracker.isIndeterminate_of_nonterminal hopen, hsame]
  · rw [(routes_load h₁).1, hsame]

/-- The steps of mutation `i` when nothing contends with it, from its admission to the end of its
store call. -/
def committing (i : ℕ) (request : Request) (now : DateTime) : List (Action DateTime) :=
  [.begin request, .spawn i, .lock i, .fence i, .poll i, .exec i now]

/-- From the end of its body to the release of the mutex. -/
def releasing (i : ℕ) : List (Action DateTime) :=
  [.conclude i, .respond i, .receive i, .acknowledge i, .acknowledged i, .finish i, .unlock i]

/-- An observation followed by its persistence. -/
def observing (key : RouteKey) (at' : DateTime) : List (Action DateTime) :=
  [.observe key at', .checkObserver 0, .loadObserver 0, .swapObserver 0] ++
    committing 0 (.persistObservedActivity key at') 0 ++ releasing 0

theorem restart_equivalence_observed : ∃ s₀ s,
    (load MemoryStore.store 0 (.insert ∅ (.parse "/a") ⟨"http://b", 1, ∅⟩) = .ok s₀ ∧
    run MemoryStore.store s₀ (observing (.parse "/a") 9) = some s ∧
    Transition.Avoids (step MemoryStore.store) Outdated s₀ (observing (.parse "/a") 9) ∧
    ¬Failed s ∧ s.mutation = none ∧
    owed (Transition.trace (step MemoryStore.store) (events MemoryStore.store) s₀
      (observing (.parse "/a") 9)) = []) ∧ all s s = s.store := by
  refine Exists.imp (fun s₀ => Exists.imp fun s h => ⟨h, ?_⟩)
    ⟨_, _, rfl, rfl, by decide, by decide, rfl, by decide⟩
  obtain ⟨hload, hrun, hnew, hok, hfree, howed⟩ := h
  exact (restart_equivalence hload hrun hnew hok hfree howed).1

/-- An activity update older than the published timestamp: the registry keeps the later one and the
store keeps the older one. -/
theorem restart_diverges_on_stale_update : ∃ s₀ s,
    load MemoryStore.store 0 (.insert ∅ (.parse "/a") ⟨"http://b", 10, ∅⟩) = .ok s₀ ∧
    run MemoryStore.store s₀
      (committing 0 (.updateActivity (.parse "/a") 5) 0 ++ [.load 0, .swap 0] ++ releasing 0) =
        some s ∧
    ¬Failed s ∧ s.mutation = none ∧ s.observers = [] ∧
    stamp (all s s) (.parse "/a") = some 10 ∧ stamp s.store (.parse "/a") = some 5 := by
  exact ⟨_, _, rfl, rfl, by decide, rfl, rfl, by decide, by decide⟩

end Registry

end ChpProxy
