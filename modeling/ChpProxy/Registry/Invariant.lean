import ChpProxy.Registry.Step

/-! Invariants of every reachable registry: one task at a time is between lock and unlock, and a
snapshot held across a swap is the published one if its allocation still is. -/
namespace ChpProxy.Registry

variable {σ ι : Type} {S : Store σ ι} {s s' : Registry σ}

def phase? (s : Registry σ) (i : ℕ) : Option Phase := (s.tasks[i]?).map (·.phase)

theorem phase?_eq {i : ℕ} {m : Mutation} (hm : s.tasks[i]? = some m) :
    s.phase? i = some m.phase := by simp [phase?, hm]

theorem phase?_setPhase {i : ℕ} {m : Mutation} (hm : s.tasks[i]? = some m) (p : Phase) (j : ℕ) :
    (s.setPhase i p).phase? j = if j = i then some p else s.phase? j := by
  by_cases h : j = i
  · subst h
    simp [phase?, setPhase, hm]
  · have h' : ¬i = j := fun e => h e.symm
    simp [phase?, setPhase, h, h']

@[simp] theorem phase?_setCaller (i : ℕ) (c : Caller) (j : ℕ) :
    (s.setCaller i c).phase? j = s.phase? j := by
  by_cases h : i = j
  · subst h
    cases hm : s.tasks[i]? <;> simp [phase?, setCaller, hm]
  · simp [phase?, setCaller, h]

/-- The phase that task `i` enters in a step; the other tasks keep theirs. -/
structure Moves (s s' : Registry σ) (i : ℕ) (p : Phase) : Prop where
  phase : ∀ j, s'.phase? j = if j = i then some p else s.phase? j

theorem moves_setPhase {i : ℕ} {m : Mutation} (hm : s.tasks[i]? = some m) (p : Phase)
    (ht : s'.tasks = (s.setPhase i p).tasks) : Moves s s' i p where
  phase j := by
    rw [← phase?_setPhase hm p j, phase?, ht]
    rfl

theorem moves_setCaller {i : ℕ} {m : Mutation} (hm : s.tasks[i]? = some m) (c : Caller)
    (ht : s'.tasks = (s.setCaller i c).tasks) : Moves s s' i m.phase where
  phase j := by
    have h := phase?_setCaller (s := s) i c j
    rw [phase?, ← ht] at h
    rw [phase?, h]
    by_cases hj : j = i
    · rw [if_pos hj, hj, phase?_eq hm]
    · rw [if_neg hj]

theorem moves_setPhase_setCaller {i : ℕ} {m : Mutation} (hm : s.tasks[i]? = some m) (p : Phase)
    (c : Caller) (ht : s'.tasks = ((s.setPhase i p).setCaller i c).tasks) : Moves s s' i p where
  phase j := by
    have h := (phase?_setCaller i c j).trans (phase?_setPhase hm p j)
    rwa [phase?, ← ht] at h

namespace Moves

variable {i : ℕ} {p : Phase}

theorem self (h : Moves s s' i p) : s'.phase? i = some p := by simp [h.phase]

theorem other (h : Moves s s' i p) {j : ℕ} (hj : j ≠ i) : s'.phase? j = s.phase? j := by
  simp [h.phase, hj]

theorem forall_phase (h : Moves s s' i p) {Q : ℕ → Phase → Prop}
    (hs : ∀ j q, s.phase? j = some q → Q j q) (hp : Q i p) :
    ∀ j q, s'.phase? j = some q → Q j q := by
  intro j q hq
  by_cases hj : j = i
  · rw [hj, h.self] at hq
    rw [hj, ← Option.some.inj hq]
    exact hp
  · rw [h.other hj] at hq
    exact hs j q hq

end Moves

theorem phase?_task_of_ne {i j : ℕ} {m : Mutation} {a : Action ι} (hm : s.tasks[j]? = some m)
    (ht : TaskStep S s j m a s') (hij : i ≠ j) : s'.phase? i = s.phase? i := by
  cases ht with
  | runtimeUnavailable hp => exact (moves_setPhase_setCaller hm .unspawned _ rfl).other hij
  | receive _ _ _ | receiveNothing _ _ | acknowledge _ _ | cancel _ _ =>
    exact (moves_setCaller hm _ rfl).other hij
  | _ => exact (moves_setPhase hm _ rfl).other hij

theorem holdsMutex_invoke (s : Registry σ) (request : Request) :
    (s.invoke request).holdsMutex = true := by
  cases request with
  | persistObservedActivity key at' =>
    unfold invoke
    dsimp only
    split <;> rfl
  | _ => rfl

theorem holdsMutex_afterCall (request : Request) (call : Call)
    (reply : Except StoreError call.Output) : (afterCall request call reply).holdsMutex = true := by
  unfold afterCall
  split
  · rfl
  · split_ifs <;> rfl

theorem phase?_concat (request : Request) (mutations : MutationTracker) (j : ℕ) (q : Phase)
    (h : phase? { s with mutations := mutations
                         tasks := s.tasks ++ [⟨request, .admitted, .waiting⟩] } j = some q) :
    s.phase? j = some q ∨ q = .admitted := by
  simp only [phase?, List.getElem?_append] at h
  split at h
  · exact .inl h
  · cases hk : j - s.tasks.length with
    | zero => simp [hk] at h; exact .inr h.symm
    | succ k => simp [hk] at h

theorem phase?_concat_of_some (request : Request) (mutations : MutationTracker) {j : ℕ} {q : Phase}
    (h : s.phase? j = some q) :
    phase? { s with mutations := mutations
                    tasks := s.tasks ++ [⟨request, .admitted, .waiting⟩] } j = some q := by
  obtain ⟨m, hm, rfl⟩ := Option.map_eq_some_iff.mp h
  have hlt : j < s.tasks.length := (List.getElem?_eq_some_iff.mp hm).1
  exact phase?_eq ((List.getElem?_append_left hlt).trans hm)

/-- The mutation mutex is held exactly by the task between lock and unlock. -/
structure MutexInv (s : Registry σ) : Prop where
  holder : ∀ i p, s.phase? i = some p → p.holdsMutex = true → s.mutation = some i
  held : ∀ i, s.mutation = some i → ∃ p, s.phase? i = some p ∧ p.holdsMutex = true

namespace MutexInv

theorem unique (h : MutexInv s) {i j : ℕ} {p q : Phase} (hi : s.phase? i = some p)
    (hj : s.phase? j = some q) (hp : p.holdsMutex = true) (hq : q.holdsMutex = true) : i = j := by
  have := (h.holder i p hi hp).symm.trans (h.holder j q hj hq)
  exact Option.some.inj this

theorem moves (h : MutexInv s) {i : ℕ} {p q : Phase} (hm : Moves s s' i p)
    (hq : s.phase? i = some q) (hk : p.holdsMutex = q.holdsMutex)
    (hmut : s'.mutation = s.mutation) : MutexInv s' where
  holder := by
    rw [hmut]
    exact hm.forall_phase h.holder (fun hp => h.holder i q hq (by rw [← hk, hp]))
  held j hj := by
    rw [hmut] at hj
    obtain ⟨r, hr, hh⟩ := h.held j hj
    by_cases he : j = i
    · subst he
      rw [hq] at hr
      exact ⟨p, hm.self, by rw [hk, Option.some.inj hr, hh]⟩
    · exact ⟨r, by rw [hm.other he, hr], hh⟩

theorem congr (h : MutexInv s) (hp : ∀ i, s'.phase? i = s.phase? i)
    (hmut : s'.mutation = s.mutation) : MutexInv s' where
  holder i p := by rw [hp, hmut]; exact h.holder i p
  held i := by rw [hp, hmut]; exact h.held i

end MutexInv

theorem mutexInv_task (h : MutexInv s) {i : ℕ} {m : Mutation} {a : Action ι}
    (hm : s.tasks[i]? = some m) (ht : TaskStep S s i m a s') : MutexInv s' := by
  have keep : ∀ {t : Registry σ} {p : Phase}, Moves s t i p →
      p.holdsMutex = m.phase.holdsMutex → t.mutation = s.mutation → MutexInv t :=
    fun hmv hk hmut => h.moves hmv (phase?_eq hm) hk hmut
  cases ht with
  | lock hp hfree =>
    have hmv : Moves s { s.setPhase i .locked with mutation := some i } i .locked :=
      moves_setPhase hm _ rfl
    refine ⟨hmv.forall_phase (fun j q hq hh => ?_) (fun _ => rfl), ?_⟩
    · have := h.holder j q hq hh
      rw [hfree] at this
      cases this
    · rintro j hj
      obtain rfl := Option.some.inj hj
      exact ⟨.locked, hmv.self, rfl⟩
  | unlock outcome hp =>
    have hmv : Moves s { s.setPhase i (.done outcome) with mutation := none } i (.done outcome) :=
      moves_setPhase hm _ rfl
    refine ⟨fun j q hq hh => ?_, fun j hj => by cases hj⟩
    by_cases hj : j = i
    · rw [hj, hmv.self] at hq
      rw [← Option.some.inj hq] at hh
      cases hh
    · rw [hmv.other hj] at hq
      exact absurd (h.unique hq (phase?_eq hm) hh (by rw [hp]; rfl)) hj
  | runtimeUnavailable hp =>
    exact keep (moves_setPhase_setCaller hm .unspawned _ rfl) (by rw [hp]; rfl) rfl
  | poll hp =>
    exact keep (moves_setPhase hm _ rfl) (by rw [hp, holdsMutex_invoke]; rfl) rfl
  | exec call floors choice store reply hp hs =>
    exact keep (moves_setPhase hm _ rfl) (by rw [hp, holdsMutex_afterCall]; rfl) rfl
  | receive _ _ _ | receiveNothing _ _ | acknowledge _ _ | cancel _ _ =>
    exact keep (moves_setCaller hm _ rfl) rfl rfl
  | _ =>
    refine keep (moves_setPhase hm _ rfl) ?_ rfl
    simp only [*]
    rfl

theorem mutexInv_step (h : MutexInv s) {a : Action ι} (hs : step S s a = some s') :
    MutexInv s' := by
  cases step_cases hs with
  | accept request hopen =>
    refine ⟨fun j q hq hh => ?_, fun j hj => ?_⟩
    · rcases phase?_concat request _ j q hq with hq | rfl
      · exact h.holder j q hq hh
      · cases hh
    · obtain ⟨p, hp, hh⟩ := h.held j hj
      exact ⟨p, phase?_concat_of_some request _ hp, hh⟩
  | refuse _ _ => exact h
  | task i m a s' hm ht => exact mutexInv_task h hm ht
  | enter _ _ => exact h.congr (fun _ => rfl) rfl
  | observer j o a s' ho hobs => cases hobs <;> exact h.congr (fun _ => rfl) rfl
  | drain _ _ _ _ => exact h.congr (fun _ => rfl) rfl
  | drained _ _ _ _ _ _ => exact h.congr (fun _ => rfl) rfl

/-- Some task or observer is between its load of `current` and the swap. -/
def Holds (s : Registry σ) (current : Published) : Prop :=
  (∃ i edit result, s.phase? i = some (.running (.swapping edit result current))) ∨
    ∃ (j : ℕ) (o : Observer), s.observers[j]? = some o ∧ o.phase = .swapping current

/-- A held snapshot whose allocation is still the published one is the published snapshot, so a
pointer comparison is enough for the swap. -/
structure SnapshotInv (s : Registry σ) : Prop where
  fresh : s.snapshot.id < s.allocated
  held_fresh : ∀ current, s.Holds current → current.id < s.allocated
  held_eq : ∀ current, s.Holds current → s.snapshot.id = current.id → current = s.snapshot

namespace SnapshotInv

theorem unpublished (h : SnapshotInv s) (hsnap : s'.snapshot = s.snapshot)
    (halloc : s'.allocated = s.allocated)
    (hh : ∀ c, s'.Holds c → s.Holds c ∨ c = s.snapshot) : SnapshotInv s' where
  fresh := by
    rw [hsnap, halloc]
    exact h.fresh
  held_fresh c hc := by
    rw [halloc]
    rcases hh c hc with hc | rfl
    · exact h.held_fresh c hc
    · exact h.fresh
  held_eq c hc hid := by
    rw [hsnap] at hid ⊢
    rcases hh c hc with hc | rfl
    · exact h.held_eq c hc hid
    · rfl

/-- A publication takes a fresh allocation, so every snapshot still held becomes stale. -/
theorem published (h : SnapshotInv s) (hsnap : s'.snapshot.id = s.allocated)
    (halloc : s'.allocated = s.allocated + 1) (hh : ∀ c, s'.Holds c → s.Holds c) :
    SnapshotInv s' where
  fresh := by omega
  held_fresh c hc := by
    have := h.held_fresh c (hh c hc)
    omega
  held_eq c hc hid := by
    have := h.held_fresh c (hh c hc)
    omega

end SnapshotInv

theorem holds_moves {i : ℕ} {p : Phase} (hm : Moves s s' i p) (hobs : s'.observers = s.observers)
    {c : Published} (hc : s'.Holds c) :
    s.Holds c ∨ ∃ edit result, p = .running (.swapping edit result c) := by
  rcases hc with ⟨j, e, r, hj⟩ | ⟨j, o, ho, hp⟩
  · by_cases hji : j = i
    · rw [hji, hm.self] at hj
      exact .inr ⟨e, r, Option.some.inj hj⟩
    · rw [hm.other hji] at hj
      exact .inl (.inl ⟨j, e, r, hj⟩)
  · rw [hobs] at ho
    exact .inl (.inr ⟨j, o, ho, hp⟩)

theorem getElem?_setObserver {j k : ℕ} {o o' : Observer} (ho : s.observers[j]? = some o)
    (p : ObserverPhase) (h : (s.setObserver j p).observers[k]? = some o') :
    (k = j ∧ o' = { o with phase := p }) ∨ (k ≠ j ∧ s.observers[k]? = some o') := by
  by_cases hk : k = j
  · subst hk
    simp only [setObserver, List.getElem?_modify_eq, ho] at h
    exact .inl ⟨rfl, (Option.some.inj h).symm⟩
  · have hk' : ¬j = k := fun e => hk e.symm
    exact .inr ⟨hk, by simpa [setObserver, hk'] using h⟩

theorem holds_setObserver {j : ℕ} {o : Observer} (ho : s.observers[j]? = some o)
    {p : ObserverPhase} {c : Published} (hc : (s.setObserver j p).Holds c) :
    s.Holds c ∨ p = .swapping c := by
  rcases hc with hc | ⟨k, o', hk, hph⟩
  · exact .inl (.inl hc)
  · rcases getElem?_setObserver ho p hk with ⟨-, rfl⟩ | ⟨-, hk⟩
    · exact .inr hph
    · exact .inl (.inr ⟨k, o', hk, hph⟩)

/-- The body never holds a snapshot right after its backend call. -/
theorem afterCall_ne_swapping (request : Request) (call : Call)
    (reply : Except StoreError call.Output) (edit : RouteEdit) (result : Option RouteData)
    (current : Published) :
    afterCall request call reply ≠ .running (.swapping edit result current) := by
  unfold afterCall
  split
  · simp
  · split_ifs <;> simp

theorem invoke_ne_swapping (s : Registry σ) (request : Request) (edit : RouteEdit)
    (result : Option RouteData) (current : Published) :
    s.invoke request ≠ .running (.swapping edit result current) := by
  cases request with
  | persistObservedActivity key at' =>
    unfold invoke
    dsimp only
    split <;> simp
  | _ => simp [invoke]

theorem snapshotInv_task (h : SnapshotInv s) {i : ℕ} {m : Mutation} {a : Action ι}
    (hm : s.tasks[i]? = some m) (ht : TaskStep S s i m a s') : SnapshotInv s' := by
  have keep : ∀ {t : Registry σ} {p : Phase}, Moves s t i p → t.observers = s.observers →
      t.snapshot = s.snapshot → t.allocated = s.allocated →
      (∀ e r c, p = .running (.swapping e r c) → s.Holds c ∨ c = s.snapshot) → SnapshotInv t := by
    intro t p hmv hobs hsnap halloc hp
    refine h.unpublished hsnap halloc fun c hc => ?_
    rcases holds_moves hmv hobs hc with hc | ⟨e, r, he⟩
    · exact .inl hc
    · exact hp e r c he
  cases ht with
  | runtimeUnavailable hp =>
    exact keep (moves_setPhase_setCaller hm .unspawned _ rfl) rfl rfl rfl (by simp)
  | poll hp =>
    refine keep (moves_setPhase hm _ rfl) rfl rfl rfl fun e r c he => ?_
    exact absurd he (invoke_ne_swapping s m.request e r c)
  | exec call floors choice store reply hp hs =>
    refine keep (moves_setPhase hm _ rfl) rfl rfl rfl fun e r c he => ?_
    exact absurd he (afterCall_ne_swapping m.request call reply e r c)
  | load edit result hp =>
    refine keep (moves_setPhase hm _ rfl) rfl rfl rfl fun e r c he => .inr ?_
    simp only [Phase.running.injEq, Body.swapping.injEq] at he
    exact he.2.2.symm
  | swap edit result current hp hid =>
    refine h.published rfl rfl fun c hc => ?_
    have hmv : Moves s ((s.publish current edit).setPhase i (.settled (.ok result))) i
        (.settled (.ok result)) := moves_setPhase hm _ rfl
    rcases holds_moves hmv rfl hc with hc | ⟨e, r, he⟩
    · exact hc
    · cases he
  | receive _ _ _ | receiveNothing _ _ | acknowledge _ _ | cancel _ _ =>
    refine keep (moves_setCaller hm _ rfl) rfl rfl rfl fun e r c he => .inl (.inl ⟨i, e, r, ?_⟩)
    rw [phase?_eq hm, he]
  | _ => exact keep (moves_setPhase hm _ rfl) rfl rfl rfl (by simp)

theorem snapshotInv_step (h : SnapshotInv s) {a : Action ι} (hs : step S s a = some s') :
    SnapshotInv s' := by
  cases step_cases hs with
  | accept request hopen =>
    refine h.unpublished rfl rfl fun c hc => .inl ?_
    rcases hc with ⟨j, e, r, hj⟩ | hc
    · rcases phase?_concat request _ j _ hj with hj | hj
      · exact .inl ⟨j, e, r, hj⟩
      · cases hj
    · exact .inr hc
  | refuse _ _ => exact h
  | task i m a s' hm ht => exact snapshotInv_task h hm ht
  | enter key at' =>
    refine h.unpublished rfl rfl fun c hc => .inl ?_
    rcases hc with hc | ⟨j, o, ho, hp⟩
    · exact .inl hc
    · rcases List.mem_append.mp (List.mem_of_getElem? ho) with ho | ho
      · obtain ⟨k, hk⟩ := List.mem_iff_getElem?.mp ho
        exact .inr ⟨k, o, hk, hp⟩
      · rw [List.mem_singleton.mp ho] at hp
        cases hp
  | observer j o a s' ho hobs =>
    cases hobs with
    | swap current hp hid =>
      refine h.published rfl rfl fun c hc => ?_
      have ho' : (s.publish current (.updateActivity o.key o.at')).observers[j]? = some o := ho
      rcases holds_setObserver ho' hc with hc | hc
      · exact hc
      · cases hc
    | load existing hp hk ha =>
      refine h.unpublished rfl rfl fun c hc => ?_
      rcases holds_setObserver ho hc with hc | hc
      · exact .inl hc
      · exact .inr (ObserverPhase.swapping.inj hc).symm
    | _ =>
      refine h.unpublished rfl rfl fun c hc => ?_
      rcases holds_setObserver ho hc with hc | hc
      · exact .inl hc
      · cases hc
  | drain _ _ _ _ => exact h.unpublished rfl rfl fun _ hc => .inl hc
  | drained _ _ _ _ _ _ => exact h.unpublished rfl rfl fun _ hc => .inl hc

end ChpProxy.Registry
