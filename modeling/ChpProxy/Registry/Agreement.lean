import ChpProxy.Registry.Core

/-! Registry and backend agree on the set of routes and on every target and metadata whenever the
mutation mutex is free, over any backend that keeps the store contract. -/
namespace ChpProxy

/-- A route map without its timestamps. -/
def payloads (routes : RouteMap) (key : RouteKey) : Option (String × Map) :=
  (routes[key]?).map RouteData.payload

/-- The effect of an edit on targets and metadata. -/
def RouteEdit.onPayloads (edit : RouteEdit) (f : RouteKey → Option (String × Map)) :
    RouteKey → Option (String × Map) :=
  match edit with
  | .replace key data | .replacePreservingActivity key data =>
    Function.update f key (some data.payload)
  | .updateActivity _ _ => f
  | .remove key => Function.update f key none

theorem payloads_insert (routes : RouteMap) (key : RouteKey) (data : RouteData) :
    payloads (routes.insert key data) = Function.update (payloads routes) key (some data.payload) := by
  funext k
  by_cases hk : k = key
  · subst hk
    simp [payloads]
  · have hk' : ¬key = k := fun e => hk e.symm
    simp [payloads, Std.ExtTreeMap.getElem?_insert, hk, hk']

theorem payloads_erase (routes : RouteMap) (key : RouteKey) :
    payloads (routes.erase key) = Function.update (payloads routes) key none := by
  funext k
  by_cases hk : k = key
  · subst hk
    simp [payloads]
  · have hk' : ¬key = k := fun e => hk e.symm
    simp [payloads, Std.ExtTreeMap.getElem?_erase, hk, hk']

theorem payloads_updateActivity (r : OrderedRoutes) (key : RouteKey) (at' : DateTime) :
    payloads (r.updateActivity key at').byKey = payloads r.byKey := by
  funext k
  rw [payloads, payloads, OrderedRoutes.getElem?_updateActivity]
  split_ifs
  · cases r.byKey[k]? <;> rfl
  · rfl

theorem payloads_apply (edit : RouteEdit) (r : OrderedRoutes) :
    payloads (edit.apply r).byKey = edit.onPayloads (payloads r.byKey) := by
  cases edit with
  | replace key data => exact payloads_insert r.byKey key data
  | replacePreservingActivity key data =>
    change payloads (r.replacePreservingActivity key data).byKey = _
    unfold OrderedRoutes.replacePreservingActivity
    split
    · exact payloads_insert r.byKey key _
    · exact payloads_insert r.byKey key data
  | updateActivity key at' => exact payloads_updateActivity r key at'
  | remove key => exact payloads_erase r.byKey key

namespace Store.Contract

variable {σ ι : Type} {S : Store σ ι}

/-- A committed call changes the backend as the registry's edit will change its routes. -/
theorem payloads_commit (K : S.Contract) {choice : ι} {floors : List (Option DateTime)} {s s' : σ}
    {call : Call} {out : call.Output} (h : S.exec choice floors s call = some (s', .ok out)) :
    payloads (K.contents s') = (call.edit out).onPayloads (payloads (K.contents s)) := by
  cases call with
  | add key target extra => rw [K.add_ok h]; exact payloads_insert _ key out
  | putPreservingActivity key data => rw [K.put_ok h]; exact payloads_insert _ key out
  | updateActivity key at' =>
    funext k
    exact (K.update_ok h k).1
  | delete key => rw [K.delete_ok h]; exact payloads_erase _ key

end Store.Contract

namespace Core

variable {σ ι : Type} {S : Store σ ι}

/-- Backend and published routes differ by the pending edit at most. -/
structure Agrees (K : S.Contract) (c : Core σ) : Prop where
  payload : payloads (K.contents c.store) =
    c.activity.pending.elim (payloads c.routes.byKey) (·.onPayloads (payloads c.routes.byKey))
  caller : ∀ request call floors, c.activity = .calling request call floors →
    ∃ stamp, request.call? stamp = some call

/-- A request that publishes nothing changes one timestamp. -/
theorem onPayloads_of_unpublished {request : Request} {call : Call} {stamp : Option DateTime}
    (hcall : request.call? stamp = some call) (hpub : request.publishes = false)
    (out : call.Output) (f : RouteKey → Option (String × Map)) :
    (call.edit out).onPayloads f = f := by
  cases request with
  | persistObservedActivity key at' =>
    obtain ⟨current, -, rfl⟩ := Option.map_eq_some_iff.mp hcall
    rfl
  | _ => cases hpub

theorem agrees_step (K : S.Contract) {c c' : Core σ} {events : List Event} (h : c.Agrees K)
    (hs : Step S c events c') : c'.Agrees K := by
  have hp := h.payload
  cases hs with
  | silent => exact h
  | invoke request call hidle hcall =>
    rw [hidle] at hp
    refine ⟨hp, fun r cl f he => ?_⟩
    cases he
    exact ⟨_, hcall⟩
  | sample request call floors hcall hfloor =>
    obtain ⟨stamp, hstamp⟩ := h.caller request call floors hcall
    rw [hcall] at hp
    refine ⟨hp, fun r cl f he => ?_⟩
    cases he
    exact ⟨stamp, hstamp⟩
  | commit request call floors choice store out hcall hexec =>
    obtain ⟨stamp, hstamp⟩ := h.caller request call floors hcall
    have hcommit := K.payloads_commit hexec
    rw [hp, hcall] at hcommit
    cases hpub : request.publishes with
    | true => exact ⟨hcommit, fun r cl f he => by cases he⟩
    | false =>
      refine ⟨hcommit.trans ?_, fun r cl f he => by cases he⟩
      exact onPayloads_of_unpublished hstamp hpub out _
  | reject request call floors choice store e hcall hexec hord =>
    rw [hcall] at hp
    refine ⟨?_, fun r cl f he => by cases he⟩
    change payloads (K.contents store) = _
    rw [K.error_unchanged hexec hord]
    exact hp
  | publish i edit hpub =>
    rw [hpub] at hp
    refine ⟨hp.trans ?_, fun r cl f he => by cases he⟩
    exact (payloads_apply edit c.routes).symm
  | observe j key at' =>
    refine ⟨?_, h.caller⟩
    change payloads (K.contents c.store) = c.activity.pending.elim
      (payloads (c.routes.updateActivity key at').byKey)
      (·.onPayloads (payloads (c.routes.updateActivity key at').byKey))
    rw [payloads_updateActivity]
    exact hp

end Core

/-- The mutation whose task or caller takes a step. -/
def Action.task? {ι : Type} : Action ι → Option ℕ
  | .spawn i | .runtimeUnavailable i | .spawnPanics i | .lock i | .fence i | .poll i |
    .sampleFloor i | .exec i _ | .load i | .swap i | .panic i | .conclude i | .respond i |
    .acknowledged i | .finish i | .unlock i | .receive i | .acknowledge i | .cancel i => some i
  | _ => none

def Outcome.rejected : Outcome → Bool
  | .returned (.error e) => !e.isIndeterminate
  | _ => false

namespace Phase

/-- The mutation ended in an ordinary error, for its future or already for its caller. -/
def rejected : Phase → Bool
  | .unspawned | .abandoned => true
  | p => p.outcome?.any Outcome.rejected

/-- The mutation may still end in an ordinary error, or has. -/
def rejectable : Phase → Bool
  | .running (.merging _ _) | .running (.swapping _ _ _) => false
  | p => p.outcome?.all Outcome.rejected

theorem rejectable_of_rejected {p : Phase} (h : p.rejected = true) : p.rejectable = true := by
  cases p with
  | running body => cases h
  | _ => first | exact h | rfl

end Phase

namespace Registry

variable {σ ι : Type} {S : Store σ ι} {s s' : Registry σ}

def Rejectable (s : Registry σ) (i : ℕ) : Prop := ∀ p, s.phase? i = some p → p.rejectable = true

/-- A step after which the mutation may end in an ordinary error touched neither side. -/
theorem rejectable_task (K : S.Contract) {i : ℕ} {m : Mutation} {a : Action ι}
    (hm : s.tasks[i]? = some m) (ht : TaskStep S s i m a s') (hr : Rejectable s' i) :
    m.phase.rejectable = true ∧ K.contents s'.store = K.contents s.store ∧
      s'.snapshot = s.snapshot := by
  have set : ∀ {p : Phase}, s'.tasks = (s.setPhase i p).tasks → p.rejectable = true :=
    fun ht => hr _ (moves_setPhase hm _ ht).self
  have kept : ∀ {c : Caller}, s'.tasks = (s.setCaller i c).tasks → m.phase.rejectable = true :=
    fun ht => hr _ (moves_setCaller hm _ ht).self
  cases ht with
  | exec call floors choice store reply hp hs =>
    rw [hp]
    refine ⟨rfl, ?_, rfl⟩
    have hafter := set rfl
    cases reply with
    | ok out =>
      simp only [afterCall] at hafter
      split_ifs at hafter <;> cases hafter
    | error e =>
      have he : (!e.isIndeterminate) = true := hafter
      exact K.error_unchanged hs (by simpa using he)
  | load edit result hp => cases set rfl
  | swap edit result current hp hid => cases set rfl
  | retry edit result current hp hid => cases set rfl
  | panic body hp => cases set rfl
  | runtimeUnavailable hp => exact ⟨by rw [hp]; rfl, rfl, rfl⟩
  | receive _ _ _ | receiveNothing _ _ | acknowledge _ _ | cancel _ _ => exact ⟨kept rfl, rfl, rfl⟩
  | conclude _ hp _ | concludeIndeterminate _ hp _ | respond _ hp _ | respondDetached _ hp _
  | acknowledged _ _ hp _ | acknowledgmentLost _ hp _ | finish _ _ hp | unlock _ hp =>
    have hafter := set rfl
    exact ⟨by rw [hp]; exact hafter, rfl, rfl⟩
  | spawn hp | spawnPanics hp | lock hp _ | pass hp _ | reject _ hp _ _ | poll hp
  | sampleFloor _ _ hp _ => exact ⟨by rw [hp]; rfl, rfl, rfl⟩

theorem rejectable_step (K : S.Contract) (i : ℕ) {a : Action ι} (hs : step S s a = some s')
    (hr : Rejectable s' i) : Rejectable s i := by
  intro p hp
  cases step_cases hs with
  | accept request hopen => exact hr p (phase?_concat_of_some request _ hp)
  | refuse _ _ | enter _ _ | drain _ _ _ _ | drained _ _ _ _ _ _ => exact hr p hp
  | task j m a s' hm ht =>
    by_cases hj : i = j
    · subst hj
      obtain rfl := Option.some.inj ((phase?_eq hm).symm.trans hp)
      exact (rejectable_task K hm ht hr).1
    · exact hr p ((phase?_task_of_ne hm ht hj).trans hp)
  | observer j o a s' ho hobs => cases hobs <;> exact hr p hp

/-- A mutation that ended in an ordinary error took no step that touched either side. -/
theorem unchanged_of_rejected (K : S.Contract) {i : ℕ} {a : Action ι} {t : Registry σ}
    {bs : List (Action ι)} (hs : step S s a = some s') (ha : a.task? = some i)
    (hr : run S s' bs = some t) {p : Phase} (hp : t.phase? i = some p) (hrej : p.rejected = true) :
    K.contents s'.store = K.contents s.store ∧ s'.snapshot = s.snapshot := by
  have hlast : Rejectable t i := by
    intro q hq
    obtain rfl := Option.some.inj (hp.symm.trans hq)
    exact Phase.rejectable_of_rejected hrej
  have hnext : Rejectable s' i :=
    Transition.run_relation (P := fun _ => True) (R := fun u v => Rejectable v i → Rejectable u i)
      (fun _ h => h) (fun _ _ _ h₁ h₂ h => h₁ (h₂ h)) (fun _ _ _ _ _ => trivial)
      (fun _ _ _ _ hs h => rejectable_step K i hs h) trivial hr hlast
  cases step_cases hs with
  | task j m a s' hm ht =>
    have hj : a.task? = some j := by cases ht <;> rfl
    obtain rfl := Option.some.inj (ha.symm.trans hj)
    exact (rejectable_task K hm ht hnext).2
  | observer j o a s' ho hobs => cases hobs <;> cases ha
  | drained _ _ _ hd _ _ => rcases hd with ⟨d, rfl⟩ | ⟨d, rfl⟩ <;> cases ha
  | _ => cases ha

theorem agrees_load (K : S.Contract) {choice : ι} {store : σ} (h : load S choice store = .ok s) :
    s.core.Agrees K := by
  unfold load at h
  split at h
  · cases h
  · next routes hsnap =>
    obtain rfl := Except.ok.inj h
    refine ⟨?_, fun r c f he => by cases he⟩
    rw [K.snapshot_ok hsnap]
    rfl

theorem agrees_run (K : S.Contract) {as : List (Action ι)} (hinv : Inv s) (hk : s.core.Agrees K)
    (hr : run S s as = some s') (hok : ¬Failed s') : s'.core.Agrees K := by
  have hstep : ∀ t a t', (Inv t ∧ (¬Failed t → t.core.Agrees K)) → step S t a = some t' →
      Inv t' ∧ (¬Failed t' → t'.core.Agrees K) := by
    rintro t a t' ⟨hi, ha⟩ hs
    refine ⟨inv_step hi hs, fun hok' => ?_⟩
    have hok : ¬Failed t := fun hf => hok' (failed_step hf hs)
    exact Core.agrees_step K (ha hok) (core_step hi hs hok')
  exact (Transition.run_invariant hstep ⟨hinv, fun _ => hk⟩ hr).2 hok

/-- The published routes and the backend agree whenever the mutex is free. -/
theorem payloads_of_free (K : S.Contract) {choice : ι} {store : σ} {s₀ : Registry σ}
    {as : List (Action ι)} (hload : load S choice store = .ok s₀) (hrun : run S s₀ as = some s)
    (hok : ¬Failed s) (hfree : s.mutation = none) (key : RouteKey) :
    payloads s.routes.byKey key = payloads (K.contents s.store) key := by
  have hagree := agrees_run K (inv_load hload) (agrees_load K hload) hrun hok
  have hidle : s.activity = .idle := by simp [activity, hfree]
  have hp := hagree.payload
  simp only [core, hidle] at hp
  exact (congrFun hp key).symm

/-- Whenever the mutex is free and nothing has failed, backend and published routes hold the same
keys with the same targets and metadata; and the steps of a mutation that ends in an ordinary
error change neither. -/
theorem registry_agrees_with_store (K : S.Contract) {choice : ι} {store : σ} {s₀ : Registry σ}
    {as : List (Action ι)} (hload : load S choice store = .ok s₀) (hrun : run S s₀ as = some s) :
    (¬Failed s → s.mutation = none →
      ∀ key, payloads s.routes.byKey key = payloads (K.contents s.store) key) ∧
    ∀ i p, s.phase? i = some p → p.rejected = true →
      ∀ pre a post t t', as = pre ++ a :: post → run S s₀ pre = some t → step S t a = some t' →
        a.task? = some i → K.contents t'.store = K.contents t.store ∧ t'.snapshot = t.snapshot := by
  constructor
  · intro hok hfree key
    exact payloads_of_free K hload hrun hok hfree key
  · intro i p hp hrej pre a post t t' has hpre hstep ha
    subst has
    obtain ⟨t₁, ht₁, hrest⟩ := (Transition.run_append_eq_some_iff _).mp hrun
    obtain rfl := Option.some.inj (hpre.symm.trans ht₁)
    obtain ⟨t₂, ht₂, hpost⟩ := (Transition.run_cons_eq_some_iff _).mp hrest
    obtain rfl := Option.some.inj (hstep.symm.trans ht₂)
    exact unchanged_of_rejected K hstep ha hpost hp hrej

/-- Adding a route to an empty memory store. -/
theorem registry_agrees_with_memory : ∃ s₀ s, (load MemoryStore.store 0 ∅ = .ok s₀ ∧
    run MemoryStore.store s₀
      [.begin (.add (.parse "/a") "http://b" ∅), .spawn 0, .lock 0, .fence 0, .poll 0,
        .sampleFloor 0, .exec 0 5, .load 0, .swap 0, .conclude 0, .respond 0, .receive 0,
        .acknowledge 0, .acknowledged 0, .finish 0, .unlock 0] = some s ∧
    s.mutation = none ∧ ¬Failed s) ∧
    payloads s.routes.byKey (.parse "/a") = payloads s.store (.parse "/a") := by
  refine Exists.imp (fun s₀ => Exists.imp fun s h => ⟨h, ?_⟩) ⟨_, _, rfl, rfl, rfl, by decide⟩
  obtain ⟨hload, hrun, hfree, hok⟩ := h
  exact (registry_agrees_with_store MemoryStore.contract.toContract hload hrun).1 hok hfree _

end Registry

end ChpProxy
