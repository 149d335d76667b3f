import ChpProxy.Registry.Delivery

/-! What the answer to a mutation says: on success the record was published, or removed, at some
moment between the call and its answer. -/
namespace ChpProxy

variable {σ ι : Type}

namespace Registry

variable {S : Store σ ι} {s s' : Registry σ}

/-- The change that is about to be published, given the states `H` that were passed through. -/
def Prepared (K : S.RecordContract) (H : List (Registry σ)) :
    Request → RouteEdit → Option RouteData → Prop
  | .add key target extra, edit, _ =>
    ∃ data, edit = .replacePreservingActivity key data ∧ data.payload = (target, extra)
  | .delete key, edit, prior =>
    edit = .remove key ∧ ∃ u ∈ H, (K.contents u.store)[key]? = prior
  | _, _, _ => True

/-- What a successful mutation has brought about in the states `H`, in which one comes after the
other. -/
def Effective (K : S.RecordContract) (H : List (Registry σ)) :
    Request → Option RouteData → Prop
  | .add key target extra, _ =>
    ∃ u ∈ H, ∃ data, u.routes.byKey[key]? = some data ∧ data.payload = (target, extra)
  | .delete key, prior =>
    ∃ u v, [u, v].Sublist H ∧ (K.contents u.store)[key]? = prior ∧ v.routes.byKey[key]? = none
  | _, _ => True

/-- What the answer to a mutation rests on. -/
def Backed (K : S.RecordContract) (H : List (Registry σ)) (request : Request) :
    MutationResult → Prop
  | .ok result => Effective K H request result
  | .error e => e.isIndeterminate = true → ∃ u ∈ H, u.mutations.isIndeterminate = true

/-- What the phase of a mutation rests on. -/
def Phase.Justified (K : S.RecordContract) (H : List (Registry σ)) (request : Request) :
    Phase → Prop
  | .running (.calling call _) => ∃ stamp, request.call? stamp = some call
  | .running (.merging edit result) | .running (.swapping edit result _) =>
    Prepared K H request edit result
  | .settled (.ok result) => Effective K H request result
  | .settled (.error _) => True
  | p => ∀ answer, p.outcome? = some (.returned answer) → Backed K H request answer

def Caller.Justified (K : S.RecordContract) (H : List (Registry σ)) (request : Request) :
    Caller → Prop
  | .received answer | .returned answer => Backed K H request answer
  | .waiting | .cancelled => True

structure Justified (K : S.RecordContract) (H : List (Registry σ)) (m : Mutation) : Prop where
  phase : Phase.Justified K H m.request m.phase
  caller : Caller.Justified K H m.request m.caller

section

variable {K : S.RecordContract} {H H' : List (Registry σ)} {request : Request}

theorem Effective.mono (hH : H.Sublist H') {result : Option RouteData}
    (h : Effective K H request result) : Effective K H' request result := by
  cases request with
  | add key target extra =>
    obtain ⟨u, hu, h⟩ := h
    exact ⟨u, hH.subset hu, h⟩
  | delete key =>
    obtain ⟨u, v, huv, h⟩ := h
    exact ⟨u, v, huv.trans hH, h⟩
  | put | updateActivity | persistObservedActivity => trivial

theorem Prepared.mono (hH : H.Sublist H') {edit : RouteEdit} {result : Option RouteData}
    (h : Prepared K H request edit result) : Prepared K H' request edit result := by
  cases request with
  | delete key =>
    obtain ⟨he, u, hu, h⟩ := h
    exact ⟨he, u, hH.subset hu, h⟩
  | add | put | updateActivity | persistObservedActivity => exact h

theorem Backed.mono (hH : H.Sublist H') {answer : MutationResult}
    (h : Backed K H request answer) : Backed K H' request answer := by
  cases answer with
  | ok result => exact Effective.mono hH h
  | error e =>
    intro he
    obtain ⟨u, hu, hseal⟩ := h he
    exact ⟨u, hH.subset hu, hseal⟩

theorem Phase.Justified.mono (hH : H.Sublist H') {p : Phase}
    (h : Phase.Justified K H request p) : Phase.Justified K H' request p := by
  cases p with
  | running body =>
    cases body with
    | calling call floors => exact h
    | merging edit result => exact Prepared.mono hH h
    | swapping edit result current => exact Prepared.mono hH h
    | start => exact fun answer hr => (h answer hr).mono hH
  | settled answer =>
    cases answer with
    | ok result => exact Effective.mono hH h
    | error e => trivial
  | _ => exact fun answer hr => (h answer hr).mono hH

theorem Justified.mono (hH : H.Sublist H') {m : Mutation} (h : Justified K H m) :
    Justified K H' m := by
  refine ⟨h.phase.mono hH, ?_⟩
  have hc := h.caller
  cases hm : m.caller with
  | received answer | returned answer =>
    rw [hm] at hc
    exact Backed.mono hH hc
  | waiting | cancelled => trivial

theorem Prepared.publish {edit : RouteEdit} {result : Option RouteData} {current : Published}
    (h : Prepared K H request edit result) {u : Registry σ}
    (hroutes : u.routes = edit.apply current.snapshot.routes) :
    Effective K (H ++ [u]) request result := by
  cases request with
  | add key target extra =>
    obtain ⟨data, rfl, hp⟩ := h
    have hkey := (OrderedRoutes.getElem?_replacePreservingActivity current.snapshot.routes key key
      data).trans (if_pos rfl)
    refine ⟨u, List.mem_concat_self, _, (congrArg (·.byKey[key]?) hroutes).trans hkey, ?_⟩
    exact hp
  | delete key =>
    obtain ⟨rfl, v, hv, hprior⟩ := h
    refine ⟨v, u, (List.singleton_sublist.mpr hv).append (List.Sublist.refl [u]), hprior, ?_⟩
    rw [hroutes, RouteEdit.apply, OrderedRoutes.getElem?_remove, if_pos rfl]
  | put | updateActivity | persistObservedActivity => trivial

theorem Phase.justified_of_outcome {p : Phase} (ho : p.outcome? = none)
    (hp : ∀ body, p ≠ .running body) : Phase.Justified K H request p := by
  cases p with
  | running body => exact absurd rfl (hp body)
  | admitted | queued | locked | unspawned | abandoned => exact fun answer hr => by cases hr
  | settled | responding | awaiting | finishing | releasing | done => cases ho

theorem Phase.Justified.of_outcome {p q : Phase} {outcome : Outcome}
    (h : Phase.Justified K H request p) (hp : p.outcome? = some outcome)
    (hq : q.outcome? = some outcome) (hps : ∀ answer, p ≠ .settled answer)
    (hqs : ∀ answer, q ≠ .settled answer) : Phase.Justified K H request q := by
  have hout : ∀ answer, outcome = .returned answer → Backed K H request answer := by
    rintro answer rfl
    cases p with
    | settled answer => exact absurd rfl (hps answer)
    | responding | awaiting | finishing | releasing | done => exact h answer hp
    | admitted | queued | locked | running | unspawned | abandoned => cases hp
  cases q with
  | settled answer => exact absurd rfl (hqs answer)
  | responding | awaiting | finishing | releasing | done =>
    exact fun answer hr => hout answer (Option.some.inj (hq.symm.trans hr))
  | admitted | queued | locked | running | unspawned | abandoned => cases hq

theorem justified_invoke (s : Registry σ) (request : Request) :
    Phase.Justified K H request (s.invoke request) := by
  cases request with
  | persistObservedActivity key at' =>
    unfold invoke
    dsimp only
    split
    · exact trivial
    · next current _ => exact ⟨some current.lastActivity, rfl⟩
  | _ => exact ⟨none, rfl⟩

theorem justified_afterCall {call : Call} {floors : List (Option DateTime)} {choice : ι}
    {store : σ} {reply : Except StoreError call.Output} {stamp : Option DateTime}
    (hcall : request.call? stamp = some call)
    (hexec : S.exec choice floors s.store call = some (store, reply)) (hs : s ∈ H) :
    Phase.Justified K H request (afterCall request call reply) := by
  cases reply with
  | error e => exact trivial
  | ok out =>
    cases request with
    | add key target extra =>
      obtain rfl := Option.some.inj hcall
      exact ⟨out, rfl, K.add_payload hexec⟩
    | delete key =>
      obtain rfl := Option.some.inj hcall
      exact ⟨rfl, s, hs, (K.delete_prior hexec).symm⟩
    | put key data =>
      obtain rfl := Option.some.inj hcall
      exact trivial
    | updateActivity key at' =>
      obtain rfl := Option.some.inj hcall
      exact trivial
    | persistObservedActivity key at' => exact trivial

variable {i : ℕ} {m : Mutation}

theorem Justified.task {a : Action ι} (hm : s.tasks[i]? = some m) (ht : TaskStep S s i m a s')
    (hs : s ∈ H) (h : Justified K H m) :
    ∃ m', s'.tasks[i]? = some m' ∧ m'.request = m.request ∧ Justified K (H ++ [s']) m' := by
  have hlonger : H.Sublist (H ++ [s']) := List.sublist_append_left H [s']
  have h' : Justified K (H ++ [s']) m := h.mono hlonger
  have advance : ∀ p : Phase, Phase.Justified K (H ++ [s']) m.request p →
      ∃ m', (s.setPhase i p).tasks[i]? = some m' ∧ m'.request = m.request ∧ Justified K (H ++ [s']) m' :=
    fun p hp => ⟨_, tasks_setPhase_self hm p, rfl, hp, h'.caller⟩
  have hear : ∀ c : Caller, Caller.Justified K (H ++ [s']) m.request c →
      ∃ m', (s.setCaller i c).tasks[i]? = some m' ∧ m'.request = m.request ∧ Justified K (H ++ [s']) m' :=
    fun c hc => ⟨_, tasks_setCaller_self hm c, rfl, h'.phase, hc⟩
  -- The outcome stays what it was.
  have keep : ∀ {outcome : Outcome} (p : Phase), m.phase.outcome? = some outcome →
      p.outcome? = some outcome → (∀ answer, m.phase ≠ .settled answer) →
      (∀ answer, p ≠ .settled answer) →
      ∃ m', (s.setPhase i p).tasks[i]? = some m' ∧ m'.request = m.request ∧ Justified K (H ++ [s']) m' :=
    fun p ho hp hms hps => advance p (h'.phase.of_outcome ho hp hms hps)
  cases ht with
  | spawn _ | lock _ _ | spawnPanics _ => exact advance _ (Phase.justified_of_outcome rfl (by simp))
  | runtimeUnavailable _ =>
    refine ⟨_, tasks_setCaller_self (tasks_setPhase_self hm .unspawned) _, rfl, ?_, ?_⟩
    · exact Phase.justified_of_outcome rfl (by simp)
    · exact fun he => by cases he
  | pass _ _ => exact advance _ fun answer hr => by cases hr
  | reject e _ _ _ => exact advance _ trivial
  | poll _ => exact advance _ (justified_invoke s m.request)
  | sampleFloor call floors hp _ =>
    have hcall := h'.phase
    rw [hp] at hcall
    exact advance _ hcall
  | exec call floors choice store reply hp hexec =>
    have hcall := h'.phase
    rw [hp] at hcall
    obtain ⟨stamp, hcall⟩ := hcall
    exact advance _ (justified_afterCall hcall hexec (hlonger.subset hs))
  | load edit result hp | retry edit result _ hp _ =>
    have hprepared := h'.phase
    rw [hp] at hprepared
    exact advance _ hprepared
  | swap edit result current hp hid =>
    have hprepared := h.phase
    rw [hp] at hprepared
    refine ⟨_, tasks_setPhase_self (s := s.publish current edit) hm _, rfl, ?_, h'.caller⟩
    exact Prepared.publish hprepared rfl
  | panic _ _ => exact advance _ fun answer hr => by cases hr
  | conclude answer hp hterminal =>
    refine advance _ ?_
    rintro _ ⟨⟩
    have hsettled := h'.phase
    rw [hp] at hsettled
    cases answer with
    | ok result => exact hsettled
    | error e =>
      intro he
      cases hterminal.symm.trans he
  | concludeIndeterminate answer hp hterminal =>
    refine advance _ ?_
    rintro _ ⟨⟩
    cases answer with
    | ok result => cases hterminal
    | error e => exact fun _ => ⟨_, List.mem_concat_self, rfl⟩
  | respond outcome hp _ | respondDetached outcome hp _ | acknowledged outcome _ hp _
  | acknowledgmentLost outcome hp _ | finish outcome _ hp | unlock outcome hp =>
    exact keep _ (by rw [hp]; rfl) rfl (by simp [hp]) (by simp)
  | receive outcome _ hp =>
    have hout := h'.phase
    rw [hp] at hout
    cases outcome with
    | returned answer => exact hear _ (hout answer rfl)
    | panicked => exact hear _ fun he => by cases he
  | receiveNothing _ _ => exact hear _ fun he => by cases he
  | acknowledge answer hc =>
    have hanswer := h'.caller
    rw [hc] at hanswer
    exact hear _ hanswer
  | cancel _ _ => exact hear _ trivial

/-- Any step of the registry, seen from one mutation. -/
theorem Justified.step {a : Action ι} (hm : s.tasks[i]? = some m)
    (hstep : Registry.step S s a = some s') (hs : s ∈ H)
    (h : Justified K H m) :
    ∃ m', s'.tasks[i]? = some m' ∧ m'.request = m.request ∧ Justified K (H ++ [s']) m' := by
  have unchanged : s'.tasks[i]? = some m →
      ∃ m', s'.tasks[i]? = some m' ∧ m'.request = m.request ∧ Justified K (H ++ [s']) m' :=
    fun hm' => ⟨m, hm', rfl, h.mono (List.sublist_append_left H [s'])⟩
  cases step_cases hstep with
  | accept request _ =>
    have hlt : i < s.tasks.length := (List.getElem?_eq_some_iff.mp hm).1
    exact unchanged ((List.getElem?_append_left hlt).trans hm)
  | task j n _ _ hn ht =>
    by_cases hij : i = j
    · subst hij
      obtain rfl := Option.some.inj (hm.symm.trans hn)
      exact h.task hm ht hs
    · exact unchanged ((handoff_of_ne hn ht hij).1.trans hm)
  | observer j o _ _ _ hobs => cases hobs <;> exact unchanged hm
  | refuse | enter | drain | drained => exact unchanged hm

end

/-- What a mutation has come to is justified by the states since it was admitted. -/
theorem justified_run (K : S.RecordContract) {i : ℕ} {request : Request}
    (hm : s.tasks[i]? = some ⟨request, .admitted, .waiting⟩) {as : List (Action ι)}
    {t : Registry σ} (h : run S s as = some t) :
    ∃ m, t.tasks[i]? = some m ∧ m.request = request ∧ Justified K (Transition.states (step S) s as) m := by
  refine Transition.run_history
    (P := fun bs u => ∃ m, u.tasks[i]? = some m ∧ m.request = request ∧
      Justified K (Transition.states (step S) s bs) m) ?_ ?_ h
  · exact ⟨_, hm, rfl, Phase.justified_of_outcome rfl (by simp), trivial⟩
  · rintro bs u a u' hu ⟨m, hu', rfl, hjust⟩ hstep
    rw [Transition.states_concat hu hstep]
    exact hjust.step hu' hstep (Transition.mem_states hu)

/-- What a mutation returns is backed by the states since it was admitted. -/
theorem backed_of_returned (K : S.RecordContract) {i : ℕ} {request : Request}
    (hm : s.tasks[i]? = some ⟨request, .admitted, .waiting⟩) {as : List (Action ι)}
    {t : Registry σ} (h : run S s as = some t) {m : Mutation} (ht : t.tasks[i]? = some m)
    {answer : MutationResult} (hc : m.caller = .returned answer) :
    Backed K (Transition.states (step S) s as) request answer := by
  obtain ⟨n, hn, rfl, hjust⟩ := justified_run K hm h
  obtain rfl := Option.some.inj (ht.symm.trans hn)
  have hcaller := hjust.caller
  rw [hc] at hcaller
  exact hcaller

end Registry

end ChpProxy
