import ChpProxy.Registry.Sealing

/-! The registry as a single-writer replica. One writer at a time takes the backend through a
call and the published routes through the matching edit, while observers raise timestamps. Every
step of the machine is a step of this replica until a mutation fails. -/
namespace ChpProxy

/-- Whose swap installed a snapshot. -/
inductive Author where
  | task (i : ℕ)
  | observer (j : ℕ)
  deriving DecidableEq

/-- What a step does to the backend or to the published routes. -/
inductive Event where
  | invoked (request : Request) (call : Call)
  | committed (request : Request) (call : Call)
  | published (author : Author) (edit : RouteEdit)
  deriving DecidableEq

/-- The event takes a route out of the published snapshot. -/
def Event.deletes (key : RouteKey) : Event → Bool
  | .published _ (.remove k) => k = key
  | _ => false

namespace Registry

variable {σ ι : Type}

def events (S : Store σ ι) (s : Registry σ) : Action ι → List Event
  | .poll i => match s.tasks[i]? with
    | some ⟨request, .running .start, _⟩ => match s.invoke request with
      | .running (.calling call _) => [.invoked request call]
      | _ => []
    | _ => []
  | .exec i choice => match s.tasks[i]? with
    | some ⟨request, .running (.calling call floors), _⟩ =>
      match S.exec choice floors s.store call with
      | some (_, .ok _) => [.committed request call]
      | _ => []
    | _ => []
  | .swap i => match s.tasks[i]? with
    | some ⟨_, .running (.swapping edit _ current), _⟩ =>
      if s.snapshot.id = current.id then [.published (.task i) edit] else []
    | _ => []
  | .swapObserver j => match s.observers[j]? with
    | some ⟨key, at', .swapping current⟩ =>
      if s.snapshot.id = current.id then [.published (.observer j) (.updateActivity key at')]
      else []
    | _ => []
  | _ => []

end Registry

inductive Activity where
  | idle
  | calling (request : Request) (call : Call) (floors : List (Option DateTime))
  | publishing (edit : RouteEdit)

/-- The edit that is committed but not yet published. -/
def Activity.pending : Activity → Option RouteEdit
  | .publishing edit => some edit
  | _ => none

def Phase.activity (request : Request) : Phase → Activity
  | .running (.calling call floors) => .calling request call floors
  | .running (.merging edit _) | .running (.swapping edit _ _) => .publishing edit
  | _ => .idle

/-- The replica: backend, published routes and the writer. -/
structure Core (σ : Type) where
  store : σ
  routes : OrderedRoutes
  activity : Activity

namespace Core

variable {σ ι : Type}

/-- The routes once the pending edit is published. -/
def settledRoutes (c : Core σ) : OrderedRoutes :=
  c.activity.pending.elim c.routes (·.apply c.routes)

end Core

/-- The backend call a request makes when `stamp` is the published timestamp of its route. -/
def Request.call? (stamp : Option DateTime) : Request → Option Call
  | .add key target extra => some (.add key target extra)
  | .put key data => some (.putPreservingActivity key data)
  | .updateActivity key at' => some (.updateActivity key at')
  | .persistObservedActivity key at' => stamp.map fun current => .updateActivity key (max current at')
  | .delete key => some (.delete key)

def Request.key : Request → RouteKey
  | .add key _ _ | .put key _ | .updateActivity key _ | .persistObservedActivity key _ |
    .delete key => key

namespace Core

variable {σ ι : Type}

/-- The steps of the replica. -/
inductive Step (S : Store σ ι) : Core σ → List Event → Core σ → Prop
  | silent (c : Core σ) : Step S c [] c
  | invoke (c : Core σ) (request : Request) (call : Call) (hidle : c.activity = .idle)
      (hcall : request.call? (stamp c.routes.byKey request.key) = some call) :
      Step S c [.invoked request call] { c with activity := .calling request call [] }
  | sample (c : Core σ) (request : Request) (call : Call) (floors : List (Option DateTime))
      (hcall : c.activity = .calling request call floors) (hfloor : call.samplesFloor = true) :
      Step S c [] { c with activity := .calling request call (floors ++ [stamp c.routes.byKey call.key]) }
  | commit (c : Core σ) (request : Request) (call : Call) (floors : List (Option DateTime))
      (choice : ι) (store : σ) (out : call.Output)
      (hcall : c.activity = .calling request call floors)
      (hexec : S.exec choice floors c.store call = some (store, .ok out)) :
      Step S c [.committed request call]
        ⟨store, c.routes, if request.publishes then .publishing (call.edit out) else .idle⟩
  | reject (c : Core σ) (request : Request) (call : Call) (floors : List (Option DateTime))
      (choice : ι) (store : σ) (e : StoreError)
      (hcall : c.activity = .calling request call floors)
      (hexec : S.exec choice floors c.store call = some (store, .error e))
      (hord : e.isIndeterminate = false) : Step S c [] ⟨store, c.routes, .idle⟩
  | publish (c : Core σ) (i : ℕ) (edit : RouteEdit) (hpub : c.activity = .publishing edit) :
      Step S c [.published (.task i) edit] ⟨c.store, edit.apply c.routes, .idle⟩
  | observe (c : Core σ) (j : ℕ) (key : RouteKey) (at' : DateTime) :
      Step S c [.published (.observer j) (.updateActivity key at')]
        { c with routes := c.routes.updateActivity key at' }

end Core

namespace Registry

variable {σ ι : Type} {S : Store σ ι} {s s' : Registry σ}

def activity (s : Registry σ) : Activity :=
  (s.mutation.bind (s.tasks[·]?)).elim .idle fun m => m.phase.activity m.request

/-- The replica that a registry implements. -/
def core (s : Registry σ) : Core σ := ⟨s.store, s.routes, s.activity⟩

theorem getElem?_setPhase {i : ℕ} {m : Mutation} (hm : s.tasks[i]? = some m) (p : Phase) (j : ℕ) :
    (s.setPhase i p).tasks[j]? = if j = i then some { m with phase := p } else s.tasks[j]? := by
  by_cases h : j = i
  · subst h
    simp [setPhase, hm]
  · have h' : ¬i = j := fun e => h e.symm
    simp [setPhase, h, h']

theorem getElem?_setCaller {i : ℕ} {m : Mutation} (hm : s.tasks[i]? = some m) (c : Caller)
    (j : ℕ) :
    (s.setCaller i c).tasks[j]? = if j = i then some { m with caller := c } else s.tasks[j]? := by
  by_cases h : j = i
  · subst h
    simp [setCaller, hm]
  · have h' : ¬i = j := fun e => h e.symm
    simp [setCaller, h, h']

theorem activity_of_holder (h : MutexInv s) {i : ℕ} {m : Mutation} (hm : s.tasks[i]? = some m)
    (hh : m.phase.holdsMutex = true) : s.activity = m.phase.activity m.request := by
  have hi := h.holder i _ (phase?_eq hm) hh
  simp [activity, hi, hm]

theorem activity_setPhase (h : MutexInv s) {i : ℕ} {m : Mutation} (hm : s.tasks[i]? = some m)
    (hh : m.phase.holdsMutex = true) (p : Phase) (ht : s'.tasks = (s.setPhase i p).tasks)
    (hmut : s'.mutation = s.mutation) : s'.activity = p.activity m.request := by
  have hi := h.holder i _ (phase?_eq hm) hh
  have hp := getElem?_setPhase hm p i
  rw [if_pos rfl, ← ht] at hp
  simp [activity, hmut, hi, hp]

theorem activity_setPhase_same {i : ℕ} {m : Mutation} (hm : s.tasks[i]? = some m) (p : Phase)
    (hp : p.activity m.request = m.phase.activity m.request)
    (ht : s'.tasks = (s.setPhase i p).tasks) (hmut : s'.mutation = s.mutation) :
    s'.activity = s.activity := by
  unfold activity
  rw [hmut, ht]
  cases hmu : s.mutation with
  | none => rfl
  | some j =>
    change ((s.setPhase i p).tasks[j]?).elim _ _ = (s.tasks[j]?).elim _ _
    rw [getElem?_setPhase hm]
    by_cases hj : j = i
    · rw [if_pos hj, hj, hm]
      exact hp
    · rw [if_neg hj]

theorem activity_setCaller (i : ℕ) (c : Caller) : (s.setCaller i c).activity = s.activity := by
  unfold activity
  change (s.mutation.bind _).elim _ _ = _
  cases hmu : s.mutation with
  | none => rfl
  | some j =>
    change ((s.setCaller i c).tasks[j]?).elim _ _ = (s.tasks[j]?).elim _ _
    by_cases hj : i = j
    · subst hj
      cases hm : s.tasks[i]? <;> simp [setCaller, hm]
    · simp [setCaller, hj]

/-- While its registry is not sealed for good, a request makes the call its published timestamp
asks for. -/
theorem invoke_eq (h : s.mutations.sealState.terminal = false) (request : Request) :
    s.invoke request = (request.call? (stamp s.routes.byKey request.key)).elim (.settled (.ok none))
      fun call => .running (.calling call []) := by
  have hi := MutationTracker.isIndeterminate_of_nonterminal h
  cases request with
  | persistObservedActivity key at' =>
    simp only [invoke, get, hi, Request.call?, Request.key, stamp]
    cases s.routes.byKey[key]? <;> rfl
  | _ => rfl

theorem activityFloor_eq (h : s.mutations.sealState.terminal = false) (key : RouteKey) :
    s.activityFloor key = stamp s.routes.byKey key := by
  have hi := MutationTracker.isIndeterminate_of_nonterminal h
  simp [activityFloor, get, hi, stamp]

theorem core_eq {store : σ} {routes : OrderedRoutes} {act : Activity} (hst : s.store = store)
    (hro : s.routes = routes) (hac : s.activity = act) : s.core = ⟨store, routes, act⟩ := by
  rw [core, hst, hro, hac]

theorem core_silent (hst : s'.store = s.store) (hsn : s'.snapshot = s.snapshot)
    (hac : s'.activity = s.activity) : Core.Step S s.core [] s'.core := by
  have hcore : s'.core = s.core := core_eq hst (congrArg (·.snapshot.routes) hsn) hac
  rw [hcore]
  exact .silent _

section task

variable {i : ℕ} {m : Mutation}

theorem core_poll (h : Inv s) (hm : s.tasks[i]? = some m) (hp : m.phase = .running .start) :
    Core.Step S s.core (events S s (.poll i)) (s.setPhase i (s.invoke m.request)).core := by
  obtain ⟨request, phase, caller⟩ := m
  cases hp
  have hopen := h.sealing.live i _ (phase?_eq hm) rfl
  have hact := activity_of_holder h.mutex hm rfl
  rw [invoke_eq hopen]
  cases hcall : request.call? (stamp s.routes.byKey request.key) with
  | none =>
    have hev : events S s (.poll i : Action ι) = [] := by
      simp [events, hm, invoke_eq hopen, hcall]
    have hsame : (s.setPhase i (.settled (.ok none))).activity = s.activity :=
      activity_setPhase_same hm (.settled (.ok none)) rfl rfl rfl
    rw [hev]
    exact core_silent rfl rfl hsame
  | some call =>
    have hev : events S s (.poll i : Action ι) = [.invoked request call] := by
      simp [events, hm, invoke_eq hopen, hcall]
    have hcalling : (s.setPhase i (.running (.calling call []))).activity =
        .calling request call [] := activity_setPhase h.mutex hm rfl _ rfl rfl
    have hcore : (s.setPhase i (.running (.calling call []))).core =
        { s.core with activity := .calling request call [] } := core_eq rfl rfl hcalling
    rw [hev]
    exact hcore ▸ .invoke _ request call hact hcall

theorem core_sampleFloor (h : Inv s) (hm : s.tasks[i]? = some m) {call : Call}
    {floors : List (Option DateTime)} (hp : m.phase = .running (.calling call floors))
    (hf : call.samplesFloor = true) :
    Core.Step S s.core []
      (s.setPhase i (.running (.calling call (floors ++ [s.activityFloor call.key])))).core := by
  obtain ⟨request, phase, caller⟩ := m
  cases hp
  have hopen := h.sealing.live i _ (phase?_eq hm) rfl
  have hact : s.core.activity = .calling request call floors := activity_of_holder h.mutex hm rfl
  rw [activityFloor_eq hopen]
  have hcalling : (s.setPhase i (.running
      (.calling call (floors ++ [stamp s.routes.byKey call.key])))).activity =
        .calling request call (floors ++ [stamp s.routes.byKey call.key]) :=
    activity_setPhase h.mutex hm rfl _ rfl rfl
  have hcore := core_eq (rfl : (s.setPhase i _).store = s.store) rfl hcalling
  rw [hcore]
  exact .sample s.core request call floors hact hf

theorem activity_afterCall (request : Request) (call : Call) (out : call.Output) :
    (afterCall request call (.ok out)).activity request =
      if request.publishes then .publishing (call.edit out) else .idle := by
  simp only [afterCall]
  split_ifs <;> rfl

theorem core_exec (h : Inv s) (hm : s.tasks[i]? = some m) {call : Call}
    {floors : List (Option DateTime)} {choice : ι} {store : σ}
    {reply : Except StoreError call.Output} (hp : m.phase = .running (.calling call floors))
    (hs : S.exec choice floors s.store call = some (store, reply))
    (hok : (afterCall m.request call reply).failed = false) :
    Core.Step S s.core (events S s (.exec i choice))
      (core { s.setPhase i (afterCall m.request call reply) with store := store }) := by
  obtain ⟨request, phase, caller⟩ := m
  cases hp
  have hact : s.core.activity = .calling request call floors := activity_of_holder h.mutex hm rfl
  have hafter : (core { s.setPhase i (afterCall request call reply) with store := store }) =
      ⟨store, s.routes, (afterCall request call reply).activity request⟩ :=
    core_eq rfl rfl (activity_setPhase h.mutex hm rfl _ rfl rfl)
  cases reply with
  | ok out =>
    have hev : events S s (.exec i choice) = [.committed request call] := by
      simp [events, hm, hs]
    rw [hev, hafter, activity_afterCall]
    exact .commit s.core request call floors choice store out hact hs
  | error e =>
    have hev : events S s (.exec i choice) = [] := by simp [events, hm, hs]
    rw [hev, hafter]
    exact .reject s.core request call floors choice store e hact hs hok

theorem core_swap (h : Inv s) (hm : s.tasks[i]? = some m) {edit : RouteEdit}
    {result : Option RouteData} {current : Published}
    (hp : m.phase = .running (.swapping edit result current)) (hid : s.snapshot.id = current.id) :
    Core.Step S s.core (events S s (.swap i))
      ((s.publish current edit).setPhase i (.settled (.ok result))).core := by
  obtain ⟨request, phase, caller⟩ := m
  cases hp
  have hact : s.core.activity = .publishing edit := activity_of_holder h.mutex hm rfl
  have hcur : current = s.snapshot :=
    h.snapshot.held_eq current (.inl ⟨i, edit, result, phase?_eq hm⟩) hid
  subst hcur
  have hidle : ((s.publish s.snapshot edit).setPhase i (.settled (.ok result))).activity = .idle :=
    activity_setPhase h.mutex hm rfl (.settled (.ok result)) rfl rfl
  have hcore : ((s.publish s.snapshot edit).setPhase i (.settled (.ok result))).core =
      ⟨s.store, edit.apply s.routes, .idle⟩ := core_eq rfl rfl hidle
  have hev : events S s (.swap i : Action ι) = [.published (.task i) edit] := by
    simp [events, hm]
  rw [hev, hcore]
  exact .publish s.core i edit hact

end task

theorem core_task (h : Inv s) {i : ℕ} {m : Mutation} {a : Action ι} (hm : s.tasks[i]? = some m)
    (ht : TaskStep S s i m a s') (hok : ¬Failed s') :
    Core.Step S s.core (events S s a) s'.core := by
  cases ht with
  | poll hp => exact core_poll h hm hp
  | sampleFloor call floors hp hf => exact core_sampleFloor h hm hp hf
  | exec call floors choice store reply hp hs =>
    refine core_exec h hm hp hs ?_
    rw [← Bool.not_eq_true]
    intro hf
    exact hok ⟨i, _, (moves_setPhase hm _ rfl).self, hf⟩
  | swap edit result current hp hid => exact core_swap h hm hp hid
  | retry edit result current hp hid =>
    obtain ⟨request, phase, caller⟩ := m
    cases hp
    have hev : events S s (.swap i : Action ι) = [] := by simp [events, hm, hid]
    rw [hev]
    exact core_silent rfl rfl
      (activity_setPhase_same hm (.running (.merging edit result)) rfl rfl rfl)
  | panic body hp => exact absurd ⟨i, _, (moves_setPhase hm _ rfl).self, rfl⟩ hok
  | lock hp hfree =>
    have hidle : s.activity = .idle := by simp [activity, hfree]
    have hlocked : activity { s.setPhase i .locked with mutation := some i } = .idle := by
      simp [activity, setPhase, hm, Phase.activity]
    exact core_silent rfl rfl (hlocked.trans hidle.symm)
  | unlock outcome hp =>
    have hidle : s.activity = .idle := by
      rw [activity_of_holder h.mutex hm (by rw [hp]; rfl), hp]
      rfl
    exact core_silent rfl rfl hidle.symm
  | runtimeUnavailable hp =>
    have hsame : (s.setPhase i .unspawned).activity = s.activity :=
      activity_setPhase_same hm .unspawned (by rw [hp]; rfl) rfl rfl
    exact core_silent rfl rfl ((activity_setCaller i _).trans hsame)
  | receive _ _ _ | receiveNothing _ _ | acknowledge _ _ | cancel _ _ =>
    exact core_silent rfl rfl (activity_setCaller i _)
  | spawn hp | spawnPanics hp | pass hp _ | reject _ hp _ _ | load _ _ hp | conclude _ hp _
  | concludeIndeterminate _ hp _ | respond _ hp _ | respondDetached _ hp _ | acknowledged _ _ hp _
  | acknowledgmentLost _ hp _ | finish _ _ hp =>
    exact core_silent rfl rfl (activity_setPhase_same hm _ (by rw [hp]; rfl) rfl rfl)

theorem core_observer (h : Inv s) {j : ℕ} {o : Observer} {a : Action ι}
    (ho : s.observers[j]? = some o) (hobs : ObserverStep s j o a s') :
    Core.Step S s.core (events S s a) s'.core := by
  obtain ⟨key, at', phase⟩ := o
  cases hobs with
  | swap current hp hid =>
    cases hp
    obtain rfl := h.snapshot.held_eq current (.inr ⟨j, _, ho, rfl⟩) hid
    have hev : events S s (.swapObserver j : Action ι) =
        [.published (.observer j) (.updateActivity key at')] := by simp [events, ho]
    rw [hev]
    exact .observe s.core j key at'
  | retry current hp hid =>
    cases hp
    have hev : events S s (.swapObserver j : Action ι) = [] := by simp [events, ho, hid]
    rw [hev]
    exact .silent s.core
  | _ => exact .silent s.core

/-- Until a mutation fails, every step of the registry is a step of the replica. -/
theorem core_step (h : Inv s) {a : Action ι} (hs : step S s a = some s') (hok : ¬Failed s') :
    Core.Step S s.core (events S s a) s'.core := by
  cases step_cases hs with
  | accept request hopen =>
    have hact : activity { s with
        mutations := { s.mutations with active := saturatingAdd s.mutations.active 1 }
        tasks := s.tasks ++ [⟨request, .admitted, .waiting⟩] } = s.activity := by
      unfold activity
      cases hmu : s.mutation with
      | none => rfl
      | some i =>
        obtain ⟨p, hp, -⟩ := h.mutex.held i hmu
        obtain ⟨m, hm, -⟩ := Option.map_eq_some_iff.mp hp
        have hlt : i < s.tasks.length := (List.getElem?_eq_some_iff.mp hm).1
        simp [List.getElem?_append_left hlt]
    exact core_silent rfl rfl hact
  | refuse _ _ | enter _ _ | drain _ _ _ _ => exact .silent s.core
  | task i m a s' hm ht => exact core_task h hm ht hok
  | observer j o a s' ho hobs => exact core_observer h ho hobs
  | drained a _ _ ha _ _ =>
    rcases ha with ⟨d, rfl⟩ | ⟨d, rfl⟩ <;> exact .silent s.core

end Registry

end ChpProxy
