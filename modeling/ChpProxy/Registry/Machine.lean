import ChpProxy.Lib.Transition
import ChpProxy.Registry.Tracker
import ChpProxy.RouteTable.Matcher

/-! `RouteRegistry` as a state machine. A step is one access to shared state: the tracker's lock,
the mutation mutex, the snapshot pointer, the backend, or one of the two oneshot channels between
a caller and the task that owns its mutation. Callers, tasks, observers and drains are unbounded
and interleave freely; the runtime itself does not terminate. -/
namespace ChpProxy

/-- The record change that publishes a committed call, with the record the backend returned. -/
def Call.edit : (c : Call) → c.Output → RouteEdit
  | .add key _ _, data => .replacePreservingActivity key data
  | .putPreservingActivity key _, data => .replacePreservingActivity key data
  | .updateActivity key at', () => .updateActivity key at'
  | .delete key, _ => .remove key

/-- What the caller gets back: only a deletion reports a record. -/
def Call.result : (c : Call) → c.Output → Option RouteData
  | .add .., _ => none
  | .putPreservingActivity .., _ => none
  | .updateActivity .., _ => none
  | .delete _, prior => prior

/-- An `Arc<RouteSnapshot>`: its allocation and its value. A held allocation is not reused, so
`Arc::ptr_eq` compares `id`. -/
structure Published where
  id : ℕ
  snapshot : RouteSnapshot

/-- The public mutators of `RouteRegistry`. -/
inductive Request where
  | add (key : RouteKey) (target : String) (extra : Map)
  | put (key : RouteKey) (data : RouteData)
  | updateActivity (key : RouteKey) (at' : DateTime)
  | persistObservedActivity (key : RouteKey) (at' : DateTime)
  | delete (key : RouteKey)
  deriving DecidableEq

namespace Request

def operation : Request → MutationOperation
  | .add .. => .add
  | .put .. => .put
  | .updateActivity .. | .persistObservedActivity .. => .updateActivity
  | .delete _ => .delete

/-- An observation is already published, so persisting it publishes nothing. -/
def publishes : Request → Bool
  | .persistObservedActivity .. => false
  | _ => true

end Request

abbrev MutationResult := Except StoreError (Option RouteData)

/-- How the supervised future of a mutation ended. -/
inductive Outcome where
  | returned (result : MutationResult)
  | panicked

namespace Outcome

def response (operation : MutationOperation) : Outcome → MutationResult
  | .returned result => result
  | .panicked => .error (.message operation.panicMessage)

/-- The outcomes that seal the registry for good. -/
def terminal : Outcome → Bool
  | .returned (.error e) => e.isIndeterminate
  | .returned (.ok _) => false
  | .panicked => true

def detachedFailure (operation : MutationOperation) (detached : Bool) :
    Outcome → Option DetachedMutationFailure
  | .returned (.error e) => if detached then some ⟨operation, e⟩ else none
  | _ => none

def detachedPanic (operation : MutationOperation) (detached : Bool) :
    Outcome → Option DetachedMutationPanic
  | .panicked => if detached then some ⟨operation, operation.panicMessage⟩ else none
  | _ => none

end Outcome

/-- Where the supervised future stands: before its first poll, inside the backend call, or in the
load/swap loop of `merge_and_publish`. -/
inductive Body where
  | start
  | calling (call : Call) (floors : List (Option DateTime))
  | merging (edit : RouteEdit) (result : Option RouteData)
  | swapping (edit : RouteEdit) (result : Option RouteData) (current : Published)

/-- The life of an admitted mutation and of the task that supervises it. -/
inductive Phase where
  | admitted
  | queued
  | locked
  | running (body : Body)
  | settled (result : MutationResult)
  | responding (outcome : Outcome)
  | awaiting (outcome : Outcome)
  | finishing (outcome : Outcome) (detached : Bool)
  | releasing (outcome : Outcome)
  | done (outcome : Outcome)
  | unspawned
  | abandoned

namespace Phase

/-- The phases between acquiring and dropping the mutation guard. -/
def holdsMutex : Phase → Bool
  | .locked | .running _ | .settled _ | .responding _ | .awaiting _ | .finishing .. |
    .releasing _ => true
  | .admitted | .queued | .done _ | .unspawned | .abandoned => false

/-- The result of the future, once it has one. -/
def outcome? : Phase → Option Outcome
  | .settled result => some (.returned result)
  | .responding outcome | .awaiting outcome | .finishing outcome _ | .releasing outcome |
    .done outcome => some outcome
  | .admitted | .queued | .locked | .running _ | .unspawned | .abandoned => none

end Phase

/-- The waiting side of `run_mutation`; it may be dropped while it awaits the response. -/
inductive Caller where
  | waiting
  | received (result : MutationResult)
  | returned (result : MutationResult)
  | cancelled

structure Mutation where
  request : Request
  phase : Phase
  caller : Caller

inductive ObserverPhase where
  | entered
  | loading
  | swapping (current : Published)
  | returned (updated : Bool)

structure Observer where
  key : RouteKey
  at' : DateTime
  phase : ObserverPhase

inductive Drain where
  | waiting
  | returned (outcome : MutationDrainOutcome)

structure Registry (σ : Type) where
  store : σ
  snapshot : Published
  allocated : ℕ
  mutation : Option ℕ
  mutations : MutationTracker
  tasks : List Mutation
  observers : List Observer
  drains : List Drain

/-- The steps of all parties. `exec` carries what decides the backend's answer. -/
inductive Action (ι : Type) where
  | begin (request : Request)
  | spawn (i : ℕ)
  | runtimeUnavailable (i : ℕ)
  | spawnPanics (i : ℕ)
  | lock (i : ℕ)
  | fence (i : ℕ)
  | poll (i : ℕ)
  | sampleFloor (i : ℕ)
  | exec (i : ℕ) (choice : ι)
  | load (i : ℕ)
  | swap (i : ℕ)
  | panic (i : ℕ)
  | conclude (i : ℕ)
  | respond (i : ℕ)
  | acknowledged (i : ℕ)
  | finish (i : ℕ)
  | unlock (i : ℕ)
  | receive (i : ℕ)
  | acknowledge (i : ℕ)
  | cancel (i : ℕ)
  | observe (key : RouteKey) (at' : DateTime)
  | checkObserver (j : ℕ)
  | loadObserver (j : ℕ)
  | swapObserver (j : ℕ)
  | drain
  | pollDrain (d : ℕ)
  | deadline (d : ℕ)

namespace Registry

variable {σ ι : Type}

/-- Load the complete persisted map before publication. -/
def load (S : Store σ ι) (choice : ι) (store : σ) : Except StoreError (Registry σ) :=
  match S.snapshot choice store with
  | .error e => .error e
  | .ok routes => .ok
    { store := store
      snapshot := ⟨0, .fromRoutes routes⟩
      allocated := 1
      mutation := none
      mutations := .default
      tasks := []
      observers := []
      drains := [] }

def routes (s : Registry σ) : OrderedRoutes := s.snapshot.snapshot.routes

/-! The readers test the seal in one state and load the snapshot in a later one. -/

def get (checked loaded : Registry σ) (key : RouteKey) : Option RouteData :=
  if checked.mutations.isIndeterminate then none else loaded.routes.byKey[key]?

def all (checked loaded : Registry σ) : RouteMap :=
  if checked.mutations.isIndeterminate then ∅ else loaded.routes.byKey

def resolve (checked loaded : Registry σ) (requestPath : String) : Option RouteMatch :=
  if checked.mutations.isIndeterminate then none else loaded.snapshot.snapshot.resolve requestPath

def setPhase (s : Registry σ) (i : ℕ) (phase : Phase) : Registry σ :=
  { s with tasks := s.tasks.modify i ({ · with phase := phase }) }

def setCaller (s : Registry σ) (i : ℕ) (caller : Caller) : Registry σ :=
  { s with tasks := s.tasks.modify i ({ · with caller := caller }) }

def setObserver (s : Registry σ) (j : ℕ) (phase : ObserverPhase) : Registry σ :=
  { s with observers := s.observers.modify j ({ · with phase := phase }) }

/-- A successful `compare_and_swap` installs the snapshot computed from `current`. -/
def publish (s : Registry σ) (current : Published) (edit : RouteEdit) : Registry σ :=
  { s with
    snapshot := ⟨s.allocated, current.snapshot.edited edit⟩
    allocated := s.allocated + 1 }

/-- A sealed registry answers the caller at once and keeps no trace of the request. -/
def begin (s : Registry σ) (request : Request) : Registry σ :=
  match s.mutations.begin with
  | .ok mutations =>
    { s with mutations := mutations, tasks := s.tasks ++ [⟨request, .admitted, .waiting⟩] }
  | .error _ => s

/-- The mutation body up to its backend call. Reading the registry tests the seal and loads the
snapshot in one step here: no other task can seal while this one holds the mutex. -/
def invoke (s : Registry σ) : Request → Phase
  | .add key target extra => .running (.calling (.add key target extra) [])
  | .put key data => .running (.calling (.putPreservingActivity key data) [])
  | .updateActivity key at' => .running (.calling (.updateActivity key at') [])
  | .persistObservedActivity key at' =>
    match s.get s key with
    | none => .settled (.ok none)
    | some current =>
      .running (.calling (.updateActivity key (max current.lastActivity at')) [])
  | .delete key => .running (.calling (.delete key) [])

/-- The mutation body after its backend call. -/
def afterCall (request : Request) (call : Call) : Except StoreError call.Output → Phase
  | .error e => .settled (.error e)
  | .ok out =>
    if request.publishes then .running (.merging (call.edit out) (call.result out))
    else .settled (.ok (call.result out))

/-- The dynamic floor closure handed to a replacement. -/
def activityFloor (s : Registry σ) (key : RouteKey) : Option DateTime :=
  (s.get s key).map (·.lastActivity)

/-- The supervising task of mutation `i`, in phase `m.phase`. -/
def stepTask (S : Store σ ι) (s : Registry σ) (i : ℕ) (m : Mutation) :
    Action ι → Option (Registry σ)
  | .spawn _ => match m.phase with
    | .admitted => some (s.setPhase i .queued)
    | _ => none
  | .runtimeUnavailable _ => match m.phase with
    | .admitted => some
      { (s.setPhase i .unspawned).setCaller i
          (.returned (.error (.message m.request.operation.noRuntimeMessage))) with
        mutations := s.mutations.finish none none }
    | _ => none
  | .spawnPanics _ => match m.phase with
    | .admitted => some
      { s.setPhase i .abandoned with
        mutations := s.mutations.finish none
          (some ⟨m.request.operation, m.request.operation.terminatedMessage⟩) }
    | _ => none
  | .lock _ => match m.phase, s.mutation with
    | .queued, none => some { s.setPhase i .locked with mutation := some i }
    | _, _ => none
  | .fence _ => match m.phase with
    | .locked => match s.mutations.rejectIfTerminallyFailed with
      | .ok () => some (s.setPhase i (.running .start))
      | .error e => some (s.setPhase i (.settled (.error e)))
    | _ => none
  | .poll _ => match m.phase with
    | .running .start => some (s.setPhase i (s.invoke m.request))
    | _ => none
  | .sampleFloor _ => match m.phase with
    | .running (.calling call floors) =>
      if call.samplesFloor then
        some (s.setPhase i (.running (.calling call (floors ++ [s.activityFloor call.key]))))
      else none
    | _ => none
  | .exec _ choice => match m.phase with
    | .running (.calling call floors) => match S.exec choice floors s.store call with
      | some (store, reply) =>
        some { s.setPhase i (afterCall m.request call reply) with store := store }
      | none => none
    | _ => none
  | .load _ => match m.phase with
    | .running (.merging edit result) =>
      some (s.setPhase i (.running (.swapping edit result s.snapshot)))
    | _ => none
  | .swap _ => match m.phase with
    | .running (.swapping edit result current) =>
      if s.snapshot.id = current.id then
        some ((s.publish current edit).setPhase i (.settled (.ok result)))
      else some (s.setPhase i (.running (.merging edit result)))
    | _ => none
  | .panic _ => match m.phase with
    | .running _ => some
      { s.setPhase i (.responding .panicked) with mutations := s.mutations.panicSeal }
    | _ => none
  | .conclude _ => match m.phase with
    | .settled result => some
      { s.setPhase i (.responding (.returned result)) with
        mutations :=
          if (Outcome.returned result).terminal then s.mutations.indeterminateSeal
          else s.mutations }
    | _ => none
  | .respond _ => match m.phase, m.caller with
    | .responding outcome, .waiting => some (s.setPhase i (.awaiting outcome))
    | .responding outcome, .cancelled => some (s.setPhase i (.finishing outcome true))
    | _, _ => none
  | .acknowledged _ => match m.phase, m.caller with
    | .awaiting outcome, .returned _ => some (s.setPhase i (.finishing outcome false))
    | .awaiting outcome, .cancelled => some (s.setPhase i (.finishing outcome true))
    | _, _ => none
  | .finish _ => match m.phase with
    | .finishing outcome detached => some
      { s.setPhase i (.releasing outcome) with
        mutations := s.mutations.finish
          (outcome.detachedFailure m.request.operation detached)
          (outcome.detachedPanic m.request.operation detached) }
    | _ => none
  | .unlock _ => match m.phase with
    | .releasing outcome => some { s.setPhase i (.done outcome) with mutation := none }
    | _ => none
  | .receive _ => match m.caller, m.phase with
    | .waiting, .awaiting outcome =>
      some (s.setCaller i (.received (outcome.response m.request.operation)))
    | .waiting, .abandoned => some (s.setCaller i
        (.returned (.error (.message m.request.operation.noResultMessage))))
    | _, _ => none
  | .acknowledge _ => match m.caller with
    | .received result => some (s.setCaller i (.returned result))
    | _ => none
  | .cancel _ => match m.caller, m.phase with
    | .waiting, .admitted => none
    | .waiting, _ => some (s.setCaller i .cancelled)
    | _, _ => none
  | _ => none

/-- Call `j` of `observe_activity`: the seal test, then load and swap until the swap succeeds. -/
def stepObserver (s : Registry σ) (j : ℕ) (o : Observer) : Action ι → Option (Registry σ)
  | .checkObserver _ => match o.phase with
    | .entered =>
      if s.mutations.isIndeterminate then some (s.setObserver j (.returned false))
      else some (s.setObserver j .loading)
    | _ => none
  | .loadObserver _ => match o.phase with
    | .loading => match s.routes.byKey[o.key]? with
      | none => some (s.setObserver j (.returned false))
      | some existing =>
        if o.at' ≤ existing.lastActivity then some (s.setObserver j (.returned false))
        else some (s.setObserver j (.swapping s.snapshot))
    | _ => none
  | .swapObserver _ => match o.phase with
    | .swapping current =>
      if s.snapshot.id = current.id then
        some ((s.publish current (.updateActivity o.key o.at')).setObserver j (.returned true))
      else some (s.setObserver j .loading)
    | _ => none
  | _ => none

def drain (s : Registry σ) : Registry σ :=
  match s.mutations.shutdownSeal.pollDrain with
  | some (outcome, mutations) =>
    { s with mutations := mutations, drains := s.drains ++ [.returned outcome] }
  | none => { s with mutations := s.mutations.shutdownSeal, drains := s.drains ++ [.waiting] }

def stepDrain (s : Registry σ) (d : ℕ) : Action ι → Option (Registry σ)
  | .pollDrain _ => match s.drains[d]?, s.mutations.pollDrain with
    | some .waiting, some (outcome, mutations) =>
      some { s with mutations := mutations, drains := s.drains.set d (.returned outcome) }
    | _, _ => none
  | .deadline _ => match s.drains[d]? with
    | some .waiting => some
      { s with
        mutations := s.mutations.deadline.2
        drains := s.drains.set d (.returned s.mutations.deadline.1) }
    | _ => none
  | _ => none

def step (S : Store σ ι) (s : Registry σ) (a : Action ι) : Option (Registry σ) :=
  match a with
  | .begin request => some (s.begin request)
  | .observe key at' => some { s with observers := s.observers ++ [⟨key, at', .entered⟩] }
  | .drain => some s.drain
  | .checkObserver j | .loadObserver j | .swapObserver j =>
    (s.observers[j]?).bind (s.stepObserver j · a)
  | .pollDrain d | .deadline d => s.stepDrain d a
  | .spawn i | .runtimeUnavailable i | .spawnPanics i | .lock i | .fence i | .poll i |
    .sampleFloor i | .exec i _ | .load i | .swap i | .panic i | .conclude i | .respond i |
    .acknowledged i | .finish i | .unlock i | .receive i | .acknowledge i | .cancel i =>
    (s.tasks[i]?).bind (s.stepTask S i · a)

abbrev run (S : Store σ ι) : Registry σ → List (Action ι) → Option (Registry σ) :=
  Transition.run (step S)

end Registry

end ChpProxy
