import ChpProxy.Registry.Health

/-! What the registry does for an accepted observation. A persistence mutation that is admitted
reaches the store with at least the observed timestamp, and nothing but a deletion or an older
activity update takes it out again. -/
namespace ChpProxy

/-- The event deletes the route, or stores a timestamp older than `at'` for it. -/
def Event.undoes (key : RouteKey) (at' : DateTime) : Event → Bool
  | .committed (.updateActivity k v) _ => k = key && v < at'
  | .committed (.delete k) _ | .published _ (.remove k) => k = key
  | _ => false

namespace Registry

variable {σ ι : Type}

def undoes (S : Store σ ι) (key : RouteKey) (at' : DateTime) (s : Registry σ) (a : Action ι) :
    Bool := (events S s a).any (·.undoes key at')

end Registry

namespace Core

variable {σ ι : Type} {S : Store σ ι}

def Shows (key : RouteKey) (at' : DateTime) (c : Core σ) : Prop :=
  ∃ y, stamp c.routes.byKey key = some y ∧ at' ≤ y

/-- The store holds a timestamp of at least `at'`, and the call in progress will not lower it. -/
structure Stored (K : S.ActivityContract) (key : RouteKey) (at' : DateTime) (c : Core σ) : Prop where
  stored : ∃ x, stamp (K.contents c.store) key = some x ∧ at' ≤ x
  floors : ∀ request call floors, c.activity = .calling request call floors → call.key = key →
    ∀ f ∈ floors, ∃ x, f = some x ∧ at' ≤ x
  persisting : ∀ k a v floors,
    c.activity = .calling (.persistObservedActivity k a) (.updateActivity key v) floors → at' ≤ v

namespace Stored

variable {K : S.ActivityContract} {key : RouteKey} {at' : DateTime} {c : Core σ}

theorem of_stored {store : σ} {routes : OrderedRoutes} {act : Activity}
    (h : ∃ x, stamp (K.contents store) key = some x ∧ at' ≤ x)
    (hcalm : ∀ request call floors, act ≠ .calling request call floors) :
    Stored K key at' ⟨store, routes, act⟩ where
  stored := h
  floors _ _ _ he := absurd he (hcalm _ _ _)
  persisting _ _ _ _ he := absurd he (hcalm _ _ _)

theorem of_floors {floors : List (Option DateTime)} {la : DateTime}
    (hfloors : ∀ f ∈ floors, ∃ x, f = some x ∧ at' ≤ x)
    (hbound : floors ≠ [] ∧ ∀ floor ∈ floors, ∀ a, floor = some a → a ≤ la) : at' ≤ la := by
  obtain ⟨f, rest, rfl⟩ := List.exists_cons_of_ne_nil hbound.1
  obtain ⟨x, hx, hle⟩ := hfloors f (by simp)
  exact le_trans hle (hbound.2 f (by simp) x hx)

theorem stamp_of_insert {contents contents' : RouteMap} {k : RouteKey} {data : RouteData}
    (h : ∃ x, stamp contents key = some x ∧ at' ≤ x) (hins : contents' = contents.insert k data)
    (hdata : k = key → at' ≤ data.lastActivity) : ∃ x, stamp contents' key = some x ∧ at' ≤ x := by
  rw [hins, OrderedRoutes.stamp_insert]
  by_cases hk : k = key
  · rw [if_pos hk]
    exact ⟨_, rfl, hdata hk⟩
  · rw [if_neg hk]
    exact h

/-- A call that does not undo the observation leaves the store with a late enough timestamp. -/
theorem commit (h : c.Stored K key at') {request : Request} {call : Call} {cur : Option DateTime}
    {floors : List (Option DateTime)} {choice : ι} {store : σ} {out : call.Output}
    (hact : c.activity = .calling request call floors) (hcall : request.call? cur = some call)
    (hexec : S.exec choice floors c.store call = some (store, .ok out))
    (hundo : (Event.committed request call).undoes key at' = false) :
    ∃ x, stamp (K.contents store) key = some x ∧ at' ≤ x := by
  obtain ⟨x, hx, hle⟩ := h.stored
  cases call with
  | add k target extra =>
    exact stamp_of_insert ⟨x, hx, hle⟩ (K.add_ok hexec)
      fun hk => of_floors (h.floors _ _ _ hact hk) (K.add_floor hexec)
  | putPreservingActivity k data =>
    exact stamp_of_insert ⟨x, hx, hle⟩ (K.put_ok hexec)
      fun hk => of_floors (h.floors _ _ _ hact hk) (K.put_floor hexec)
  | updateActivity k v =>
    by_cases hk : k = key
    · subst hk
      have hv : at' ≤ v := by
        cases request with
        | updateActivity k' v' =>
          obtain ⟨rfl, rfl⟩ : k' = k ∧ v' = v := by simpa [Request.call?] using hcall
          simpa [Event.undoes] using hundo
        | persistObservedActivity k' a => exact h.persisting k' a v floors hact
        | add _ _ _ => cases hcall
        | put _ _ => cases hcall
        | delete _ => cases hcall
      obtain ⟨d, hd, -⟩ := Option.map_eq_some_iff.mp hx
      refine ⟨v, ?_, hv⟩
      rw [stamp, K.update_assigns hexec, hd]
      rfl
    · refine ⟨x, ?_, hle⟩
      rw [stamp, (K.update_ok hexec key).2 fun e => hk e.symm]
      exact hx
  | delete k =>
    have hk : ¬k = key := by
      cases request with
      | delete k' =>
        obtain rfl : k' = k := by simpa [Request.call?] using hcall
        simpa [Event.undoes] using hundo
      | persistObservedActivity k' a =>
        obtain ⟨_, -, he⟩ := Option.map_eq_some_iff.mp hcall
        cases he
      | add _ _ _ => cases hcall
      | put _ _ => cases hcall
      | updateActivity _ _ => cases hcall
    rw [K.delete_ok hexec, OrderedRoutes.stamp_erase, if_neg hk]
    exact ⟨x, hx, hle⟩

end Stored

theorem stored_step (K : S.ActivityContract) {key : RouteKey} {at' : DateTime} {c c' : Core σ}
    {events : List Event} (hk : c.Agrees K.toContract) (hshow : c.Shows key at')
    (h : c.Stored K key at') (hs : Step S c events c')
    (hundo : ∀ event ∈ events, event.undoes key at' = false) : c'.Stored K key at' := by
  obtain ⟨y, hy, hle⟩ := hshow
  cases hs with
  | silent => exact h
  | invoke request call hidle hcall =>
    refine ⟨h.stored, fun r cl f he _ g hg => ?_, fun k a v f he => ?_⟩
    · cases he
      cases hg
    · cases he
      obtain ⟨cur, hcur, he⟩ := Option.map_eq_some_iff.mp hcall
      obtain ⟨rfl, rfl⟩ : k = key ∧ max cur a = v := by simpa using he
      obtain rfl := Option.some.inj (hcur.symm.trans hy)
      exact le_trans hle (le_max_left _ _)
  | sample request call floors hact hfloor =>
    refine ⟨h.stored, fun r cl f he hkey g hg => ?_, fun k a v f he => ?_⟩
    · cases he
      rcases List.mem_append.mp hg with hg | hg
      · exact h.floors request call floors hact hkey g hg
      · rw [List.mem_singleton.mp hg, hkey]
        exact ⟨y, hy, hle⟩
    · cases he
      exact h.persisting k a v floors hact
  | commit request call floors choice store out hact hexec =>
    obtain ⟨cur, hcall⟩ := hk.caller request call floors hact
    refine .of_stored (h.commit hact hcall hexec (hundo _ (by simp))) fun r cl f => ?_
    split_ifs <;> simp
  | reject request call floors choice store e hact hexec hord =>
    refine .of_stored ?_ (by simp)
    rw [K.error_unchanged hexec hord]
    exact h.stored
  | publish i edit hact => exact .of_stored h.stored (by simp)
  | observe j k a => exact ⟨h.stored, h.floors, h.persisting⟩

end Core

namespace Phase

/-- A persistence mutation that has not reached the store, or is calling it with a timestamp of at
least `at'`. -/
def Uncommitted (key : RouteKey) (at' : DateTime) : Phase → Prop
  | .admitted | .queued | .locked | .running .start => True
  | .running (.calling (.updateActivity k v) _) => k = key ∧ at' ≤ v
  | _ => False

theorem not_answered_of_uncommitted {key : RouteKey} {at' : DateTime} {p : Phase}
    (h : p.Uncommitted key at') : p.answered = false := by
  cases p with
  | admitted | queued | locked | running _ => rfl
  | _ => exact h.elim

end Phase

namespace Registry

variable {σ ι : Type} {S : Store σ ι} {s s' : Registry σ} {K : S.ActivityContract}
  {key : RouteKey} {at' : DateTime}

theorem undoes_eq_false {a : Action ι} (h : undoes S key at' s a = false) :
    ∀ event ∈ events S s a, event.undoes key at' = false := by
  simpa [undoes] using h

theorem shows_step (h : Healthy K s) (hshow : s.core.Shows key at') {a : Action ι}
    (hs : step S s a = some s') (hundo : undoes S key at' s a = false) :
    s'.core.Shows key at' := by
  obtain ⟨y, hy, hle⟩ := hshow
  obtain ⟨d, hd, rfl⟩ := Option.map_eq_some_iff.mp hy
  have hkept : ∀ author, Event.published author (.remove key) ∉ events S s a := by
    intro author hmem
    simpa [Event.undoes] using undoes_eq_false hundo _ hmem
  obtain ⟨d', hd', hle'⟩ := lastActivity_le_step h.inv h.edits hs hd hkept
  exact ⟨d'.lastActivity, by simp [stamp, core, hd'], le_trans hle hle'⟩

def Persisting (key : RouteKey) (at' : DateTime) (i : ℕ) (s : Registry σ) : Prop :=
  ∃ m a, s.tasks[i]? = some m ∧ m.request = .persistObservedActivity key a ∧ at' ≤ a ∧
    m.phase.Uncommitted key at'

theorem getElem?_task_of_ne {i j : ℕ} {m : Mutation} {a : Action ι} (hm : s.tasks[j]? = some m)
    (ht : TaskStep S s j m a s') (hij : i ≠ j) : s'.tasks[i]? = s.tasks[i]? := by
  have hset : ∀ p, (s.setPhase j p).tasks[i]? = s.tasks[i]? := fun p => by
    rw [getElem?_setPhase hm, if_neg hij]
  have hcall : ∀ c, (s.setCaller j c).tasks[i]? = s.tasks[i]? := fun c => by
    rw [getElem?_setCaller hm, if_neg hij]
  cases ht with
  | runtimeUnavailable hp =>
    have hm' : (s.setPhase j .unspawned).tasks[j]? = some { m with phase := .unspawned } := by
      rw [getElem?_setPhase hm, if_pos rfl]
    exact (getElem?_setCaller hm' _ i).trans ((if_neg hij).trans (hset _))
  | receive _ _ _ | receiveNothing _ _ | acknowledge _ _ | cancel _ _ => exact hcall _
  | _ => exact hset _

theorem stored_of_exec (h : Healthy K s) {i : ℕ} {m : Mutation} {a v : DateTime}
    {floors : List (Option DateTime)} {choice : ι} {store : σ} {out : Unit}
    (hm : s.tasks[i]? = some m) (hreq : m.request = .persistObservedActivity key a)
    (hshow : s.core.Shows key at') (hp : m.phase = .running (.calling (.updateActivity key v) floors))
    (hs : S.exec choice floors s.store (.updateActivity key v) = some (store, .ok out))
    (hv : at' ≤ v) :
    (core { s.setPhase i (afterCall m.request (.updateActivity key v) (.ok out)) with
      store := store }).Stored K key at' := by
  have hact : s.core.activity = .calling m.request (.updateActivity key v) floors := by
    rw [show s.core.activity = _ from activity_of_holder h.inv.mutex hm (by rw [hp]; rfl), hp]
    rfl
  -- registry and store have the same keys while a call is in progress
  have hpay := h.agrees.payload
  rw [hact] at hpay
  obtain ⟨y, hy, -⟩ := hshow
  obtain ⟨d, hd, -⟩ := Option.map_eq_some_iff.mp hy
  have hpayload : payloads (K.contents s.store) key = some d.payload := by
    rw [show payloads (K.contents s.store) = _ from hpay]
    simp [Activity.pending, payloads, hd]
  obtain ⟨d₀, hd₀, -⟩ := Option.map_eq_some_iff.mp hpayload
  have hidle : activity { s.setPhase i (afterCall m.request (.updateActivity key v) (.ok out)) with
      store := store } = .idle := by
    refine (activity_setPhase h.inv.mutex hm (by rw [hp]; rfl) _ rfl rfl).trans ?_
    rw [hreq]
    rfl
  rw [core_eq rfl rfl hidle]
  refine .of_stored ⟨v, ?_, hv⟩ (by simp)
  change stamp (K.contents store) key = some v
  rw [stamp, K.update_assigns hs, hd₀]
  rfl

theorem persisting_task (h : Healthy K s) (hshow : s.core.Shows key at') {i : ℕ} {m : Mutation}
    {req : DateTime} {a : Action ι} (hm : s.tasks[i]? = some m)
    (hreq : m.request = .persistObservedActivity key req) (hle : at' ≤ req)
    (hu : m.phase.Uncommitted key at') (ht : TaskStep S s i m a s')
    (hgood : faulty S s a = false) (hrt : a ≠ .runtimeUnavailable i) :
    Persisting key at' i s' ∨ s'.core.Stored K key at' := by
  have phase : ∀ {t : Registry σ} {p : Phase}, t.tasks = (s.setPhase i p).tasks →
      p.Uncommitted key at' → Persisting key at' i t := fun {t p} ht hp =>
    ⟨{ m with phase := p }, req, by rw [ht, getElem?_setPhase hm, if_pos rfl], hreq, hle, hp⟩
  have caller : ∀ c, Persisting key at' i (s.setCaller i c) := fun c =>
    ⟨{ m with caller := c }, req, by rw [getElem?_setCaller hm, if_pos rfl], hreq, hle, hu⟩
  cases ht with
  | runtimeUnavailable hp => exact absurd rfl hrt
  | spawnPanics hp | panic body hp => cases hgood
  | spawn hp | lock hp _ | pass hp _ => exact .inl (phase rfl trivial)
  | reject e hp hseal he => exact absurd hseal (by simp [h.nonterminal])
  | poll hp =>
    obtain ⟨y, hy, hle'⟩ := hshow
    refine .inl (phase rfl ?_)
    rw [invoke_eq h.nonterminal, hreq]
    simp only [Request.call?, Request.key]
    rw [show stamp s.routes.byKey key = some y from hy]
    exact ⟨rfl, le_trans hle' (le_max_left _ _)⟩
  | sampleFloor call floors hp hf =>
    rw [hp] at hu
    cases call with
    | updateActivity k v => cases hf
    | _ => exact hu.elim
  | exec call floors choice store reply hp hexec =>
    rw [hp] at hu
    obtain ⟨out, rfl⟩ := reply_of_not_faulty hm hp hexec hgood
    cases call with
    | updateActivity k v =>
      obtain ⟨rfl, hv⟩ := hu
      exact .inr (stored_of_exec h hm hreq hshow hp hexec hv)
    | _ => exact hu.elim
  | acknowledge _ _ | cancel _ _ => exact .inl (caller _)
  | load _ _ hp | swap _ _ _ hp _ | retry _ _ _ hp _ | conclude _ hp _ | concludeIndeterminate _ hp _
  | respond _ hp _ | respondDetached _ hp _ | acknowledged _ _ hp _ | acknowledgmentLost _ hp _
  | finish _ _ hp | unlock _ hp | receive _ _ hp | receiveNothing _ hp =>
    rw [hp] at hu
    exact hu.elim

theorem persisting_step (h : Healthy K s) (hshow : s.core.Shows key at') {i : ℕ}
    (hp : Persisting key at' i s) {a : Action ι} (hs : step S s a = some s')
    (hgood : faulty S s a = false) (hrt : a ≠ .runtimeUnavailable i) :
    Persisting key at' i s' ∨ s'.core.Stored K key at' := by
  obtain ⟨m, req, hm, hreq, hle, hu⟩ := hp
  cases step_cases hs with
  | accept request hopen =>
    have hlt : i < s.tasks.length := (List.getElem?_eq_some_iff.mp hm).1
    exact .inl ⟨m, req, (List.getElem?_append_left hlt).trans hm, hreq, hle, hu⟩
  | refuse _ _ | enter _ _ | drain _ _ _ _ | drained _ _ _ _ _ _ =>
    exact .inl ⟨m, req, hm, hreq, hle, hu⟩
  | observer j o a s' ho hobs => cases hobs <;> exact .inl ⟨m, req, hm, hreq, hle, hu⟩
  | task j m' a s' hm' ht =>
    by_cases hij : i = j
    · subst hij
      obtain rfl := Option.some.inj (hm.symm.trans hm')
      exact persisting_task h hshow hm hreq hle hu ht hgood hrt
    · exact .inl ⟨m, req, (getElem?_task_of_ne hm' ht hij).trans hm, hreq, hle, hu⟩

/-- One step of the registry on behalf of a component that may leave it alone. -/
def advance (S : Store σ ι) (s : Registry σ) (a : Option (Action ι)) : Option (Registry σ) :=
  a.elim (some s) (s.step S)

def disturbs (S : Store σ ι) (key : RouteKey) (at' : DateTime) (s : Registry σ)
    (a : Option (Action ι)) : Bool := a.any fun a => faulty S s a || undoes S key at' s a

/-- A healthy registry that publishes a timestamp of at least `at'` for the route. -/
structure Keeps (K : S.ActivityContract) (key : RouteKey) (at' : DateTime) (s : Registry σ) : Prop
    extends Healthy K s where
  shows : s.core.Shows key at'

theorem healthy_advance (h : Healthy K s) {a : Option (Action ι)} (hs : advance S s a = some s')
    (hgood : a.any (faulty S s) = false) : Healthy K s' := by
  cases a with
  | none => exact Option.some.inj hs ▸ h
  | some a => exact healthy_step h hs hgood

theorem keeps_advance (h : Keeps K key at' s) {a : Option (Action ι)}
    (hs : advance S s a = some s') (hd : disturbs S key at' s a = false) : Keeps K key at' s' := by
  cases a with
  | none => exact Option.some.inj hs ▸ h
  | some a =>
    obtain ⟨hgood, hundo⟩ := Bool.or_eq_false_iff.mp hd
    exact ⟨healthy_step h.toHealthy hs hgood, shows_step h.toHealthy h.shows hs hundo⟩

theorem stored_advance (h : Keeps K key at' s) (hst : s.core.Stored K key at')
    {a : Option (Action ι)} (hs : advance S s a = some s') (hd : disturbs S key at' s a = false) :
    s'.core.Stored K key at' := by
  have hk := keeps_advance h hs hd
  cases a with
  | none => exact Option.some.inj hs ▸ hst
  | some a =>
    obtain ⟨-, hundo⟩ := Bool.or_eq_false_iff.mp hd
    exact Core.stored_step K h.agrees h.shows hst (core_step h.inv hs hk.ok) (undoes_eq_false hundo)

theorem persisting_advance (h : Keeps K key at' s) {i : ℕ} (hp : Persisting key at' i s)
    {a : Option (Action ι)} (hs : advance S s a = some s') (hd : disturbs S key at' s a = false)
    (hrt : a ≠ some (.runtimeUnavailable i)) :
    Persisting key at' i s' ∨ s'.core.Stored K key at' := by
  cases a with
  | none => exact .inl (Option.some.inj hs ▸ hp)
  | some a =>
    obtain ⟨hgood, -⟩ := Bool.or_eq_false_iff.mp hd
    exact persisting_step h.toHealthy h.shows hp hs hgood fun e => hrt (congrArg some e)

end Registry

end ChpProxy
