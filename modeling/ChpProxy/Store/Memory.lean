import ChpProxy.Store.Trait

/-! In-memory implementation of the route store contract (`store/memory.rs`). -/
namespace ChpProxy.MemoryStore

/-- The routes behind the `RwLock`. -/
abbrev State := RouteMap

/-- `now` is the clock read while the write lock is held. -/
def add (now : DateTime) (key : RouteKey) (target : String) (extra : Map)
    (floors : List (Option DateTime)) (routes : State) :
    Option (State × Except StoreError RouteData) :=
  match floors with
  | [floor] =>
    let data : RouteData :=
      { target := target, lastActivity := floor.elim now (max now ·), extra := extra }
    some (routes.insert key data, .ok data)
  | _ => none

def putPreservingActivity (key : RouteKey) (data : RouteData)
    (floors : List (Option DateTime)) (routes : State) :
    Option (State × Except StoreError RouteData) :=
  match floors with
  | [floor] =>
    let data := match floor with
      | some floor => { data with lastActivity := max data.lastActivity floor }
      | none => data
    some (routes.insert key data, .ok data)
  | _ => none

def updateActivity (key : RouteKey) (at' : DateTime) (routes : State) :
    Option (State × Except StoreError Unit) :=
  match routes[key]? with
  | some route => some (routes.insert key { route with lastActivity := at' }, .ok ())
  | none => some (routes, .ok ())

def delete (key : RouteKey) (routes : State) :
    Option (State × Except StoreError (Option RouteData)) :=
  some (routes.erase key, .ok routes[key]?)

/-- Every method takes the lock once and samples the floor at most once. -/
def store : Store State DateTime where
  snapshot _ routes := .ok routes
  add := add
  putPreservingActivity _ := putPreservingActivity
  updateActivity _ := updateActivity
  delete _ := delete

theorem add_eq_some {now : DateTime} {key : RouteKey} {target : String} {extra : Map}
    {floors : List (Option DateTime)} {routes routes' : State} {reply : Except StoreError RouteData}
    (h : add now key target extra floors routes = some (routes', reply)) :
    ∃ floor data, floors = [floor] ∧ data.lastActivity = floor.elim now (max now ·) ∧
      data.target = target ∧ data.extra = extra ∧ reply = .ok data ∧
      routes' = routes.insert key data := by
  unfold add at h
  split at h
  · next floor =>
    obtain ⟨rfl, rfl⟩ := Prod.mk.inj (Option.some.inj h)
    exact ⟨floor, _, rfl, rfl, rfl, rfl, rfl, rfl⟩
  · simp at h

theorem put_eq_some {key : RouteKey} {data : RouteData}
    {floors : List (Option DateTime)} {routes routes' : State} {reply : Except StoreError RouteData}
    (h : putPreservingActivity key data floors routes = some (routes', reply)) :
    ∃ floor committed, floors = [floor] ∧
      committed.lastActivity = floor.elim data.lastActivity (max data.lastActivity ·) ∧
      committed.payload = data.payload ∧ reply = .ok committed ∧
      routes' = routes.insert key committed := by
  unfold putPreservingActivity at h
  split at h
  · next floor =>
    obtain ⟨rfl, rfl⟩ := Prod.mk.inj (Option.some.inj h)
    exact ⟨floor, _, rfl, by cases floor <;> rfl, by cases floor <;> rfl, rfl, rfl⟩
  · simp at h

/-- Updating an absent route is a successful no-op. -/
theorem updateActivity_eq_some {key : RouteKey} {at' : DateTime}
    {routes routes' : State} {reply : Except StoreError Unit}
    (h : updateActivity key at' routes = some (routes', reply)) :
    reply = .ok () ∧ ∀ k, routes'[k]? =
      if key = k then (routes[k]?).map ({ · with lastActivity := at' }) else routes[k]? := by
  unfold updateActivity at h
  cases hd : routes[key]?
  all_goals
    rw [hd] at h
    obtain ⟨rfl, rfl⟩ := Prod.mk.inj (Option.some.inj h)
    refine ⟨rfl, fun k => ?_⟩
    by_cases hk : key = k
    · subst hk
      simp [hd]
    · simp [hk, Std.ExtTreeMap.getElem?_insert]

/-- A write is no older than the one floor that it samples. -/
theorem floor_le_elim (own : DateTime) (floor : Option DateTime) :
    [floor] ≠ [] ∧
      ∀ f ∈ [floor], ∀ at', f = some at' → at' ≤ floor.elim own (max own ·) := by
  refine ⟨by simp, ?_⟩
  intro f hf at' ha
  rw [List.mem_singleton.mp hf] at ha
  subst ha
  exact le_max_right _ _

/-- The memory store never fails and obeys the whole contract. -/
def contract : store.ActivityContract where
  contents routes := routes
  snapshot_ok h := (Except.ok.inj h).symm
  add_ok h := by
    obtain ⟨_, data, _, _, _, _, hr, rfl⟩ := add_eq_some h
    rw [Except.ok.inj hr]
  put_ok h := by
    obtain ⟨_, committed, _, _, _, hr, rfl⟩ := put_eq_some h
    rw [Except.ok.inj hr]
  update_ok {i key at' s s'} h k := by
    have hk := (updateActivity_eq_some h).2 k
    rw [hk]
    by_cases he : key = k
    · rw [if_pos he]
      refine ⟨?_, fun hne => absurd he.symm hne⟩
      cases s[k]? <;> rfl
    · simp [he]
  delete_ok h := by
    obtain ⟨rfl, -⟩ := Prod.mk.inj (Option.some.inj h)
    rfl
  error_unchanged {i floors s s' c e} h _ := by
    cases c with
    | add key target extra =>
      obtain ⟨_, _, _, _, _, _, hr, _⟩ := add_eq_some h
      cases hr
    | putPreservingActivity key data =>
      obtain ⟨_, _, _, _, _, hr, _⟩ := put_eq_some h
      cases hr
    | updateActivity key at' => cases (updateActivity_eq_some h).1
    | delete key => cases (Prod.mk.inj (Option.some.inj h)).2
  update_assigns {i key at' s s'} h := by simpa using (updateActivity_eq_some h).2 key
  add_floor h := by
    obtain ⟨floor, data, rfl, hl, _, _, hr, _⟩ := add_eq_some h
    rw [Except.ok.inj hr, hl]
    exact floor_le_elim _ floor
  put_floor h := by
    obtain ⟨floor, committed, rfl, hl, _, hr, _⟩ := put_eq_some h
    rw [Except.ok.inj hr, hl]
    exact floor_le_elim _ floor

def recordContract : store.RecordContract where
  toContract := contract.toContract
  add_payload h := by
    obtain ⟨_, data, _, _, rfl, rfl, hr, _⟩ := add_eq_some h
    rw [Except.ok.inj hr]
    rfl
  delete_prior h := by
    obtain ⟨-, hr⟩ := Prod.mk.inj (Option.some.inj h)
    exact (Except.ok.inj hr).symm

end ChpProxy.MemoryStore
