import ChpProxy.Registry.Agreement
import ChpProxy.Registry.Publication

/-! Timestamps over the memory store. The published ones run ahead of the stored ones only by
observations that are not persisted yet, as long as no activity update is older than what is
published. -/
namespace ChpProxy

/-- The observations that are published and not yet persisted. -/
abbrev Owed := List (RouteKey × DateTime)

/-- A published timestamp is the stored one, or a later one that is still owed to the store. -/
def Tracks (owed : Owed) (key : RouteKey) (stored published : DateTime) : Prop :=
  stored ≤ published ∧ (published = stored ∨ (key, published) ∈ owed)

namespace Tracks

variable {owed : Owed} {key : RouteKey} {x y : DateTime}

theorem refl (owed : Owed) (key : RouteKey) (x : DateTime) : Tracks owed key x x :=
  ⟨le_refl x, .inl rfl⟩

theorem mono (h : Tracks owed key x y) {owed' : Owed}
    (hsub : (key, y) ∈ owed → (key, y) ∈ owed') : Tracks owed' key x y := ⟨h.1, h.2.imp_right hsub⟩

/-- An observation either changes nothing or becomes the timestamp owed. -/
theorem observe {k : RouteKey} (h : Tracks owed k x y) {key : RouteKey} {at' y' : DateTime}
    (hy : y' = y ∨ key = k ∧ y' = max y at') : Tracks ((key, at') :: owed) k x y' := by
  rcases hy with rfl | ⟨rfl, rfl⟩
  · exact h.mono (List.mem_cons_of_mem _)
  · refine ⟨le_trans h.1 (le_max_left _ _), ?_⟩
    rcases max_choice y at' with hm | hm
    · rw [hm]
      exact h.2.imp_right (List.mem_cons_of_mem _)
    · rw [hm]
      exact .inr List.mem_cons_self

theorem persist (h : Tracks owed key x y) {at' : DateTime} (hle : at' ≤ x) :
    Tracks (owed.filter (· ≠ (key, at'))) key x y := by
  refine ⟨h.1, ?_⟩
  rcases h.2 with he | hmem
  · exact .inl he
  · by_cases hy : y = at'
    · exact .inl (le_antisymm (hy ▸ hle) h.1)
    · exact .inr (List.mem_filter.mpr ⟨hmem, by simp [hy]⟩)

theorem replace (h : Tracks owed key x y) {z : DateTime} (hz : x ≤ z) :
    Tracks owed key z (max z y) := by
  refine ⟨le_max_left _ _, ?_⟩
  rcases h.2 with he | hmem
  · exact .inl (max_eq_left (he ▸ hz))
  · rcases max_choice z y with hm | hm
    · exact .inl hm
    · rw [hm]
      exact .inr hmem

end Tracks

namespace Event

/-- How an event changes what is owed. -/
def owe (owed : Owed) : Event → Owed
  | .published (.observer _) (.updateActivity key at') => (key, at') :: owed
  | .committed (.persistObservedActivity key at') _ => owed.filter (· ≠ (key, at'))
  | .published _ (.remove key) => owed.filter (·.1 ≠ key)
  | _ => owed

/-- An activity update older than the published timestamp is committed, or the persistence of an
observation that is not published begins. -/
def outdated (routes : RouteMap) : Event → Bool
  | .committed (.updateActivity key at') _ => (stamp routes key).any (at' < ·)
  | .invoked (.persistObservedActivity key at') _ => (stamp routes key).any (· < at')
  | _ => false

end Event

def owed (events : List Event) : Owed := events.foldl Event.owe []

namespace Core

/-- How stored and published timestamps are related while the writer works. -/
structure Synced (owed : Owed) (c : Core MemoryStore.State) : Prop where
  settled : ∀ key x y, stamp c.store key = some x → stamp c.settledRoutes.byKey key = some y →
    Tracks owed key x y
  persisting : ∀ key at' call floors,
    c.activity = .calling (.persistObservedActivity key at') call floors →
    ∃ x, call = .updateActivity key x ∧ at' ≤ x ∧
      ∀ y, stamp c.routes.byKey key = some y → Tracks owed key x y
  floor : ∀ request call floors, c.activity = .calling request call floors →
    ∀ f ∈ floors, ∀ y, stamp c.routes.byKey call.key = some y →
      ∃ x, f = some x ∧ Tracks owed call.key x y
  preserving : ∀ edit, c.activity = .publishing edit → edit.preserving = true

namespace Synced

variable {owed : Owed} {c : Core MemoryStore.State}

theorem observe (h : c.Synced owed) (key : RouteKey) (at' : DateTime) :
    Synced ((key, at') :: owed) { c with routes := c.routes.updateActivity key at' } := by
  refine ⟨fun k x y' hs hr => ?_, ?_, ?_, h.preserving⟩
  · have hold : ∃ y, stamp c.settledRoutes.byKey k = some y ∧
        (y' = y ∨ key = k ∧ y' = max y at') := by
      unfold settledRoutes at hr ⊢
      cases hact : c.activity with
      | publishing edit =>
        simp only [hact] at hr
        exact OrderedRoutes.stamp_of_apply_updateActivity (h.preserving edit hact) hr
      | _ =>
        simp only [hact] at hr
        exact OrderedRoutes.stamp_of_updateActivity hr
    obtain ⟨y, hy, hcases⟩ := hold
    exact (h.settled k x y hs hy).observe hcases
  · intro k a call floors hact
    obtain ⟨v, hcall, hle, htr⟩ := h.persisting k a call floors hact
    refine ⟨v, hcall, hle, fun y' hy' => ?_⟩
    obtain ⟨y, hy, hcases⟩ := OrderedRoutes.stamp_of_updateActivity hy'
    exact (htr y hy).observe hcases
  · intro request call floors hact f hf y' hy'
    obtain ⟨y, hy, hcases⟩ := OrderedRoutes.stamp_of_updateActivity hy'
    obtain ⟨v, hv, htr⟩ := h.floor request call floors hact f hf y hy
    exact ⟨v, hv, htr.observe hcases⟩

theorem of_settled {store : MemoryStore.State} {routes : OrderedRoutes} {act : Activity}
    (hcalm : ∀ request call floors, act ≠ .calling request call floors)
    (hpres : ∀ edit, act = .publishing edit → edit.preserving = true)
    (hset : ∀ key x y, stamp store key = some x →
      stamp (act.pending.elim routes (·.apply routes)).byKey key = some y → Tracks owed key x y) :
    Synced owed ⟨store, routes, act⟩ where
  settled := hset
  persisting _ _ _ _ he := absurd he (hcalm _ _ _)
  floor _ _ _ he := absurd he (hcalm _ _ _)
  preserving := hpres

theorem settled_of_calling (h : c.Synced owed) {request : Request} {call : Call}
    {floors : List (Option DateTime)} (hact : c.activity = .calling request call floors)
    {key : RouteKey} {x y : DateTime} (hs : stamp c.store key = some x)
    (hr : stamp c.routes.byKey key = some y) : Tracks owed key x y := by
  refine h.settled key x y hs ?_
  rw [settledRoutes, hact]
  exact hr

/-- A replacement commits at least the floor it sampled, and what was published after the sample is
still owed. -/
theorem commit_replacement (h : c.Synced owed) {request : Request} {call : Call}
    {floor : Option DateTime} (hact : c.activity = .calling request call [floor])
    {data : RouteData} (hdata : ∀ x, floor = some x → x ≤ data.lastActivity) :
    Synced owed ⟨c.store.insert call.key data, c.routes,
      .publishing (.replacePreservingActivity call.key data)⟩ := by
  refine of_settled (by simp) (fun edit he => by cases he; rfl) fun k x y hs hr => ?_
  change stamp (c.routes.replacePreservingActivity call.key data).byKey k = some y at hr
  rw [OrderedRoutes.stamp_insert] at hs
  rw [OrderedRoutes.stamp_replacePreservingActivity] at hr
  by_cases hk : call.key = k
  · rw [if_pos hk] at hs hr
    obtain rfl := Option.some.inj hs
    obtain rfl := Option.some.inj hr
    subst hk
    cases hz : stamp c.routes.byKey call.key with
    | none => exact .refl _ _ _
    | some z =>
      obtain ⟨f, hf, htr⟩ := h.floor request call [floor] hact floor (by simp) z hz
      exact htr.replace (hdata f hf)
  · rw [if_neg hk] at hs hr
    exact h.settled_of_calling hact hs hr

theorem commit_update (h : c.Synced owed) {request : Request} {key : RouteKey} {at' : DateTime}
    {floors : List (Option DateTime)}
    (hact : c.activity = .calling request (.updateActivity key at') floors)
    (hnew : ∀ z, stamp c.routes.byKey key = some z → z ≤ at') {store : MemoryStore.State}
    (hstore : ∀ k, stamp store k =
      if key = k then (stamp c.store k).map fun _ => at' else stamp c.store k) :
    Synced owed ⟨store, c.routes, .publishing (.updateActivity key at')⟩ := by
  refine of_settled (by simp) (fun edit he => by cases he; rfl) fun k x y hs hr => ?_
  change stamp (c.routes.updateActivity key at').byKey k = some y at hr
  rw [hstore] at hs
  rw [OrderedRoutes.stamp_updateActivity] at hr
  by_cases hk : key = k
  · subst hk
    rw [if_pos rfl] at hs hr
    obtain ⟨_, -, rfl⟩ := Option.map_eq_some_iff.mp hs
    obtain ⟨z, hz, rfl⟩ := Option.map_eq_some_iff.mp hr
    rw [max_eq_right (hnew z hz)]
    exact .refl _ _ _
  · rw [if_neg hk] at hs hr
    exact h.settled_of_calling hact hs hr

theorem commit_persist (h : c.Synced owed) {key : RouteKey} {at' x : DateTime}
    {floors : List (Option DateTime)} (hact : c.activity =
      .calling (.persistObservedActivity key at') (.updateActivity key x) floors)
    {store : MemoryStore.State} (hstore : ∀ k, stamp store k =
      if key = k then (stamp c.store k).map fun _ => x else stamp c.store k) :
    Synced (owed.filter (· ≠ (key, at'))) ⟨store, c.routes, .idle⟩ := by
  obtain ⟨x', hx', hle, htr⟩ := h.persisting key at' _ floors hact
  obtain rfl : x = x' := by simpa using hx'
  refine of_settled (by simp) (fun edit he => by cases he) fun k u y hs hr => ?_
  change stamp c.routes.byKey k = some y at hr
  rw [hstore] at hs
  by_cases hk : key = k
  · subst hk
    rw [if_pos rfl] at hs
    obtain ⟨_, -, rfl⟩ := Option.map_eq_some_iff.mp hs
    exact (htr y hr).persist hle
  · rw [if_neg hk] at hs
    refine (h.settled_of_calling hact hs hr).mono fun hmem => List.mem_filter.mpr ⟨hmem, ?_⟩
    have hne : ¬k = key := fun e => hk e.symm
    simp [hne]

theorem commit_delete (h : c.Synced owed) {request : Request} {key : RouteKey}
    {floors : List (Option DateTime)} (hact : c.activity = .calling request (.delete key) floors) :
    Synced owed ⟨c.store.erase key, c.routes, .publishing (.remove key)⟩ := by
  refine of_settled (by simp) (fun edit he => by cases he; rfl) fun k x y hs hr => ?_
  change stamp (c.routes.remove key).byKey k = some y at hr
  rw [OrderedRoutes.stamp_erase] at hs
  rw [OrderedRoutes.stamp_remove] at hr
  by_cases hk : key = k
  · rw [if_pos hk] at hs
    cases hs
  · rw [if_neg hk] at hs hr
    exact h.settled_of_calling hact hs hr

theorem invoke (h : c.Synced owed) {request : Request} {call : Call} (hidle : c.activity = .idle)
    (hcall : request.call? (stamp c.routes.byKey request.key) = some call)
    (hnew : (Event.invoked request call).outdated c.routes.byKey = false) :
    Synced owed { c with activity := .calling request call [] } := by
  refine ⟨fun k x y hs hr => h.settled k x y hs ?_, ?_, ?_, fun edit he => by cases he⟩
  · rw [settledRoutes, hidle]
    exact hr
  · intro key at' call' floors he
    cases he
    obtain ⟨cur, hcur, rfl⟩ := Option.map_eq_some_iff.mp hcall
    change stamp c.routes.byKey key = some cur at hcur
    have hle : at' ≤ cur := by
      simpa [Event.outdated, hcur] using hnew
    refine ⟨_, rfl, le_max_right _ _, fun y hy => ?_⟩
    obtain rfl := Option.some.inj (hcur.symm.trans hy)
    rw [max_eq_left hle]
    exact .refl _ _ _
  · intro request' call' floors he f hf
    cases he
    cases hf

theorem sample (h : c.Synced owed) {request : Request} {call : Call}
    {floors : List (Option DateTime)} (hact : c.activity = .calling request call floors) :
    Synced owed { c with
      activity := .calling request call (floors ++ [stamp c.routes.byKey call.key]) } := by
  refine ⟨fun k x y hs hr => h.settled k x y hs ?_, ?_, ?_, fun edit he => by cases he⟩
  · rw [settledRoutes, hact]
    exact hr
  · intro key at' call' floors' he
    cases he
    exact h.persisting key at' call floors hact
  · intro request' call' floors' he f hf y hy
    cases he
    rcases List.mem_append.mp hf with hf | hf
    · exact h.floor request call floors hact f hf y hy
    · rw [List.mem_singleton.mp hf]
      exact ⟨y, hy, .refl _ _ _⟩

theorem publish (h : c.Synced owed) {edit : RouteEdit} (hact : c.activity = .publishing edit)
    (i : ℕ) : Synced ((Event.published (.task i) edit).owe owed)
      ⟨c.store, edit.apply c.routes, .idle⟩ := by
  have hset : ∀ k x y, stamp c.store k = some x → stamp (edit.apply c.routes).byKey k = some y →
      Tracks owed k x y := by
    intro k x y hs hr
    refine h.settled k x y hs ?_
    rw [settledRoutes, hact]
    exact hr
  refine of_settled (by simp) (fun edit he => by cases he) fun k x y hs hr => ?_
  have htr := hset k x y hs hr
  cases edit with
  | remove key =>
    refine htr.mono fun hmem => List.mem_filter.mpr ⟨hmem, ?_⟩
    change stamp (c.routes.remove key).byKey k = some y at hr
    rw [OrderedRoutes.stamp_remove] at hr
    split_ifs at hr with hk
    have hne : ¬k = key := fun e => hk e.symm
    simp [hne]
  | _ => exact htr

theorem stamp_update {key : RouteKey} {at' : DateTime} {routes routes' : MemoryStore.State}
    {reply : Except StoreError Unit}
    (h : MemoryStore.updateActivity key at' routes = some (routes', reply)) (k : RouteKey) :
    stamp routes' k = if key = k then (stamp routes k).map fun _ => at' else stamp routes k := by
  rw [stamp, (MemoryStore.updateActivity_eq_some h).2 k]
  by_cases hk : key = k
  · cases hd : routes[k]? <;> simp [hk, stamp, hd]
  · simp [hk, stamp]

theorem commit (h : c.Synced owed) (hk : c.Agrees MemoryStore.contract.toContract)
    {request : Request} {call : Call} {floors : List (Option DateTime)} {now : DateTime}
    {store : MemoryStore.State} {out : call.Output}
    (hact : c.activity = .calling request call floors)
    (hexec : MemoryStore.store.exec now floors c.store call = some (store, .ok out))
    (hnew : (Event.committed request call).outdated c.routes.byKey = false) :
    Synced ((Event.committed request call).owe owed)
      ⟨store, c.routes, if request.publishes then .publishing (call.edit out) else .idle⟩ := by
  obtain ⟨cur, hcall⟩ := hk.caller request call floors hact
  cases request with
  | add key target extra =>
    obtain rfl := Option.some.inj hcall
    obtain ⟨floor, data, rfl, hl, -, -, hout, rfl⟩ := MemoryStore.add_eq_some hexec
    obtain rfl := Except.ok.inj hout
    refine h.commit_replacement hact fun x hx => ?_
    rw [hl, hx]
    exact le_max_right _ _
  | put key data =>
    obtain rfl := Option.some.inj hcall
    obtain ⟨floor, committed, rfl, hl, -, hout, rfl⟩ := MemoryStore.put_eq_some hexec
    obtain rfl := Except.ok.inj hout
    refine h.commit_replacement hact fun x hx => ?_
    rw [hl, hx]
    exact le_max_right _ _
  | updateActivity key at' =>
    obtain rfl := Option.some.inj hcall
    refine h.commit_update hact (fun z hz => ?_) (stamp_update hexec)
    simpa [Event.outdated, hz] using hnew
  | persistObservedActivity key at' =>
    obtain ⟨x, rfl, -, -⟩ := h.persisting key at' call floors hact
    exact h.commit_persist hact (stamp_update hexec)
  | delete key =>
    obtain rfl := Option.some.inj hcall
    obtain ⟨rfl, -⟩ := Prod.mk.inj (Option.some.inj hexec)
    exact h.commit_delete hact

end Synced

theorem synced_step {owed : Owed} {c c' : Core MemoryStore.State} {events : List Event}
    (h : c.Synced owed) (hk : c.Agrees MemoryStore.contract.toContract)
    (hs : Step MemoryStore.store c events c')
    (hnew : ∀ event ∈ events, event.outdated c.routes.byKey = false) :
    c'.Synced (events.foldl Event.owe owed) := by
  cases hs with
  | silent => exact h
  | invoke request call hidle hcall => exact h.invoke hidle hcall (hnew _ (by simp))
  | sample request call floors hact hfloor => exact h.sample hact
  | commit request call floors choice store out hact hexec =>
    exact h.commit hk hact hexec (hnew _ (by simp))
  | reject request call floors choice store e hact hexec hord =>
    obtain rfl : store = c.store := MemoryStore.contract.error_unchanged hexec hord
    exact Synced.of_settled (by simp) (fun edit he => by cases he)
      fun k x y hx hy => h.settled_of_calling hact hx hy
  | publish i edit hact => exact h.publish hact i
  | observe j key at' => exact h.observe key at'

end Core

end ChpProxy
