import ChpProxy.Route

/-! The ordered route map of `route_table.rs`: current records together with the order of
their last successful mutation. -/
namespace ChpProxy

structure OrderedRoutes where
  byKey : RouteMap
  mutationOrder : List RouteKey

namespace OrderedRoutes

/-- Without runtime history the order is ascending key order. -/
def fromSorted (byKey : RouteMap) : OrderedRoutes := ⟨byKey, byKey.keys⟩

def replace (r : OrderedRoutes) (key : RouteKey) (data : RouteData) : OrderedRoutes where
  mutationOrder := r.mutationOrder.filter (· ≠ key) ++ [key]
  byKey := r.byKey.insert key data

def replacePreservingActivity (r : OrderedRoutes) (key : RouteKey) (data : RouteData) :
    OrderedRoutes :=
  match r.byKey[key]? with
  | some existing =>
    r.replace key { data with lastActivity := max data.lastActivity existing.lastActivity }
  | none => r.replace key data

def updateActivity (r : OrderedRoutes) (key : RouteKey) (at' : DateTime) : OrderedRoutes :=
  match r.byKey[key]? with
  | some route =>
    { r with
      byKey := r.byKey.insert key { route with lastActivity := max route.lastActivity at' } }
  | none => r

def remove (r : OrderedRoutes) (key : RouteKey) : OrderedRoutes where
  byKey := r.byKey.erase key
  mutationOrder := r.mutationOrder.filter (· ≠ key)

end OrderedRoutes

/-- The closures applied to a cloned route map before publication. -/
inductive RouteEdit where
  | replace (key : RouteKey) (data : RouteData)
  | replacePreservingActivity (key : RouteKey) (data : RouteData)
  | updateActivity (key : RouteKey) (at' : DateTime)
  | remove (key : RouteKey)
  deriving DecidableEq

namespace RouteEdit

def apply : RouteEdit → OrderedRoutes → OrderedRoutes
  | .replace key data, r => r.replace key data
  | .replacePreservingActivity key data, r => r.replacePreservingActivity key data
  | .updateActivity key at', r => r.updateActivity key at'
  | .remove key, r => r.remove key

/-- The edit never lowers a timestamp of a route it keeps. -/
def preserving : RouteEdit → Bool
  | .replace _ _ => false
  | .replacePreservingActivity _ _ | .updateActivity _ _ | .remove _ => true

/-- The only record an edit can touch. -/
def key : RouteEdit → RouteKey
  | .replace key _ | .replacePreservingActivity key _ | .updateActivity key _ | .remove key => key

end RouteEdit

namespace OrderedRoutes

@[simp] theorem getElem?_replace (r : OrderedRoutes) (key k : RouteKey) (data : RouteData) :
    (r.replace key data).byKey[k]? = if key = k then some data else r.byKey[k]? := by
  simp [replace, Std.ExtTreeMap.getElem?_insert]

theorem getElem?_replacePreservingActivity (r : OrderedRoutes) (key k : RouteKey)
    (data : RouteData) :
    (r.replacePreservingActivity key data).byKey[k]? =
      if key = k then
        some { data with lastActivity :=
          (r.byKey[key]?).elim data.lastActivity (max data.lastActivity ·.lastActivity) }
      else r.byKey[k]? := by
  unfold replacePreservingActivity
  cases h : r.byKey[key]? <;> simp

theorem getElem?_updateActivity (r : OrderedRoutes) (key k : RouteKey) (at' : DateTime) :
    (r.updateActivity key at').byKey[k]? =
      if key = k then
        (r.byKey[k]?).map (fun d => { d with lastActivity := max d.lastActivity at' })
      else r.byKey[k]? := by
  unfold updateActivity
  cases h : r.byKey[key]? with
  | none =>
    by_cases hk : key = k
    · subst hk
      simp [h]
    · simp [hk]
  | some d =>
    by_cases hk : key = k
    · subst hk
      simp [h]
    · simp [hk, Std.ExtTreeMap.getElem?_insert]

@[simp] theorem getElem?_remove (r : OrderedRoutes) (key k : RouteKey) :
    (r.remove key).byKey[k]? = if key = k then none else r.byKey[k]? := by
  simp [remove, Std.ExtTreeMap.getElem?_erase]

/-- The mutation order enumerates the stored keys without repetition. -/
structure Enumerated (r : OrderedRoutes) : Prop where
  nodup : r.mutationOrder.Nodup
  mem_iff : ∀ k, k ∈ r.mutationOrder ↔ k ∈ r.byKey

theorem mem_byKey_iff (r : OrderedRoutes) (k : RouteKey) :
    k ∈ r.byKey ↔ ∃ d, r.byKey[k]? = some d := by
  rw [Std.ExtTreeMap.mem_iff_isSome_getElem?, Option.isSome_iff_exists]

theorem enumerated_fromSorted (routes : RouteMap) : (fromSorted routes).Enumerated where
  nodup := by
    have h := routes.distinct_keys
    refine h.imp ?_
    intro a b hab he
    exact hab (by simp [he])
  mem_iff k := by simp [fromSorted]

theorem enumerated_replace {r : OrderedRoutes} (h : r.Enumerated) (key : RouteKey)
    (data : RouteData) : (r.replace key data).Enumerated where
  nodup := by
    refine List.nodup_append.mpr ⟨h.nodup.filter _, by simp, ?_⟩
    intro a ha b hb
    rw [List.mem_singleton.mp hb]
    simpa using (List.mem_filter.mp ha).2
  mem_iff k := by
    by_cases hk : k = key
    · simp [replace, hk]
    · have hk' : ¬key = k := fun e => hk e.symm
      simp [replace, hk, hk', h.mem_iff]

theorem enumerated_replacePreservingActivity {r : OrderedRoutes} (h : r.Enumerated)
    (key : RouteKey) (data : RouteData) : (r.replacePreservingActivity key data).Enumerated := by
  unfold replacePreservingActivity
  split <;> exact enumerated_replace h _ _

theorem enumerated_updateActivity {r : OrderedRoutes} (h : r.Enumerated) (key : RouteKey)
    (at' : DateTime) : (r.updateActivity key at').Enumerated := by
  unfold updateActivity
  split
  · next d hd =>
    refine ⟨h.nodup, fun k => ?_⟩
    have hm : key ∈ r.byKey := (mem_byKey_iff r key).mpr ⟨d, hd⟩
    by_cases hk : key = k
    · subst hk
      simp [h.mem_iff, hm]
    · simp [h.mem_iff, hk]
  · exact h

theorem enumerated_remove {r : OrderedRoutes} (h : r.Enumerated) (key : RouteKey) :
    (r.remove key).Enumerated where
  nodup := h.nodup.filter _
  mem_iff k := by
    by_cases hk : k = key
    · simp [remove, hk]
    · have hk' : ¬key = k := fun e => hk e.symm
      simp [remove, hk, hk', h.mem_iff]

theorem enumerated_apply {r : OrderedRoutes} (h : r.Enumerated) (e : RouteEdit) :
    (e.apply r).Enumerated := by
  cases e with
  | replace key data => exact enumerated_replace h key data
  | replacePreservingActivity key data => exact enumerated_replacePreservingActivity h key data
  | updateActivity key at' => exact enumerated_updateActivity h key at'
  | remove key => exact enumerated_remove h key

theorem getElem?_apply_of_ne (e : RouteEdit) (r : OrderedRoutes) (k : RouteKey)
    (hk : e.key ≠ k) : (e.apply r).byKey[k]? = r.byKey[k]? := by
  cases e with
  | replace key data =>
    have hk' : ¬key = k := hk
    simp [RouteEdit.apply, hk']
  | replacePreservingActivity key data =>
    have hk' : ¬key = k := hk
    rw [RouteEdit.apply, getElem?_replacePreservingActivity, if_neg hk']
  | updateActivity key at' =>
    have hk' : ¬key = k := hk
    rw [RouteEdit.apply, getElem?_updateActivity, if_neg hk']
  | remove key =>
    have hk' : ¬key = k := hk
    simp [RouteEdit.apply, hk']

theorem stamp_insert (routes : RouteMap) (key k : RouteKey) (data : RouteData) :
    stamp (routes.insert key data) k =
      if key = k then some data.lastActivity else stamp routes k := by
  rw [stamp, Std.ExtTreeMap.getElem?_insert]
  by_cases hk : key = k <;> simp [hk, stamp]

theorem stamp_erase (routes : RouteMap) (key k : RouteKey) :
    stamp (routes.erase key) k = if key = k then none else stamp routes k := by
  rw [stamp, Std.ExtTreeMap.getElem?_erase]
  by_cases hk : key = k <;> simp [hk, stamp]

theorem stamp_replacePreservingActivity (r : OrderedRoutes) (key k : RouteKey) (data : RouteData) :
    stamp (r.replacePreservingActivity key data).byKey k =
      if key = k then
        some ((stamp r.byKey k).elim data.lastActivity (max data.lastActivity ·))
      else stamp r.byKey k := by
  rw [stamp, getElem?_replacePreservingActivity]
  by_cases hk : key = k
  · subst hk
    cases h : r.byKey[key]? <;> simp [stamp, h]
  · simp [hk, stamp]

theorem stamp_updateActivity (r : OrderedRoutes) (key k : RouteKey) (at' : DateTime) :
    stamp (r.updateActivity key at').byKey k =
      if key = k then (stamp r.byKey k).map (max · at') else stamp r.byKey k := by
  rw [stamp, getElem?_updateActivity]
  by_cases hk : key = k
  · cases h : r.byKey[k]? <;> simp [hk, stamp, h]
  · simp [hk, stamp]

theorem stamp_remove (r : OrderedRoutes) (key k : RouteKey) :
    stamp (r.remove key).byKey k = if key = k then none else stamp r.byKey k :=
  stamp_erase r.byKey key k

theorem stamp_of_updateActivity {r : OrderedRoutes} {key k : RouteKey} {at' y' : DateTime}
    (h : stamp (r.updateActivity key at').byKey k = some y') :
    ∃ y, stamp r.byKey k = some y ∧ (y' = y ∨ key = k ∧ y' = max y at') := by
  rw [stamp_updateActivity] at h
  by_cases hk : key = k
  · rw [if_pos hk] at h
    obtain ⟨y, hy, rfl⟩ := Option.map_eq_some_iff.mp h
    exact ⟨y, hy, .inr ⟨hk, rfl⟩⟩
  · rw [if_neg hk] at h
    exact ⟨y', h, .inl rfl⟩

/-- The same under an edit that is published on top of the observation. -/
theorem stamp_of_apply_updateActivity {e : RouteEdit} (he : e.preserving = true)
    {r : OrderedRoutes} {key k : RouteKey} {at' y' : DateTime}
    (h : stamp (e.apply (r.updateActivity key at')).byKey k = some y') :
    ∃ y, stamp (e.apply r).byKey k = some y ∧ (y' = y ∨ key = k ∧ y' = max y at') := by
  cases e with
  | replace _ _ => cases he
  | replacePreservingActivity key' data =>
    simp only [RouteEdit.apply, stamp_replacePreservingActivity] at h ⊢
    by_cases hk' : key' = k
    · rw [if_pos hk'] at h ⊢
      obtain rfl := Option.some.inj h
      refine ⟨_, rfl, ?_⟩
      rw [stamp_updateActivity]
      by_cases hk : key = k
      · cases hy : stamp r.byKey k with
        | none => exact .inl (by simp)
        | some y => exact .inr ⟨hk, by simp [hk, max_assoc]⟩
      · exact .inl (by rw [if_neg hk])
    · rw [if_neg hk'] at h ⊢
      exact stamp_of_updateActivity h
  | updateActivity key' at'' =>
    simp only [RouteEdit.apply] at h ⊢
    rw [stamp_updateActivity] at h ⊢
    by_cases hk' : key' = k
    · rw [if_pos hk'] at h ⊢
      obtain ⟨z, hz, rfl⟩ := Option.map_eq_some_iff.mp h
      obtain ⟨y, hy, hcases⟩ := stamp_of_updateActivity hz
      refine ⟨max y at'', by rw [hy]; rfl, ?_⟩
      rcases hcases with rfl | ⟨hk, rfl⟩
      · exact .inl rfl
      · exact .inr ⟨hk, max_right_comm _ _ _⟩
    · rw [if_neg hk'] at h ⊢
      exact stamp_of_updateActivity h
  | remove key' =>
    simp only [RouteEdit.apply, stamp_remove] at h ⊢
    by_cases hk' : key' = k
    · rw [if_pos hk'] at h
      cases h
    · rw [if_neg hk'] at h ⊢
      exact stamp_of_updateActivity h

/-- A route keeps its timestamp or gets a later one, unless the edit removes it. -/
theorem lastActivity_le_apply {e : RouteEdit} (he : e.preserving = true) {r : OrderedRoutes}
    {k : RouteKey} {d : RouteData} (hd : r.byKey[k]? = some d) (hk : e ≠ .remove k) :
    ∃ d', (e.apply r).byKey[k]? = some d' ∧ d.lastActivity ≤ d'.lastActivity := by
  by_cases hkey : e.key = k
  · cases e with
    | replace key data => cases he
    | replacePreservingActivity key data =>
      obtain rfl : key = k := hkey
      refine ⟨_, (getElem?_replacePreservingActivity r key key data).trans (if_pos rfl), ?_⟩
      rw [hd]
      exact le_max_right _ _
    | updateActivity key at' =>
      obtain rfl : key = k := hkey
      refine ⟨{ d with lastActivity := max d.lastActivity at' }, ?_, le_max_left _ _⟩
      rw [RouteEdit.apply, getElem?_updateActivity, if_pos rfl, hd]
      rfl
    | remove key => exact absurd (congrArg RouteEdit.remove hkey) hk
  · exact ⟨d, (getElem?_apply_of_ne e r k hkey).trans hd, le_refl _⟩

end OrderedRoutes

end ChpProxy
