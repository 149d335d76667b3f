import ChpProxy.Activity.Pending
import Mathlib.Data.List.Nodup

/-! The shape of the pending map: which routes wait in the ready queue, which one the worker holds,
and how many there are. -/
namespace ChpProxy.PendingActivities

variable {p p' : PendingActivities} {capacity : ℕ} {key k : RouteKey} {at' : DateTime} {q : ℕ}

theorem getElem?_insert_of_ne {m : Std.ExtTreeMap RouteKey PendingActivity} {e : PendingActivity}
    (h : k ≠ key) : (m.insert key e)[k]? = m[k]? := by
  have h' : ¬key = k := fun heq => h heq.symm
  simp [Std.ExtTreeMap.getElem?_insert, h']

theorem getElem?_erase_of_ne {m : Std.ExtTreeMap RouteKey PendingActivity} (h : k ≠ key) :
    (m.erase key)[k]? = m[k]? := by
  have h' : ¬key = k := fun heq => h heq.symm
  simp [Std.ExtTreeMap.getElem?_erase, h']

theorem size_insert_of_some {e e' : PendingActivity} (h : p.byKey[key]? = some e) :
    (p.byKey.insert key e').size = p.byKey.size := by
  rw [Std.ExtTreeMap.size_insert, Std.ExtTreeMap.contains_eq_isSome_getElem?, h]
  rfl

theorem size_insert_of_none {e : PendingActivity} (h : p.byKey[key]? = none) :
    (p.byKey.insert key e).size = p.byKey.size + 1 := by
  rw [Std.ExtTreeMap.size_insert, Std.ExtTreeMap.contains_eq_isSome_getElem?, h]
  rfl

theorem enqueue_cases (h : p.enqueue capacity key at' = .accepted p') :
    (∃ e, p.byKey[key]? = some e ∧ p' =
      { p with
        acceptedThrough := p.acceptedThrough + 1
        byKey := p.byKey.insert key
          { e with
            latest := max e.latest at'
            pendingOldestSequence :=
              some (e.pendingOldestSequence.getD (p.acceptedThrough + 1)) } }) ∨
    p.byKey[key]? = none ∧ p.byKey.size < capacity ∧ p' =
      { acceptedThrough := p.acceptedThrough + 1
        byKey := p.byKey.insert key ⟨at', some (p.acceptedThrough + 1), none⟩
        ready := p.ready ++ [key] } := by
  unfold enqueue at h
  split_ifs at h with hroom
  dsimp only at h
  split at h
  · next e he =>
    cases h
    exact .inl ⟨e, he, rfl⟩
  · next hnone =>
    cases h
    have hnot : key ∉ p.byKey := by
      rw [Std.ExtTreeMap.mem_iff_isSome_getElem?, hnone]
      nofun
    exact .inr ⟨hnone, hroom.resolve_left hnot, rfl⟩

theorem dequeue_cases (h : p.dequeue = .item key at' q p') :
    ∃ ready inFlight, p.ready = key :: ready ∧ p.byKey[key]? = some ⟨at', some q, inFlight⟩ ∧
      p' = { p with ready := ready, byKey := p.byKey.insert key ⟨at', none, some q⟩ } := by
  unfold dequeue at h
  split at h
  · cases h
  · next k ready hready =>
    split at h
    · next latest oldest inFlight hk =>
      cases h
      exact ⟨ready, inFlight, hready, hk, rfl⟩
    · cases h

theorem ready_of_empty (h : p.dequeue = .empty) : p.ready = [] := by
  unfold dequeue at h
  split at h
  · next hready => exact hready
  · split at h <;> cases h

/-- Where the route is while the worker holds the key `held`: waiting in the queue, held, both
held and observed again, or absent. -/
def Located (held : Option RouteKey) (p : PendingActivities) (k : RouteKey) : Prop :=
  match p.byKey[k]? with
  | none => k ∉ p.ready ∧ held ≠ some k
  | some e => match e.inFlightOldestSequence with
    | none => k ∈ p.ready ∧ held ≠ some k ∧ e.pendingOldestSequence.isSome = true
    | some _ => k ∉ p.ready ∧ held = some k

/-- The map between two critical sections. -/
structure WellFormed (capacity : ℕ) (held : Option RouteKey) (p : PendingActivities) : Prop where
  size_le : p.byKey.size ≤ capacity
  nodup : p.ready.Nodup
  located : ∀ k, Located held p k

variable {held held' : Option RouteKey}

/-- A critical section about one route leaves the others where they are. -/
theorem Located.congr (h : Located held p k) (hmap : p'.byKey[k]? = p.byKey[k]?)
    (hready : k ∈ p'.ready ↔ k ∈ p.ready) (hheld : held' = some k ↔ held = some k) :
    Located held' p' k := by
  unfold Located at h ⊢
  simp only [hmap, hready, hheld, ne_eq]
  exact h

theorem held_iff (h : k ≠ key) : none = some k ↔ some key = some k := by
  have h' : ¬key = k := fun heq => h heq.symm
  simp [h']

theorem Located.absent (h : Located held p k) (hk : p.byKey[k]? = none) :
    k ∉ p.ready ∧ held ≠ some k := by
  simpa only [Located, hk] using h

theorem Located.waiting {latest : DateTime} {pending : Option ℕ}
    (h : Located held p k) (hk : p.byKey[k]? = some ⟨latest, pending, none⟩) :
    k ∈ p.ready ∧ held ≠ some k ∧ pending.isSome = true := by
  simpa only [Located, hk] using h

theorem Located.inFlight {latest : DateTime} {pending : Option ℕ} {n : ℕ}
    (h : Located held p k) (hk : p.byKey[k]? = some ⟨latest, pending, some n⟩) :
    k ∉ p.ready ∧ held = some k := by
  simpa only [Located, hk] using h

theorem wellFormed_default (capacity : ℕ) : default.WellFormed capacity none := by
  constructor
  · show (∅ : Std.ExtTreeMap RouteKey PendingActivity).size ≤ capacity
    simp
  · exact List.nodup_nil
  · intro k
    simp [Located, default]

namespace WellFormed

theorem enqueue (h : p.WellFormed capacity held)
    (he : p.enqueue capacity key at' = .accepted p') : p'.WellFormed capacity held := by
  have hloc := h.located key
  rcases enqueue_cases he with ⟨⟨latest, pending, inFlight⟩, hkey, rfl⟩ | ⟨hnone, hroom, rfl⟩
  · constructor
    · show (p.byKey.insert key _).size ≤ capacity
      rw [size_insert_of_some hkey]
      exact h.size_le
    · exact h.nodup
    · intro k
      by_cases hk : k = key
      · subst hk
        simp only [Located, Std.ExtTreeMap.getElem?_insert_self]
        cases inFlight with
        | none =>
          obtain ⟨hready, hheld, -⟩ := hloc.waiting hkey
          exact ⟨hready, hheld, rfl⟩
        | some n => exact hloc.inFlight hkey
      · exact (h.located k).congr (getElem?_insert_of_ne hk) Iff.rfl Iff.rfl
  · obtain ⟨hready, hheld⟩ := hloc.absent hnone
    constructor
    · show (p.byKey.insert key _).size ≤ capacity
      rw [size_insert_of_none hnone]
      omega
    · show (p.ready ++ [key]).Nodup
      rw [← List.concat_eq_append]
      exact h.nodup.concat hready
    · intro k
      by_cases hk : k = key
      · subst hk
        simp only [Located, Std.ExtTreeMap.getElem?_insert_self]
        exact ⟨by simp, hheld, rfl⟩
      · exact (h.located k).congr (getElem?_insert_of_ne hk) (by simp [hk]) Iff.rfl

/-- The worker finds every ready key resident and with a pending acceptance. -/
theorem dequeue_ne_panicked (h : p.WellFormed capacity held) (p' : PendingActivities) :
    p.dequeue ≠ .panicked p' := by
  intro hd
  unfold dequeue at hd
  split at hd
  · cases hd
  · next key ready hready =>
    have hmem : key ∈ p.ready := by simp [hready]
    have hloc := h.located key
    split at hd
    · cases hd
    · next hother =>
      cases hkey : p.byKey[key]? with
      | none => exact (hloc.absent hkey).1 hmem
      | some e =>
        obtain ⟨latest, pending, inFlight⟩ := e
        cases inFlight with
        | none =>
          obtain ⟨oldest, rfl⟩ := Option.isSome_iff_exists.mp (hloc.waiting hkey).2.2
          exact hother latest oldest none hkey
        | some n => exact (hloc.inFlight hkey).1 hmem

theorem dequeue (h : p.WellFormed capacity none) (hd : p.dequeue = .item key at' q p') :
    p'.WellFormed capacity (some key) := by
  obtain ⟨ready, inFlight, hready, hkey, rfl⟩ := dequeue_cases hd
  have hnodup : key ∉ ready ∧ ready.Nodup := List.nodup_cons.mp (hready ▸ h.nodup)
  constructor
  · show (p.byKey.insert key _).size ≤ capacity
    rw [size_insert_of_some hkey]
    exact h.size_le
  · exact hnodup.2
  · intro k
    by_cases hk : k = key
    · subst hk
      simp only [Located, Std.ExtTreeMap.getElem?_insert_self]
      exact ⟨hnodup.1, trivial⟩
    · exact (h.located k).congr (getElem?_insert_of_ne hk) (by simp [hready, hk]) (held_iff hk).symm

theorem complete (h : p.WellFormed capacity (some key)) :
    (p.complete key).WellFormed capacity none := by
  have hloc := h.located key
  unfold PendingActivities.complete
  cases hkey : p.byKey[key]? with
  | none => exact absurd rfl (hloc.absent hkey).2
  | some e =>
    obtain ⟨latest, pending, inFlight⟩ := e
    have hout : key ∉ p.ready := by
      cases inFlight with
      | none => exact absurd rfl (hloc.waiting hkey).2.1
      | some n => exact (hloc.inFlight hkey).1
    dsimp only
    split_ifs with hpending
    · constructor
      · show (p.byKey.insert key _).size ≤ capacity
        rw [size_insert_of_some hkey]
        exact h.size_le
      · show (p.ready ++ [key]).Nodup
        rw [← List.concat_eq_append]
        exact h.nodup.concat hout
      · intro k
        by_cases hk : k = key
        · subst hk
          simp only [Located, Std.ExtTreeMap.getElem?_insert_self]
          exact ⟨by simp, nofun, hpending⟩
        · exact (h.located k).congr (getElem?_insert_of_ne hk) (by simp [hk]) (held_iff hk)
    · constructor
      · show (p.byKey.erase key).size ≤ capacity
        exact Std.ExtTreeMap.size_erase_le.trans h.size_le
      · exact h.nodup
      · intro k
        by_cases hk : k = key
        · subst hk
          simp only [Located, Std.ExtTreeMap.getElem?_erase_self]
          exact ⟨hout, nofun⟩
        · exact (h.located k).congr (getElem?_erase_of_ne hk) Iff.rfl (held_iff hk)

end WellFormed

end ChpProxy.PendingActivities
