import ChpProxy.Route

/-! The pending map of the activity writer (`activity.rs`): observations coalesced per route, with
the sequence numbers that `flush` waits for. Every function is one critical section of the map's
lock. -/
namespace ChpProxy

structure PendingActivity where
  latest : DateTime
  pendingOldestSequence : Option ℕ
  inFlightOldestSequence : Option ℕ
  deriving DecidableEq

structure PendingActivities where
  byKey : Std.ExtTreeMap RouteKey PendingActivity
  ready : List RouteKey
  acceptedThrough : ℕ

namespace PendingActivities

def default : PendingActivities := ⟨∅, [], 0⟩

/-- What the locked part of `record_at` does. The sequence is a `u64`, and its exhaustion panics. -/
inductive Enqueued where
  | dropped
  | exhausted
  | accepted (pending : PendingActivities)

def enqueue (p : PendingActivities) (pendingCapacity : ℕ) (key : RouteKey) (at' : DateTime) :
    Enqueued :=
  if key ∈ p.byKey ∨ p.byKey.size < pendingCapacity then
    if p.acceptedThrough + 1 < 2 ^ 64 then
      let sequence := p.acceptedThrough + 1
      match p.byKey[key]? with
      | some existing => .accepted
        { p with
          acceptedThrough := sequence
          byKey := p.byKey.insert key
            { existing with
              latest := max existing.latest at'
              pendingOldestSequence := some (existing.pendingOldestSequence.getD sequence) } }
      | none => .accepted
        { acceptedThrough := sequence
          byKey := p.byKey.insert key ⟨at', some sequence, none⟩
          ready := p.ready ++ [key] }
    else .exhausted
  else .dropped

/-- What the worker finds at the top of its loop. A ready key that is not resident, or that has no
pending acceptance, panics. -/
inductive Dequeued where
  | empty
  | item (key : RouteKey) (at' : DateTime) (sequence : ℕ) (pending : PendingActivities)
  | panicked (pending : PendingActivities)

def dequeue (p : PendingActivities) : Dequeued :=
  match p.ready with
  | [] => .empty
  | key :: ready =>
    match p.byKey[key]? with
    | some ⟨latest, some oldest, _⟩ => .item key latest oldest
      { p with ready := ready, byKey := p.byKey.insert key ⟨latest, none, some oldest⟩ }
    | _ => .panicked { p with ready := ready }

/-- The worker's critical section after a persistence attempt. -/
def complete (p : PendingActivities) (key : RouteKey) : PendingActivities :=
  match p.byKey[key]? with
  | some pending =>
    if pending.pendingOldestSequence.isSome then
      { p with
        byKey := p.byKey.insert key { pending with inFlightOldestSequence := none }
        ready := p.ready ++ [key] }
    else { p with byKey := p.byKey.erase key }
  | none => { p with byKey := p.byKey.erase key }

/-- The condition `flush` waits for. -/
def watermarkIsComplete (p : PendingActivities) (watermark : ℕ) : Bool :=
  p.byKey.toList.all fun (_, pending) =>
    pending.inFlightOldestSequence.all (watermark < ·) &&
      pending.pendingOldestSequence.all (watermark < ·)

theorem enqueue_eq_accepted {p p' : PendingActivities} {capacity : ℕ} {key : RouteKey}
    {at' : DateTime} (h : p.enqueue capacity key at' = .accepted p') :
    p'.acceptedThrough = p.acceptedThrough + 1 ∧
    (∀ k, k ≠ key → p'.byKey[k]? = p.byKey[k]?) ∧
    ∃ e, p'.byKey[key]? = some e ∧ at' ≤ e.latest ∧
      (∀ e₀, p.byKey[key]? = some e₀ → e₀.latest ≤ e.latest ∧
        e.inFlightOldestSequence = e₀.inFlightOldestSequence ∧
        ∀ q, e₀.pendingOldestSequence = some q → e.pendingOldestSequence = some q) ∧
      ((∀ e₀ q, p.byKey[key]? = some e₀ → e₀.pendingOldestSequence ≠ some q) →
        e.pendingOldestSequence = some p'.acceptedThrough) := by
  unfold enqueue at h
  split_ifs at h
  dsimp only at h
  split at h
  · next e₀ he₀ =>
    cases h
    refine ⟨rfl, fun k hk => ?_, _, Std.ExtTreeMap.getElem?_insert_self, le_max_right _ _, ?_, ?_⟩
    · have hk' : ¬key = k := fun e => hk e.symm
      simp [Std.ExtTreeMap.getElem?_insert, hk']
    · intro e₁ he₁
      obtain rfl := Option.some.inj (he₀.symm.trans he₁)
      exact ⟨le_max_left _ _, rfl, fun q hq => by simp [hq]⟩
    · intro hnone
      cases hq : e₀.pendingOldestSequence with
      | none => rfl
      | some q => exact absurd hq (hnone e₀ q he₀)
  · next hnone =>
    cases h
    refine ⟨rfl, fun k hk => ?_, _, Std.ExtTreeMap.getElem?_insert_self, le_refl _, ?_, fun _ => rfl⟩
    · have hk' : ¬key = k := fun e => hk e.symm
      simp [Std.ExtTreeMap.getElem?_insert, hk']
    · intro e₁ he₁
      rw [hnone] at he₁
      cases he₁

theorem dequeue_eq_item {p p' : PendingActivities} {key : RouteKey} {at' : DateTime} {q : ℕ}
    (h : p.dequeue = .item key at' q p') :
    p'.acceptedThrough = p.acceptedThrough ∧ (∀ k, k ≠ key → p'.byKey[k]? = p.byKey[k]?) ∧
    p'.byKey[key]? = some ⟨at', none, some q⟩ ∧
    ∃ e, p.byKey[key]? = some e ∧ e.latest = at' ∧ e.pendingOldestSequence = some q := by
  unfold dequeue at h
  split at h
  · cases h
  · next k ready hready =>
    split at h
    · next latest oldest inFlight hk =>
      cases h
      refine ⟨rfl, fun k' hk' => ?_, Std.ExtTreeMap.getElem?_insert_self, _, hk, rfl, rfl⟩
      have hne : ¬key = k' := fun e => hk' e.symm
      simp [Std.ExtTreeMap.getElem?_insert, hne]
    · cases h

theorem dequeue_eq_panicked {p p' : PendingActivities} (h : p.dequeue = .panicked p') :
    p'.acceptedThrough = p.acceptedThrough ∧ p'.byKey = p.byKey := by
  unfold dequeue at h
  split at h
  · cases h
  · split at h
    · cases h
    · cases h
      exact ⟨rfl, rfl⟩

theorem complete_spec (p : PendingActivities) (key : RouteKey) :
    (p.complete key).acceptedThrough = p.acceptedThrough ∧
    (∀ k, k ≠ key → (p.complete key).byKey[k]? = p.byKey[k]?) ∧
    ∀ e q, p.byKey[key]? = some e → e.pendingOldestSequence = some q →
      (p.complete key).byKey[key]? = some { e with inFlightOldestSequence := none } := by
  unfold complete
  split
  · next e he =>
    split_ifs with hq
    · refine ⟨rfl, fun k hk => ?_, fun e' q he' _ => ?_⟩
      · have hk' : ¬key = k := fun e => hk e.symm
        simp [Std.ExtTreeMap.getElem?_insert, hk']
      · obtain rfl := Option.some.inj (he.symm.trans he')
        exact Std.ExtTreeMap.getElem?_insert_self
    · refine ⟨rfl, fun k hk => ?_, fun e' q he' hq' => ?_⟩
      · have hk' : ¬key = k := fun e => hk e.symm
        simp [Std.ExtTreeMap.getElem?_erase, hk']
      · obtain rfl := Option.some.inj (he.symm.trans he')
        simp [hq'] at hq
  · next hnone =>
    refine ⟨rfl, fun k hk => ?_, fun e' q he' _ => ?_⟩
    · have hk' : ¬key = k := fun e => hk e.symm
      simp [Std.ExtTreeMap.getElem?_erase, hk']
    · rw [hnone] at he'
      cases he'

theorem complete_pending {p : PendingActivities} {key k : RouteKey} {e : PendingActivity}
    (h : (p.complete key).byKey[k]? = some e) :
    ∃ e₀, p.byKey[k]? = some e₀ ∧ e₀.pendingOldestSequence = e.pendingOldestSequence := by
  by_cases hk : k = key
  · subst hk
    unfold complete at h
    split at h
    · next e₀ he₀ =>
      split_ifs at h
      · simp only [Std.ExtTreeMap.getElem?_insert_self] at h
        obtain rfl := Option.some.inj h
        exact ⟨e₀, he₀, rfl⟩
      · simp at h
    · simp at h
  · exact ⟨e, by rw [← (complete_spec p key).2.1 k hk, h], rfl⟩

/-- Every pending acceptance has a sequence number that was given out. -/
def Numbered (p : PendingActivities) : Prop :=
  ∀ (key : RouteKey) (e : PendingActivity) (q : ℕ),
    p.byKey[key]? = some e → e.pendingOldestSequence = some q →
    q ≤ p.acceptedThrough

theorem numbered_default : default.Numbered := by
  intro key e q he
  simp [default] at he

theorem numbered_enqueue {p p' : PendingActivities} {capacity : ℕ} {key : RouteKey}
    {at' : DateTime} (hn : p.Numbered) (h : p.enqueue capacity key at' = .accepted p') :
    p'.Numbered := by
  obtain ⟨hthrough, hother, e, hkey, -, hkept, hfresh⟩ := enqueue_eq_accepted h
  intro k e' q hk hq
  by_cases hkk : k = key
  · rw [hkk, hkey] at hk
    obtain rfl := Option.some.inj hk
    by_cases hold : ∃ (e₀ : PendingActivity) (q₀ : ℕ), p.byKey[key]? = some e₀ ∧
        e₀.pendingOldestSequence = some q₀
    · obtain ⟨e₀, q₀, he₀, hq₀⟩ := hold
      obtain rfl := Option.some.inj (((hkept e₀ he₀).2.2 q₀ hq₀).symm.trans hq)
      have := hn _ e₀ q₀ he₀ hq₀
      omega
    · have hnew := hfresh fun e₀ q₀ he₀ hq₀ => hold ⟨e₀, q₀, he₀, hq₀⟩
      exact (Option.some.inj (hnew.symm.trans hq)).ge
  · rw [hother k hkk] at hk
    have := hn k e' q hk hq
    omega

theorem numbered_dequeue {p p' : PendingActivities} {key : RouteKey} {at' : DateTime} {q : ℕ}
    (hn : p.Numbered) (h : p.dequeue = .item key at' q p') : p'.Numbered := by
  obtain ⟨hthrough, hother, hkey, -⟩ := dequeue_eq_item h
  intro k e q' hk hq
  by_cases hkk : k = key
  · rw [hkk, hkey] at hk
    obtain rfl := Option.some.inj hk
    cases hq
  · rw [hother k hkk] at hk
    exact hthrough ▸ hn k e q' hk hq

theorem numbered_complete {p : PendingActivities} (hn : p.Numbered) (key : RouteKey) :
    (p.complete key).Numbered := by
  intro k e q hk hq
  obtain ⟨e₀, he₀, hq₀⟩ := complete_pending hk
  rw [(complete_spec p key).1]
  exact hn k e₀ q he₀ (hq₀.trans hq)

/-- The map holds an observation of the route at `at'` or later, accepted no later than `q`. -/
def Queued (key : RouteKey) (at' : DateTime) (q : ℕ) (p : PendingActivities) : Prop :=
  ∃ (e : PendingActivity) (n : ℕ), p.byKey[key]? = some e ∧ at' ≤ e.latest ∧
    e.pendingOldestSequence = some n ∧ n ≤ q

def InFlight (key : RouteKey) (n : ℕ) (p : PendingActivities) : Prop :=
  ∃ e : PendingActivity, p.byKey[key]? = some e ∧ e.inFlightOldestSequence = some n

variable {p p' : PendingActivities} {key k : RouteKey} {at' a : DateTime} {q n capacity : ℕ}

theorem queued_of_enqueue (hn : p.Numbered) (h : p.enqueue capacity key at' = .accepted p') :
    Queued key at' p'.acceptedThrough p' := by
  have hn' := numbered_enqueue hn h
  obtain ⟨-, -, e, hkey, hle, hkept, hfresh⟩ := enqueue_eq_accepted h
  cases hq : e.pendingOldestSequence with
  | some m => exact ⟨e, m, hkey, hle, hq, hn' key e m hkey hq⟩
  | none =>
    have hnew := hfresh fun e₀ q₀ he₀ hq₀ => by
      rw [(hkept e₀ he₀).2.2 q₀ hq₀] at hq
      cases hq
    rw [hq] at hnew
    cases hnew

theorem queued_enqueue (hq : Queued key at' q p) (h : p.enqueue capacity k a = .accepted p') :
    Queued key at' q p' := by
  obtain ⟨e, m, he, hle, hm, hmq⟩ := hq
  obtain ⟨-, hother, e', hkey, -, hkept, -⟩ := enqueue_eq_accepted h
  by_cases hk : key = k
  · subst hk
    obtain ⟨hlatest, -, hpending⟩ := hkept e he
    exact ⟨e', m, hkey, le_trans hle hlatest, hpending m hm, hmq⟩
  · exact ⟨e, m, (hother key hk).trans he, hle, hm, hmq⟩

theorem inFlight_enqueue (hf : InFlight key n p) (h : p.enqueue capacity k a = .accepted p') :
    InFlight key n p' := by
  obtain ⟨e, he, hn⟩ := hf
  obtain ⟨-, hother, e', hkey, -, hkept, -⟩ := enqueue_eq_accepted h
  by_cases hk : key = k
  · subst hk
    exact ⟨e', hkey, (hkept e he).2.1.trans hn⟩
  · exact ⟨e, (hother key hk).trans he, hn⟩

theorem queued_dequeue (hq : Queued key at' q p) (h : p.dequeue = .item k a n p') :
    Queued key at' q p' ∨ k = key ∧ at' ≤ a ∧ n ≤ q ∧ InFlight key n p' := by
  obtain ⟨e, m, he, hle, hm, hmq⟩ := hq
  obtain ⟨-, hother, hkey, e₀, he₀, hlatest, holdest⟩ := dequeue_eq_item h
  by_cases hk : key = k
  · subst hk
    obtain rfl := Option.some.inj (he.symm.trans he₀)
    obtain rfl := Option.some.inj (hm.symm.trans holdest)
    exact .inr ⟨rfl, hlatest ▸ hle, hmq, _, hkey, rfl⟩
  · exact .inl ⟨e, m, (hother key hk).trans he, hle, hm, hmq⟩

theorem queued_complete (hq : Queued key at' q p) (k : RouteKey) :
    Queued key at' q (p.complete k) := by
  obtain ⟨e, m, he, hle, hm, hmq⟩ := hq
  obtain ⟨-, hother, hself⟩ := complete_spec p k
  by_cases hk : key = k
  · subst hk
    exact ⟨_, m, hself e m he hm, hle, hm, hmq⟩
  · exact ⟨e, m, (hother key hk).trans he, hle, hm, hmq⟩

end PendingActivities

end ChpProxy
