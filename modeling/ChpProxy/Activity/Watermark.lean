import ChpProxy.Activity.Queueing

/-! The condition `flush` waits for, and how far the worker is from it. -/
namespace ChpProxy

namespace PendingActivities

variable {p p' : PendingActivities} {W capacity : ℕ} {key k : RouteKey} {at' : DateTime} {q : ℕ}
  {held : Option RouteKey}

def Numbers (key : RouteKey) (n : ℕ) (p : PendingActivities) : Prop :=
  ∃ e, p.byKey[key]? = some e ∧
    (e.pendingOldestSequence = some n ∨ e.inFlightOldestSequence = some n)

theorem watermarkIsComplete_iff :
    p.watermarkIsComplete W = true ↔ ∀ k n, p.Numbers k n → W < n := by
  unfold watermarkIsComplete
  rw [List.all_eq_true]
  constructor
  · rintro h k n ⟨e, he, hn⟩
    have hall := h (k, e) (Std.ExtTreeMap.mem_toList_iff_getElem?_eq_some.mpr he)
    obtain ⟨hinFlight, hpending⟩ := Bool.and_eq_true_iff.mp hall
    rcases hn with hn | hn
    · simpa [hn] using hpending
    · simpa [hn] using hinFlight
  · rintro h ⟨k, e⟩ hmem
    have he := Std.ExtTreeMap.mem_toList_iff_getElem?_eq_some.mp hmem
    apply Bool.and_eq_true_iff.mpr
    constructor
    · cases hn : e.inFlightOldestSequence with
      | none => rfl
      | some n => simpa using h k n ⟨e, he, .inr hn⟩
    · cases hn : e.pendingOldestSequence with
      | none => rfl
      | some n => simpa using h k n ⟨e, he, .inl hn⟩

theorem numbers_enqueue {n : ℕ} (he : p.enqueue capacity key at' = .accepted p')
    (hn : p'.Numbers k n) : p.Numbers k n ∨ k = key ∧ n = p.acceptedThrough + 1 := by
  obtain ⟨e', he', hn⟩ := hn
  by_cases hk : k = key
  · subst hk
    rcases enqueue_cases he with ⟨e, hkey, rfl⟩ | ⟨hnone, -, rfl⟩
    · obtain rfl := Option.some.inj (Std.ExtTreeMap.getElem?_insert_self.symm.trans he')
      rcases hn with hn | hn
      · cases ho : e.pendingOldestSequence with
        | none =>
          have hnew : p.acceptedThrough + 1 = n := by simpa [ho] using hn
          exact .inr ⟨rfl, hnew.symm⟩
        | some m =>
          have hm : m = n := by simpa [ho] using hn
          exact .inl ⟨e, hkey, .inl (hm ▸ ho)⟩
      · exact .inl ⟨e, hkey, .inr hn⟩
    · obtain rfl := Option.some.inj (Std.ExtTreeMap.getElem?_insert_self.symm.trans he')
      rcases hn with hn | hn
      · exact .inr ⟨rfl, (Option.some.inj hn).symm⟩
      · cases hn
  · obtain ⟨-, hother, -⟩ := enqueue_eq_accepted he
    rw [hother k hk] at he'
    exact .inl ⟨e', he', hn⟩

theorem numbers_dequeue {n : ℕ} (hd : p.dequeue = .item key at' q p') (hn : p'.Numbers k n) :
    p.Numbers k n := by
  obtain ⟨-, hother, hkey, e, he, -, hq⟩ := dequeue_eq_item hd
  obtain ⟨e', he', hn⟩ := hn
  by_cases hk : k = key
  · rw [hk, hkey] at he'
    obtain rfl := Option.some.inj he'
    rcases hn with hn | hn
    · cases hn
    · have hqn : q = n := Option.some.inj hn
      exact hk ▸ ⟨e, he, .inl (hqn ▸ hq)⟩
  · rw [hother k hk] at he'
    exact ⟨e', he', hn⟩

theorem numbers_complete {n : ℕ} (hn : (p.complete key).Numbers k n) : p.Numbers k n := by
  obtain ⟨e', he', hn⟩ := hn
  by_cases hk : k = key
  · subst hk
    unfold complete at he'
    split at he'
    · next e hkey =>
      split_ifs at he'
      · obtain rfl := Option.some.inj (Std.ExtTreeMap.getElem?_insert_self.symm.trans he')
        rcases hn with hn | hn
        · exact ⟨e, hkey, .inl hn⟩
        · cases hn
      · simp at he'
    · simp at he'
  · rw [(complete_spec p key).2.1 k hk] at he'
    exact ⟨e', he', hn⟩

/-- The route has an acceptance up to the watermark that the worker has not taken. -/
def old (W : ℕ) (p : PendingActivities) (k : RouteKey) : Bool :=
  (p.byKey[k]?).any (·.pendingOldestSequence.any (· ≤ W))

theorem old_eq_true_iff :
    p.old W k = true ↔ ∃ e n, p.byKey[k]? = some e ∧ e.pendingOldestSequence = some n ∧ n ≤ W := by
  unfold old
  cases p.byKey[k]? with
  | none => simp
  | some e => cases hn : e.pendingOldestSequence <;> simp [hn]

theorem old_enqueue (hW : W ≤ p.acceptedThrough)
    (he : p.enqueue capacity key at' = .accepted p') (k : RouteKey) : p'.old W k = p.old W k := by
  by_cases hk : k = key
  · subst hk
    have hnew : ¬p.acceptedThrough + 1 ≤ W := by omega
    rcases enqueue_cases he with ⟨e, hkey, rfl⟩ | ⟨hnone, -, rfl⟩
    · cases hn : e.pendingOldestSequence <;> simp [old, hkey, hn, hnew]
    · simp [old, hnone, hnew]
  · obtain ⟨-, hother, -⟩ := enqueue_eq_accepted he
    simp only [old, hother k hk]

theorem old_dequeue (hd : p.dequeue = .item key at' q p') (k : RouteKey) :
    p'.old W k = (k ≠ key && p.old W k) := by
  obtain ⟨-, hother, hkey, -⟩ := dequeue_eq_item hd
  by_cases hk : k = key
  · simp [old, hk, hkey]
  · simp [old, hk, hother k hk]

theorem old_complete (k : RouteKey) : (p.complete key).old W k = p.old W k := by
  obtain ⟨-, hother, hself⟩ := complete_spec p key
  by_cases hk : k = key
  · subst hk
    cases hkey : p.byKey[k]? with
    | none => simp [old, complete, hkey]
    | some e =>
      cases hn : e.pendingOldestSequence with
      | none => simp [old, complete, hkey, hn]
      | some n => simp [old, hself e n hkey hn, hkey, hn]
  · simp only [old, hother k hk]

/-- The queue up to the last key that satisfies `f`. -/
def reach (f : RouteKey → Bool) : List RouteKey → ℕ
  | [] => 0
  | k :: ks => if f k || decide (0 < reach f ks) then reach f ks + 1 else 0

variable {f g : RouteKey → Bool} {ks : List RouteKey}

theorem reach_le_length (f : RouteKey → Bool) (ks : List RouteKey) : reach f ks ≤ ks.length := by
  induction ks with
  | nil => exact le_refl _
  | cons k ks ih =>
    unfold reach
    rw [List.length_cons]
    split_ifs
    · omega
    · omega

theorem reach_pos_iff : 0 < reach f ks ↔ ∃ k ∈ ks, f k = true := by
  induction ks with
  | nil => simp [reach]
  | cons k ks ih =>
    unfold reach
    by_cases hk : f k = true
    · simp [hk]
    · by_cases hks : 0 < reach f ks
      · simp [hks, ih.mp hks]
      · simp [hk, hks, ← ih]

theorem reach_cons_of_pos (h : 0 < reach f (k :: ks)) : reach f (k :: ks) = reach f ks + 1 := by
  by_cases hc : (f k || decide (0 < reach f ks)) = true
  · rw [reach, if_pos hc]
  · rw [reach, if_neg hc] at h
    exact absurd h (lt_irrefl 0)

theorem reach_concat_of_not (h : f k = false) : reach f (ks ++ [k]) = reach f ks := by
  induction ks with
  | nil => simp [reach, h]
  | cons k' ks ih => simp only [List.cons_append, reach, ih]

theorem reach_congr (h : ∀ k ∈ ks, f k = g k) : reach f ks = reach g ks := by
  induction ks with
  | nil => rfl
  | cons k ks ih =>
    have htail := ih fun k' hk' => h k' (List.mem_cons_of_mem k hk')
    simp only [reach, htail, h k List.mem_cons_self]

theorem WellFormed.length_ready_le (h : p.WellFormed capacity held) :
    p.ready.length ≤ capacity := by
  have hsub : p.ready ⊆ p.byKey.keys := by
    intro k hk
    rw [Std.ExtTreeMap.mem_keys, Std.ExtTreeMap.mem_iff_isSome_getElem?]
    cases hkey : p.byKey[k]? with
    | none => exact absurd hk ((h.located k).absent hkey).1
    | some e => rfl
  have hlen := h.nodup.length_le_of_subset hsub
  rw [Std.ExtTreeMap.length_keys] at hlen
  exact hlen.trans h.size_le

end PendingActivities

namespace Queueing

open PendingActivities

variable {W capacity : ℕ} {v v' : Queueing} {e l : List QueueEvent} {key : RouteKey}
  {at' : DateTime} {n : ℕ}

/-- How many routes the worker has to settle until nothing up to the watermark is left. A held
route that was observed again before the watermark goes to the end of the queue, behind whatever
arrives until then. -/
def rank (W capacity : ℕ) (v : Queueing) : ℕ :=
  match v.worker.held with
  | none => reach (v.pending.old W) v.pending.ready
  | some key => if v.pending.old W key then capacity + 1
    else reach (v.pending.old W) v.pending.ready + 1

theorem rank_le (h : v.Intact capacity) : v.rank W capacity ≤ capacity + 1 := by
  have hlen := h.queue.length_ready_le
  have hreach := reach_le_length (v.pending.old W) v.pending.ready
  unfold rank
  split
  · omega
  · split_ifs
    · omega
    · omega

theorem rank_pos (h : v.Intact capacity) (hW : v.pending.watermarkIsComplete W = false) :
    0 < v.rank W capacity := by
  unfold rank
  cases hheld : v.worker.held with
  | some key =>
    dsimp only
    split_ifs <;> omega
  | none =>
    have hq := h.queue
    rw [hheld] at hq
    rw [reach_pos_iff]
    by_contra hnone
    have hcomplete : v.pending.watermarkIsComplete W = true := by
      rw [watermarkIsComplete_iff]
      rintro k m ⟨⟨latest, pending, inFlight⟩, he, hm⟩
      cases inFlight with
      | some m => cases ((hq.located k).inFlight he).2
      | none =>
        have hm' : pending = some m := hm.resolve_right nofun
        by_contra hle
        have hold : v.pending.old W k = true :=
          old_eq_true_iff.mpr ⟨_, m, he, hm', by omega⟩
        exact hnone ⟨k, ((hq.located k).waiting he).1, hold⟩
    rw [hcomplete] at hW
    cases hW

theorem numbers_step (hi : v.Intact capacity) (hs : Step capacity v e v')
    (hn : v'.pending.Numbers key n) :
    v.pending.Numbers key n ∨
      n = v.pending.acceptedThrough + 1 ∧ ∃ at', QueueEvent.acceptances e = [(key, at')] := by
  cases hs with
  | accepted k a pending he =>
    rcases numbers_enqueue he hn with hold | ⟨rfl, hnew⟩
    · exact .inl hold
    · exact .inr ⟨hnew, a, rfl⟩
  | dequeued k a m pending hw hd => exact .inl (numbers_dequeue hd hn)
  | panicked pending hw hd => exact absurd hd (hi.queue.dequeue_ne_panicked pending)
  | complete k m hw => exact .inl (numbers_complete hn)
  | _ => exact .inl hn

/-- Once the condition holds it holds for good, whatever is observed afterwards. -/
theorem watermarkIsComplete_step (hi : v.Intact capacity) (hW : W ≤ v.pending.acceptedThrough)
    (hs : Step capacity v e v') (hc : v.pending.watermarkIsComplete W = true) :
    v'.pending.watermarkIsComplete W = true := by
  rw [watermarkIsComplete_iff] at hc ⊢
  intro k n hn
  rcases numbers_step hi hs hn with hold | ⟨rfl, -⟩
  · exact hc k n hold
  · omega

/-- Whatever else happens, each settled route brings the worker closer to the watermark. -/
theorem rank_step (h : v.Intact capacity) (hW : W ≤ v.pending.acceptedThrough)
    (hs : Step capacity v e v') (hleft : v'.pending.watermarkIsComplete W = false) :
    e.countP QueueEvent.isSettled + v'.rank W capacity ≤ v.rank W capacity := by
  have h' := h.step hs
  have hbefore : v.pending.watermarkIsComplete W = false := by
    cases hc : v.pending.watermarkIsComplete W with
    | false => rfl
    | true => exact absurd (watermarkIsComplete_step h hW hs hc) (by simp [hleft])
  cases hs with
  | other requests hr => exact (Nat.zero_add _).le
  | accepted key at' pending he =>
    have hold : pending.old W = v.pending.old W := funext (old_enqueue hW he)
    have hready : reach (v.pending.old W) pending.ready =
        reach (v.pending.old W) v.pending.ready := by
      rcases enqueue_cases he with ⟨e, hkey, rfl⟩ | ⟨hnone, -, rfl⟩
      · rfl
      · exact reach_concat_of_not (by simp [old, hnone])
    show 0 + rank W capacity { v with pending := pending } ≤ _
    simp only [rank, hold, hready, Nat.zero_add, le_refl]
  | recv hw =>
    simp [rank, hw, WorkerPhase.held]
  | idle hw hd =>
    simp [rank, hw, WorkerPhase.held]
  | dequeued key at' sequence pending hw hd =>
    have hpos := rank_pos h hbefore
    obtain ⟨ready, inFlight, hready, -, rfl⟩ := dequeue_cases hd
    have hnot : key ∉ ready := (List.nodup_cons.mp (hready ▸ h.queue.nodup)).1
    have hrest : reach (fun k => k ≠ key && v.pending.old W k) ready =
        reach (v.pending.old W) ready := by
      apply reach_congr
      intro k hk
      have hne : k ≠ key := fun heq => hnot (heq ▸ hk)
      simp [hne]
    simp only [rank, hw, WorkerPhase.held, hready] at hpos ⊢
    rw [reach_cons_of_pos hpos, funext (old_dequeue hd), hrest]
    simp [QueueEvent.isSettled]
  | panicked pending hw hd => exact absurd hd (h.queue.dequeue_ne_panicked pending)
  | admitted key at' sequence hw =>
    simp [rank, hw, WorkerPhase.held, QueueEvent.isSettled]
  | refused key at' sequence hw =>
    simp [rank, hw, WorkerPhase.held, QueueEvent.isSettled]
  | persisted i key sequence request hw hr =>
    have hcount : (QueueEvent.completion request).countP QueueEvent.isSettled = 0 := by
      cases request <;> rfl
    rw [hcount]
    simp [rank, hw, WorkerPhase.held]
  | complete key sequence hw =>
    have hlen := h'.queue.length_ready_le
    have hreach := reach_le_length (v.pending.old W) (v.pending.complete key).ready
    have hcount : [QueueEvent.settled key].countP QueueEvent.isSettled = 1 := rfl
    rw [hcount]
    have hkept : (v.pending.complete key).old W = v.pending.old W := funext old_complete
    simp only [rank, hw, WorkerPhase.held, hkept]
    split_ifs with hold
    · change (v.pending.complete key).ready.length ≤ capacity at hlen
      omega
    · have hsame : reach (v.pending.old W) (v.pending.complete key).ready =
          reach (v.pending.old W) v.pending.ready := by
        unfold complete
        split
        · split_ifs
          · exact reach_concat_of_not (by simpa using hold)
          · rfl
        · rfl
      omega

theorem acceptedThrough_step (h : v.Intact capacity) (hs : Step capacity v e v') :
    v'.pending.acceptedThrough = v.pending.acceptedThrough + (QueueEvent.acceptances e).length := by
  cases hs with
  | accepted key at' pending he => exact (enqueue_eq_accepted he).1
  | dequeued key at' sequence pending hw hd => exact (dequeue_eq_item hd).1
  | panicked pending hw hd => exact absurd hd (h.queue.dequeue_ne_panicked pending)
  | complete key sequence hw => exact (complete_spec v.pending key).1
  | persisted i key sequence request hw hr => cases request <;> rfl
  | _ => rfl

/-- Where an observation is that was accepted as number `n`: it waits, or the worker has taken it
and works on a call that carries its timestamp or a later one, or such a call has completed. -/
inductive Covered (key : RouteKey) (at' : DateTime) (n : ℕ) (l : List QueueEvent) (v : Queueing) :
    Prop
  | queued (h : Queued key at' n v.pending)
  | dequeued (a : DateTime) (m : ℕ) (hw : v.worker = .dequeued key a m) (ha : at' ≤ a)
      (hm : m ≤ n) (hf : InFlight key m v.pending)
  | persisting (i : ℕ) (a : DateTime) (m : ℕ) (hw : v.worker = .persisting i key m)
      (hr : v.requests[i]? = some (.persistObservedActivity key a)) (ha : at' ≤ a) (hm : m ≤ n)
      (hf : InFlight key m v.pending)
  | completed (a : DateTime) (ha : at' ≤ a) (h : .completed key a ∈ l)

theorem Covered.step (h : Covered key at' n l v) (hi : v.Intact capacity)
    (hs : Step capacity v e v') : Covered key at' n (l ++ e) v' := by
  cases h with
  | completed a ha h => exact .completed a ha (List.mem_append_left e h)
  | queued hq =>
    cases hs with
    | accepted k a pending he => exact .queued (queued_enqueue hq he)
    | dequeued k a m pending hw hd =>
      rcases queued_dequeue hq hd with hq' | ⟨rfl, hle, hm, hf⟩
      · exact .queued hq'
      · exact .dequeued a m rfl hle hm hf
    | panicked pending hw hd => exact absurd hd (hi.queue.dequeue_ne_panicked pending)
    | complete k m hw => exact .queued (queued_complete hq k)
    | _ => exact .queued hq
  | dequeued a m hw ha hm hf =>
    cases hs with
    | other requests hr => exact .dequeued a m hw ha hm hf
    | accepted k b pending he => exact .dequeued a m hw ha hm (inFlight_enqueue hf he)
    | admitted k b m' hw' =>
      obtain ⟨rfl, rfl, rfl⟩ : k = key ∧ b = a ∧ m' = m := by simpa [hw'] using hw
      exact .persisting _ b m' rfl (by simp) ha hm hf
    | refused k b m' hw' =>
      obtain ⟨rfl, rfl, rfl⟩ : k = key ∧ b = a ∧ m' = m := by simpa [hw'] using hw
      exact .completed b ha (by simp)
    | recv hw' | idle hw' _ | dequeued _ _ _ _ hw' _ | panicked _ hw' _ | persisted _ _ _ _ hw' _
    | complete _ _ hw' => cases hw.symm.trans hw'
  | persisting i a m hw hr ha hm hf =>
    cases hs with
    | other requests hp => exact .persisting i a m hw (request_kept hp hr) ha hm hf
    | accepted k b pending he => exact .persisting i a m hw hr ha hm (inFlight_enqueue hf he)
    | persisted i' k m' request hw' hr' =>
      obtain ⟨rfl, rfl, rfl⟩ : i' = i ∧ k = key ∧ m' = m := by simpa [hw'] using hw
      obtain rfl := Option.some.inj (hr'.symm.trans hr)
      exact .completed a ha (by simp [QueueEvent.completion])
    | recv hw' | idle hw' _ | dequeued _ _ _ _ hw' _ | panicked _ hw' _ | admitted _ _ _ hw'
    | refused _ _ _ hw' | complete _ _ hw' => cases hw.symm.trans hw'

theorem Covered.completed_of (h : Covered key at' n l v)
    (hc : v.pending.watermarkIsComplete W = true) (hn : n ≤ W) :
    ∃ a, at' ≤ a ∧ .completed key a ∈ l := by
  rw [watermarkIsComplete_iff] at hc
  have hflight : ∀ m, m ≤ n → ¬InFlight key m v.pending := by
    rintro m hm ⟨e, he, hf⟩
    have := hc key m ⟨e, he, .inr hf⟩
    omega
  cases h with
  | completed a ha h => exact ⟨a, ha, h⟩
  | queued hq =>
    obtain ⟨e, m, he, -, hm, hle⟩ := hq
    have := hc key m ⟨e, he, .inl hm⟩
    omega
  | dequeued a m hw ha hm hf => exact absurd hf (hflight m hm)
  | persisting i a m hw hr ha hm hf => exact absurd hf (hflight m hm)

def AllCovered (l : List QueueEvent) (v : Queueing) : Prop :=
  ∀ key at', .accepted key at' ∈ l → ∃ n, n ≤ v.pending.acceptedThrough ∧ Covered key at' n l v

theorem AllCovered.step (h : AllCovered l v) (hi : v.Intact capacity)
    (hs : Step capacity v e v') : AllCovered (l ++ e) v' := by
  intro key at' hmem
  have hthrough := acceptedThrough_step hi hs
  rcases List.mem_append.mp hmem with hold | hnew
  · obtain ⟨n, hn, hc⟩ := h key at' hold
    exact ⟨n, by omega, hc.step hi hs⟩
  · cases hs with
    | accepted k a pending he =>
      obtain ⟨rfl, rfl⟩ : key = k ∧ at' = a := by simpa using hnew
      exact ⟨_, le_refl _, .queued (queued_of_enqueue hi.numbered he)⟩
    | persisted i k m request hw hr => cases request <;> simp [QueueEvent.completion] at hnew
    | _ => simp at hnew

structure Counted (l : List QueueEvent) (v : Queueing) : Prop where
  through : (QueueEvent.acceptances l).length = v.pending.acceptedThrough
  number : ∀ key n, v.pending.Numbers key n →
    1 ≤ n ∧ ∃ at', (QueueEvent.acceptances l)[n - 1]? = some (key, at')

theorem Counted.step (h : Counted l v) (hi : v.Intact capacity) (hs : Step capacity v e v') :
    Counted (l ++ e) v' := by
  have happ : QueueEvent.acceptances (l ++ e) =
      QueueEvent.acceptances l ++ QueueEvent.acceptances e := List.filterMap_append
  have hthrough := h.through
  constructor
  · rw [happ, List.length_append, hthrough, acceptedThrough_step hi hs]
  · intro key n hn
    rw [happ]
    rcases numbers_step hi hs hn with hold | ⟨rfl, at', he⟩
    · obtain ⟨hpos, at', hat⟩ := h.number key n hold
      have hlt : n - 1 < (QueueEvent.acceptances l).length := (List.getElem?_eq_some_iff.mp hat).1
      exact ⟨hpos, at', by rw [List.getElem?_append_left hlt, hat]⟩
    · refine ⟨by omega, at', ?_⟩
      rw [Nat.add_sub_cancel, ← hthrough, he]
      simp

end Queueing

end ChpProxy
