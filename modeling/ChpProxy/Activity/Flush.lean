import ChpProxy.Activity.Service
import ChpProxy.Activity.Watermark
import ChpProxy.Store.Memory

/-! What a `flush` call guarantees when it returns, and that it is not held up by what is observed
after it began. -/
namespace ChpProxy.ActivityService

variable {σ ι : Type} {S : Store σ ι} {s s' : ActivityService σ} {registry : Registry σ}
  {capacity : ℕ} {as bs : List (ServiceAction ι)}

theorem flushes_step {a : ServiceAction ι} {f : ℕ} {flush : Flush} (h : step S s a = some s')
    (hf : s.flushes[f]? = some flush) :
    ∃ flush', s'.flushes[f]? = some flush' ∧ flush'.watermark = flush.watermark ∧
      (flush'.phase = .returned → flush.phase = .returned ∨
        s.writer.pending.watermarkIsComplete flush.watermark = true) := by
  have hset : ∀ (g : ℕ) (current : Flush) (phase : FlushPhase), s.flushes[g]? = some current →
      (phase = .returned → s.writer.pending.watermarkIsComplete current.watermark = true) →
      ∃ flush', (s.flushes.set g ⟨current.watermark, phase⟩)[f]? = some flush' ∧
        flush'.watermark = flush.watermark ∧ (flush'.phase = .returned →
          flush.phase = .returned ∨
            s.writer.pending.watermarkIsComplete flush.watermark = true) := by
    intro g current phase hg hphase
    by_cases hgf : g = f
    · subst hgf
      obtain rfl := Option.some.inj (hf.symm.trans hg)
      have hlt : g < s.flushes.length := (List.getElem?_eq_some_iff.mp hg).1
      exact ⟨_, List.getElem?_set_self hlt, rfl, fun hret => .inr (hphase hret)⟩
    · exact ⟨flush, by rw [List.getElem?_set_ne hgf, hf], rfl, .inl⟩
  cases a with
  | writer b =>
    obtain ⟨writer, hs, rfl⟩ := Option.map_eq_some_iff.mp h
    exact ⟨flush, hf, rfl, .inl⟩
  | registry b =>
    obtain ⟨registry, hs, rfl⟩ := Option.map_eq_some_iff.mp h
    exact ⟨flush, hf, rfl, .inl⟩
  | flush =>
    cases h
    have hlt : f < s.flushes.length := (List.getElem?_eq_some_iff.mp hf).1
    exact ⟨flush, (List.getElem?_append_left hlt).trans hf, rfl, .inl⟩
  | check g =>
    simp only [step] at h
    split at h
    · next watermark hg =>
      cases h
      refine hset g _ _ hg fun hret => ?_
      by_contra hc
      rw [if_neg hc] at hret
      cases hret
    · cases h
  | notified g =>
    simp only [step] at h
    split at h
    · next watermark hg =>
      cases h
      apply hset g _ _ hg
      intro hret
      cases hret
    · cases h

theorem covered_run (h : run S (start registry capacity) as = some s) :
    Queueing.AllCovered (history S (start registry capacity) as) s.writer.queueing ∧
      Queueing.Counted (history S (start registry capacity) as) s.writer.queueing := by
  have hinv := history_invariant
    (P := fun l v => v.Intact (max capacity 1) ∧ Queueing.AllCovered l v ∧ Queueing.Counted l v)
    (fun l v e v' hv hs => ⟨hv.1.step hs, hv.2.1.step hv.1 hs, hv.2.2.step hv.1 hs⟩)
    rfl ⟨intact_start registry capacity, nofun, ⟨rfl, ?_⟩⟩ h
  · exact hinv.2.2
  · rintro key n ⟨e, he, -⟩
    simp [start, Writer.start, Writer.queueing, PendingActivities.default] at he

/-- What is known of flush `f` with the watermark `W`, for the observations `l₀` accepted before it
and everything `l` that happened since. -/
structure Flushing (c W f : ℕ) (l₀ l : List QueueEvent) (s : ActivityService σ) : Prop where
  capacity : s.writer.pendingCapacity = c
  intact : s.writer.queueing.Intact c
  covered : ∀ key at', .accepted key at' ∈ l₀ →
    ∃ n, n ≤ W ∧ Queueing.Covered key at' n (l₀ ++ l) s.writer.queueing
  flush : ∃ flush, s.flushes[f]? = some flush ∧ flush.watermark = W ∧ (flush.phase = .returned →
    ∀ key at', .accepted key at' ∈ l₀ → ∃ a, at' ≤ a ∧ .completed key a ∈ l₀ ++ l)

theorem Flushing.step {c W f : ℕ} {l₀ l : List QueueEvent} {a : ServiceAction ι}
    (h : Flushing c W f l₀ l s) (hs : step S s a = some s') :
    Flushing c W f l₀ (l ++ s.events a) s' := by
  obtain ⟨hcap, hq⟩ := queueing_step hs
  rw [h.capacity] at hcap hq
  obtain ⟨flush, hf, hwatermark, hdone⟩ := h.flush
  obtain ⟨flush', hf', hwatermark', hreturned⟩ := flushes_step hs hf
  refine ⟨hcap, h.intact.step hq, fun key at' hmem => ?_, flush', hf',
    hwatermark'.trans hwatermark, fun hret key at' hmem => ?_⟩
  · obtain ⟨n, hn, hc⟩ := h.covered key at' hmem
    rw [← List.append_assoc]
    exact ⟨n, hn, hc.step h.intact hq⟩
  · have hcompleted : ∃ a, at' ≤ a ∧ .completed key a ∈ l₀ ++ l := by
      rcases hreturned hret with hret | hc
      · exact hdone hret key at' hmem
      · obtain ⟨n, hn, hcov⟩ := h.covered key at' hmem
        rw [hwatermark] at hc
        exact hcov.completed_of hc hn
    obtain ⟨a, ha, hin⟩ := hcompleted
    rw [← List.append_assoc]
    exact ⟨a, ha, List.mem_append_left _ hin⟩

theorem flushed_run {bs : List (ServiceAction ι)} {flush : Flush}
    (h : run S (start registry capacity) as = some s) (h' : run S s (.flush :: bs) = some s')
    (hf : s'.flushes[s.flushes.length]? = some flush) (hret : flush.phase = .returned)
    {key : RouteKey} {at' : DateTime}
    (hacc : .accepted key at' ∈ history S (start registry capacity) as) :
    ∃ a, at' ≤ a ∧
      .completed key a ∈ history S (start registry capacity) (as ++ .flush :: bs) := by
  obtain ⟨hcap, hi⟩ := intact_run h
  obtain ⟨s₁, hs₁, hrun⟩ := (Transition.run_cons_eq_some_iff _).mp h'
  have hstart : Flushing (max capacity 1) s.writer.pending.acceptedThrough s.flushes.length
      (history S (start registry capacity) as) [] s₁ := by
    obtain rfl := Option.some.inj hs₁
    refine ⟨hcap, hi, fun key at' hmem => ?_, ⟨_, .checking⟩, by simp, rfl, nofun⟩
    rw [List.append_nil]
    exact (covered_run h).1 key at' hmem
  have hend := Transition.trace_invariant (fun l t a t' ht hs => ht.step hs) hstart hrun
  obtain ⟨flush', hf', -, hdone⟩ := hend.flush
  obtain rfl := Option.some.inj (hf.symm.trans hf')
  have hhistory : history S (start registry capacity) (as ++ .flush :: bs) =
      history S (start registry capacity) as ++ history S s₁ bs := by
    rw [history, Transition.trace_append _ h]
    simp [Transition.trace, hs₁, events]
  rw [hhistory]
  exact hdone hret key at' hacc

theorem acceptedThrough_le_run {c : ℕ} (hcap : s.writer.pendingCapacity = c)
    (hi : s.writer.queueing.Intact c) (h : run S s bs = some s') :
    s.writer.pending.acceptedThrough ≤ s'.writer.pending.acceptedThrough := by
  have hinv := history_invariant
    (P := fun _ v => v.Intact c ∧ s.writer.pending.acceptedThrough ≤ v.pending.acceptedThrough)
    ?_ hcap ⟨hi, le_refl _⟩ h
  · exact hinv.2.2
  · rintro l v e v' ⟨hv, hle⟩ hs
    have := Queueing.acceptedThrough_step hv hs
    exact ⟨hv.step hs, by omega⟩

/-- What was accepted up to the watermark is done, or the routes settled so far bring its end
closer. -/
theorem draining_run {c W : ℕ} (hcap : s.writer.pendingCapacity = c)
    (hi : s.writer.queueing.Intact c) (hW : W ≤ s.writer.pending.acceptedThrough)
    (h : run S s bs = some s') :
    s'.writer.pending.watermarkIsComplete W = true ∨
      (history S s bs).countP QueueEvent.isSettled + s'.writer.queueing.rank W c ≤ c + 1 := by
  have hinv := history_invariant
    (P := fun l v => v.Intact c ∧ W ≤ v.pending.acceptedThrough ∧
      (v.pending.watermarkIsComplete W = true ∨
        l.countP QueueEvent.isSettled + v.rank W c ≤ c + 1)) ?_ hcap
    ⟨hi, hW, .inr ((Nat.zero_add _).trans_le (Queueing.rank_le hi))⟩ h
  · exact hinv.2.2.2
  · rintro l v e v' ⟨hv, hle, hd⟩ hs
    refine ⟨hv.step hs, ?_, ?_⟩
    · have := Queueing.acceptedThrough_step hv hs
      omega
    · rcases hd with hc | hd
      · exact .inl (Queueing.watermarkIsComplete_step hv hle hs hc)
      · cases hc : v'.pending.watermarkIsComplete W with
        | true => exact .inl rfl
        | false =>
          have hrank := Queueing.rank_step hv hle hs hc
          rw [List.countP_append]
          exact .inr (by omega)

theorem complete_run {c W : ℕ} (hcap : s.writer.pendingCapacity = c)
    (hi : s.writer.queueing.Intact c) (hW : W ≤ s.writer.pending.acceptedThrough)
    (hc : s.writer.pending.watermarkIsComplete W = true) (h : run S s bs = some s') :
    s'.writer.pending.watermarkIsComplete W = true := by
  have hinv := history_invariant
    (P := fun _ v => v.Intact c ∧ W ≤ v.pending.acceptedThrough ∧
      v.pending.watermarkIsComplete W = true) ?_ hcap ⟨hi, hW, hc⟩ h
  · exact hinv.2.2.2
  · rintro l v e v' ⟨hv, hle, hc⟩ hs
    have := Queueing.acceptedThrough_step hv hs
    exact ⟨hv.step hs, by omega, Queueing.watermarkIsComplete_step hv hle hs hc⟩

theorem pending_of_incomplete (h : run S (start registry capacity) as = some s)
    (h' : run S s bs = some s')
    (hc : s'.writer.pending.watermarkIsComplete s.writer.pending.acceptedThrough = false) :
    ∃ key at' n, 1 ≤ n ∧
      (QueueEvent.acceptances (history S (start registry capacity) as))[n - 1]? = some (key, at') ∧
      s'.writer.pending.Numbers key n := by
  have hwhole : run S (start registry capacity) (as ++ bs) = some s' :=
    (Transition.run_append_eq_some_iff _).mpr ⟨s, h, h'⟩
  have hthrough : (QueueEvent.acceptances (history S (start registry capacity) as)).length =
      s.writer.pending.acceptedThrough := (covered_run h).2.through
  have hnumber := (covered_run hwhole).2.number
  have hleft : ∃ key n, s'.writer.pending.Numbers key n ∧ n ≤ s.writer.pending.acceptedThrough := by
    by_contra hnone
    have hcomplete : s'.writer.pending.watermarkIsComplete s.writer.pending.acceptedThrough =
        true := by
      rw [PendingActivities.watermarkIsComplete_iff]
      intro key n hn
      by_contra hle
      exact hnone ⟨key, n, hn, by omega⟩
    rw [hcomplete] at hc
    cases hc
  obtain ⟨key, n, hn, hle⟩ := hleft
  obtain ⟨hpos, at', hat⟩ := hnumber key n hn
  have hsplit : QueueEvent.acceptances (history S (start registry capacity) (as ++ bs)) =
      QueueEvent.acceptances (history S (start registry capacity) as) ++
        QueueEvent.acceptances (history S s bs) := by
    rw [history, Transition.trace_append _ h]
    exact List.filterMap_append
  have hlt : n - 1 < (QueueEvent.acceptances (history S (start registry capacity) as)).length := by
    omega
  rw [hsplit, List.getElem?_append_left hlt] at hat
  exact ⟨key, at', n, hpos, hat, hn⟩

/-- The worker persists the observation that a flush waits for, and the route is observed again
meanwhile. -/
def persistingOnce (key : RouteKey) : List (ServiceAction DateTime) :=
  [.check 0, .writer (.notify 0), .writer .recv, .writer .dequeue, .writer .persist] ++
    recording 1 key 9 ++ mutating 0 0 ++
    [.writer .persisted, .writer .complete, .notified 0, .check 0]

end ChpProxy.ActivityService
