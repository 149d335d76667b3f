import ChpProxy.Activity.Persistence
import ChpProxy.Activity.Writer

/-! The way of one accepted observation through the activity writer: it waits in the pending map,
is taken by the worker, is admitted by the registry, and is stored. -/
namespace ChpProxy

namespace Writer

variable {σ ι : Type} {S : Store σ ι} {w w' : Writer σ} {a : WriterAction ι}

/-- What a step of the writer does with its registry. -/
def does (w : Writer σ) : WriterAction ι → Option (Action ι)
  | .registry b => some b
  | .record key at' => some (.observe key at')
  | .persist => match w.worker with
    | .dequeued key at' _ => some (.begin (.persistObservedActivity key at'))
    | _ => none
  | _ => none

theorem registry_advance (h : step S w a = some w') :
    w.registry.advance S (w.does a) = some w'.registry := by
  cases step_cases h with
  | registry b registry hallow hs => exact hs
  | record key at' registry hs => exact hs
  | admitted key at' sequence registry hw hs hl => simpa [does, hw, Registry.advance] using hs
  | refused key at' sequence registry hw hs hl => simpa [does, hw, Registry.advance] using hs
  | _ => rfl

theorem numbered_step (hn : w.pending.Numbered) (h : step S w a = some w') :
    w'.pending.Numbered := by
  cases step_cases h with
  | accepted r recorder pending hr hp he => exact PendingActivities.numbered_enqueue hn he
  | dequeue key at' sequence pending hw hd => exact PendingActivities.numbered_dequeue hn hd
  | panicked pending hw hd =>
    obtain ⟨hthrough, hby⟩ := PendingActivities.dequeue_eq_panicked hd
    intro k e q hk hq
    change pending.byKey[k]? = some e at hk
    rw [hby] at hk
    exact hthrough ▸ hn k e q hk hq
  | complete key sequence hw => exact PendingActivities.numbered_complete hn key
  | _ => exact hn

/-- The registry has admitted the observation `(key, at')` accepted as number `q`, or the store
holds it. -/
inductive Admitted (K : S.ActivityContract) (key : RouteKey) (at' : DateTime) (q : ℕ)
    (w : Writer σ) : Prop
  | persisting (i n : ℕ) (hw : w.worker = .persisting i key n) (hn : n ≤ q)
      (hf : PendingActivities.InFlight key n w.pending)
      (hp : Registry.Persisting key at' i w.registry)
  | stored (h : w.registry.core.Stored K key at')

inductive Progress (K : S.ActivityContract) (key : RouteKey) (at' : DateTime) (q : ℕ)
    (w : Writer σ) : Prop
  | queued (h : PendingActivities.Queued key at' q w.pending)
  | dequeued (a : DateTime) (n : ℕ) (hw : w.worker = .dequeued key a n) (ha : at' ≤ a) (hn : n ≤ q)
      (hf : PendingActivities.InFlight key n w.pending)
  | admitted (h : Admitted K key at' q w)

/-- The registry has not yet admitted an observation of the route accepted as number `q`. -/
def unadmitted (key : RouteKey) (q : ℕ) (w : Writer σ) : Bool :=
  (w.pending.byKey[key]?).any (·.pendingOldestSequence.any (· ≤ q)) ||
    match w.worker with
    | .dequeued k _ n => k = key && n ≤ q
    | _ => false

variable {K : S.ActivityContract} {key : RouteKey} {at' : DateTime} {q : ℕ}

theorem Progress.admitted_of (h : Progress K key at' q w) (hu : w.unadmitted key q = false) :
    Admitted K key at' q w := by
  obtain ⟨hpending, hworker⟩ := Bool.or_eq_false_iff.mp hu
  cases h with
  | queued h =>
    obtain ⟨e, n, he, -, hn, hle⟩ := h
    simp [he, hn, hle] at hpending
  | dequeued a n hw ha hn hf => simp [hw, hn] at hworker
  | admitted h => exact h

theorem admitted_step (h : w.registry.Keeps K key at') (ha : Admitted K key at' q w)
    (hs : step S w a = some w')
    (hd : Registry.disturbs S key at' w.registry (w.does a) = false) :
    Admitted K key at' q w' := by
  have hadv := registry_advance hs
  cases ha with
  | stored hst => exact .stored (Registry.stored_advance h hst hadv hd)
  | persisting i n hw hn hf hp =>
    have go : w'.worker = w.worker → PendingActivities.InFlight key n w'.pending →
        w.does a ≠ some (.runtimeUnavailable i) → Admitted K key at' q w' := by
      intro hw' hf' hrt
      rcases Registry.persisting_advance h hp hadv hd hrt with hp' | hst
      · exact .persisting i n (hw'.trans hw) hn hf' hp'
      · exact .stored hst
    cases step_cases hs with
    | registry b registry hallow _ =>
      refine go rfl hf ?_
      rintro he
      obtain rfl := Option.some.inj he
      simp [Allows, hw] at hallow
    | record key at' registry _ => exact go rfl hf (by simp [does])
    | observed _ _ _ _ _ _ _ _ _ | dropped _ _ _ _ _ | exhausted _ _ _ _ _ | closed _ _ _ _ _
    | notify _ _ _ _ _ => exact go rfl hf (by simp [does])
    | accepted r recorder pending hr hp he =>
      exact go rfl (PendingActivities.inFlight_enqueue hf he) (by simp [does])
    | persisted i' key' n' m result errors hw' hm hc =>
      obtain ⟨rfl, -, -⟩ : i' = i ∧ key' = key ∧ n' = n := by simpa [hw'] using hw
      obtain ⟨m', req, hm', -, -, hu⟩ := hp
      obtain rfl := Option.some.inj (hm.symm.trans hm')
      have hans := h.callers i' m hm result (.inr hc)
      rw [Phase.not_answered_of_uncommitted hu] at hans
      cases hans
    | recv hw' _ | idle hw' _ | dequeue _ _ _ _ hw' _ | panicked _ hw' _ | admitted _ _ _ _ hw' _ _
    | refused _ _ _ _ hw' _ _ | complete _ _ hw' =>
      rw [hw] at hw'
      cases hw'

theorem progress_step (h : w.registry.Keeps K key at') (hp : Progress K key at' q w)
    (hopen : w.registry.mutations.sealState = .open) (hs : step S w a = some w')
    (hd : Registry.disturbs S key at' w.registry (w.does a) = false) :
    Progress K key at' q w' := by
  cases hp with
  | admitted ha => exact .admitted (admitted_step h ha hs hd)
  | queued hq =>
    cases step_cases hs with
    | accepted r recorder pending hr hp he => exact .queued (PendingActivities.queued_enqueue hq he)
    | dequeue k a n pending hw hdq =>
      rcases PendingActivities.queued_dequeue hq hdq with hq' | ⟨rfl, hle, hn, hf⟩
      · exact .queued hq'
      · exact .dequeued a n rfl hle hn hf
    | panicked pending hw hdq =>
      obtain ⟨e, n, he, hle, hn, hnq⟩ := hq
      obtain ⟨-, hby⟩ := PendingActivities.dequeue_eq_panicked hdq
      exact .queued ⟨e, n, by rw [← he, ← hby], hle, hn, hnq⟩
    | complete k n hw => exact .queued (PendingActivities.queued_complete hq k)
    | _ => exact .queued hq
  | dequeued b n hw hb hn hf =>
    cases step_cases hs with
    | accepted r recorder pending hr hp he =>
      exact .dequeued b n hw hb hn (PendingActivities.inFlight_enqueue hf he)
    | admitted k b' n' registry hw' hstep hl =>
      obtain ⟨rfl, rfl, rfl⟩ : k = key ∧ b' = b ∧ n' = n := by simpa [hw'] using hw
      refine .admitted (.persisting _ n' rfl hn hf ?_)
      have hr : registry = w.registry.begin (.persistObservedActivity k b') :=
        (Option.some.inj hstep).symm
      refine ⟨⟨.persistObservedActivity k b', .admitted, .waiting⟩, b', ?_, rfl, hb, trivial⟩
      simp [hr, Registry.begin, MutationTracker.begin, hopen]
    | refused k b' n' registry hw' hstep hl =>
      have hr : registry = w.registry.begin (.persistObservedActivity k b') :=
        (Option.some.inj hstep).symm
      refine absurd ?_ hl
      simp [hr, Registry.begin, MutationTracker.begin, hopen]
    | recv hw' _ | idle hw' _ | dequeue _ _ _ _ hw' _ | panicked _ hw' _
    | persisted _ _ _ _ _ _ hw' _ _ | complete _ _ hw' =>
      rw [hw] at hw'
      cases hw'
    | _ => exact .dequeued b n hw hb hn hf

end Writer

end ChpProxy
