import ChpProxy.Errors.Resolver
import Mathlib.Tactic.Linarith

/-! The lease of the resolver: at most one attempt holds it, and the addresses it holds stay until
that attempt is dropped. -/
namespace ChpProxy.Errors

variable {α : Type}

namespace ResolverCache

variable {cache cache' : ResolverCache α} {now : Instant} {attempts : List ℕ} {g : ℕ}

/-- The attempts are the lease, and what is leased is what is cached. -/
structure Disciplined (cache : ResolverCache α) (attempts : List ℕ) : Prop where
  held : attempts = cache.leasedGeneration.toList
  cached : ∀ g, cache.leasedGeneration = some g →
    ∃ cached, cache.current = some cached ∧ cached.generation = g

/-- `fresh` forgets addresses only if nobody has leased them. -/
theorem fresh_cases (cache : ResolverCache α) (now : Instant) :
    cache.fresh now = (cache, cache.current) ∨
    (cache.fresh now = ({ cache with current := none }, none) ∧
      ∃ cached, cache.current = some cached ∧
        cache.leasedGeneration ≠ some cached.generation) := by
  unfold fresh
  dsimp only
  split_ifs with hexpired
  · obtain ⟨cached, hcurrent, hcached⟩ := (Option.any_eq_true _ _).mp hexpired
    have hunleased := (of_decide_eq_true hcached).2
    exact .inr ⟨rfl, cached, hcurrent, hunleased⟩
  · exact .inl rfl

theorem Disciplined.leased_of_current (h : cache.Disciplined attempts)
    (hg : cache.leasedGeneration = some g) {cached : CachedAddresses α}
    (hcurrent : cache.current = some cached) :
    cache.leasedGeneration = some cached.generation := by
  obtain ⟨cached', hcurrent', hgeneration⟩ := h.cached g hg
  have heq : cached = cached' := Option.some.inj (hcurrent.symm.trans hcurrent')
  rw [heq, hgeneration, hg]

theorem Disciplined.fresh (h : cache.Disciplined attempts) (now : Instant) :
    (cache.fresh now).1.Disciplined attempts := by
  rcases cache.fresh_cases now with hsame | ⟨hnone, cached, hcurrent, hunleased⟩
  · rw [hsame]
    exact h
  · rw [hnone]
    refine ⟨h.held, fun g hg => ?_⟩
    exact absurd (h.leased_of_current hg hcurrent) hunleased

/-- Leased addresses are returned even after they have expired. -/
theorem Disciplined.fresh_of_leased (h : cache.Disciplined attempts)
    (hg : cache.leasedGeneration = some g) (now : Instant) :
    cache.fresh now = (cache, cache.current) := by
  rcases cache.fresh_cases now with hsame | ⟨-, cached, hcurrent, hunleased⟩
  · exact hsame
  · exact absurd (h.leased_of_current hg hcurrent) hunleased

theorem fresh_current (cache : ResolverCache α) (now : Instant) :
    (cache.fresh now).2 = (cache.fresh now).1.current := rfl

theorem fresh_generation (cache : ResolverCache α) (now : Instant) :
    (cache.fresh now).1.generation = cache.generation := by
  rcases cache.fresh_cases now with hsame | ⟨hnone, -⟩
  · rw [hsame]
  · rw [hnone]

theorem fresh_keeps (cache : ResolverCache α) (now : Instant) :
    (cache.fresh now).1.current = none ∨ (cache.fresh now).1.current = cache.current := by
  rcases cache.fresh_cases now with hsame | ⟨hnone, -⟩
  · exact .inr (by rw [hsame])
  · exact .inl (by rw [hnone])

/-- A lease that is granted becomes the only one. -/
theorem Disciplined.lease (h : cache.Disciplined attempts)
    (hlease : cache.lease g = (cache', true)) :
    cache'.Disciplined (g :: attempts) ∧ cache'.current = cache.current ∧
      cache'.generation = cache.generation := by
  unfold ResolverCache.lease at hlease
  split_ifs at hlease with hgrant
  · obtain ⟨hcurrent, hunleased⟩ := hgrant
    obtain ⟨cached, hcached, hgeneration⟩ := (Option.any_eq_true _ _).mp hcurrent
    have hnone : cache.leasedGeneration = none := by simpa using hunleased
    obtain rfl := (Prod.mk.inj hlease).1
    refine ⟨⟨?_, fun g' hg' => ?_⟩, rfl, rfl⟩
    · rw [h.held, hnone]
      rfl
    · have heq : g = g' := Option.some.inj hg'
      exact ⟨cached, hcached, heq ▸ of_decide_eq_true hgeneration⟩
  · cases hlease

theorem lease_refused (hlease : cache.lease g = (cache', false)) : cache' = cache := by
  unfold ResolverCache.lease at hlease
  split_ifs at hlease
  · cases hlease
  · exact (Prod.mk.inj hlease).1.symm

/-- Dropping the attempt that holds the lease ends the lease; its failure forgets the addresses. -/
theorem Disciplined.finishLease (h : cache.Disciplined attempts)
    (hg : cache.leasedGeneration = some g) (succeeded : Bool) :
    cache.finishLease g succeeded = { cache with
      leasedGeneration := none
      current := if succeeded then cache.current else none } := by
  obtain ⟨cached, hcurrent, hgeneration⟩ := h.cached g hg
  unfold ResolverCache.finishLease
  rw [if_pos hg]
  cases succeeded with
  | true => simp
  | false => simp [hcurrent, hgeneration]

end ResolverCache

/-- A call was told, and told its caller, only of addresses that were installed. -/
def Call.Logged (history : List (CachedAddresses α)) : Call α → Prop
  | .answered _ (.ok cached) => cached ∈ history
  | .returned (.ok addresses) => ∃ cached ∈ history, cached.addresses = addresses
  | _ => True

def Worker.Logged (history : List (CachedAddresses α)) : Worker α → Prop
  | .resolved _ (.ok cached) | .answering (.ok cached) _ => cached ∈ history
  | _ => True

/-- The worker has found the cache empty and not filled it yet. -/
def Worker.isLooking : Worker α → Bool
  | .looking _ | .found .. => true
  | _ => false

theorem Call.Logged.mono {history history' : List (CachedAddresses α)} {call : Call α}
    (h : call.Logged history) (hsub : history ⊆ history') : call.Logged history' := by
  unfold Call.Logged at h ⊢
  split at h
  · exact hsub h
  · obtain ⟨cached, hmem, haddresses⟩ := h
    exact ⟨cached, hsub hmem, haddresses⟩
  · trivial

namespace Resolver

variable {s s' : Resolver α}

/-- What every reachable state satisfies. -/
structure Inv (s : Resolver α) : Prop where
  disciplined : s.cache.Disciplined s.attempts
  looking : s.worker.isLooking = true → s.cache.current = none
  current : ∀ cached, s.cache.current = some cached → cached ∈ s.history
  counted : s.cache.generation = s.history.length % 2 ^ 64
  numbered : ∀ (i : ℕ) (cached : CachedAddresses α), s.history[i]? = some cached →
    cached.generation = (i + 1) % 2 ^ 64
  worker : s.worker.Logged s.history
  calls : ∀ call ∈ s.calls, call.Logged s.history

theorem inv_start : Inv (start : Resolver α) where
  disciplined := ⟨rfl, fun g hg => by cases hg⟩
  looking _ := rfl
  current _ h := by cases h
  counted := rfl
  numbered _ _ h := by cases h
  worker := trivial
  calls _ h := by cases h

namespace Inv

theorem setCache (h : Inv s) {cache : ResolverCache α} {attempts : List ℕ}
    (hdisciplined : cache.Disciplined attempts)
    (hcurrent : cache.current = none ∨ cache.current = s.cache.current)
    (hgeneration : cache.generation = s.cache.generation) :
    Inv { s with cache := cache, attempts := attempts } where
  disciplined := hdisciplined
  looking hlooking := by
    rcases hcurrent with hnone | hsame
    · exact hnone
    · exact hsame.trans (h.looking hlooking)
  current cached hcached := by
    rcases hcurrent with hnone | hsame
    · rw [hnone] at hcached
      cases hcached
    · exact h.current cached (hsame.symm.trans hcached)
  counted := hgeneration.trans h.counted
  numbered := h.numbered
  worker := h.worker
  calls := h.calls

theorem setCalls (h : Inv s) {calls : List (Call α)}
    (hcalls : ∀ call ∈ calls, call.Logged s.history) : Inv { s with calls := calls } :=
  { h with calls := hcalls }

theorem addCall (h : Inv s) {call : Call α} (hcall : call.Logged s.history) :
    Inv { s with calls := s.calls ++ [call] } := by
  refine h.setCalls fun call' hmem => ?_
  rcases List.mem_append.mp hmem with hold | hnew
  · exact h.calls call' hold
  · rw [List.mem_singleton.mp hnew]
    exact hcall

theorem setCall (h : Inv s) (i : ℕ) {call : Call α} (hcall : call.Logged s.history) :
    Inv { s with calls := s.calls.set i call } := by
  refine h.setCalls fun call' hmem => ?_
  rcases List.mem_or_eq_of_mem_set hmem with hold | rfl
  · exact h.calls call' hold
  · exact hcall

theorem setWorker (h : Inv s) {worker : Worker α} (queue : List ℕ)
    (hlooking : worker.isLooking = true → s.cache.current = none)
    (hworker : worker.Logged s.history) : Inv { s with worker := worker, queue := queue } :=
  { h with looking := hlooking, worker := hworker }

theorem fresh (h : Inv s) : Inv { s with cache := (s.cache.fresh s.now).1 } :=
  h.setCache (h.disciplined.fresh s.now) (s.cache.fresh_keeps s.now) (s.cache.fresh_generation s.now)

theorem leased (h : Inv s) {cache : ResolverCache α} {g : ℕ}
    (hlease : s.cache.lease g = (cache, true)) :
    Inv { s with cache := cache, attempts := g :: s.attempts } := by
  obtain ⟨hdisciplined, hcurrent, hgeneration⟩ := h.disciplined.lease hlease
  exact h.setCache hdisciplined (.inr hcurrent) hgeneration

end Inv

theorem inv_ensureCached (h : Inv s) : Inv s.ensureCached := by
  have hfresh := h.fresh
  unfold ensureCached
  split
  · next cache hcache =>
    rw [hcache] at hfresh
    exact hfresh.addCall trivial
  · next cache cached hcache =>
    rw [hcache] at hfresh
    split
    · next cache' hlease => exact (hfresh.leased hlease).addCall trivial
    · next cache' hlease =>
      rw [ResolverCache.lease_refused hlease]
      exact hfresh.addCall trivial

theorem inv_connector (h : Inv s) : Inv s.connector := by
  have hfresh := h.fresh
  have hcurrent := s.cache.fresh_current s.now
  unfold connector
  split
  · next cache hcache =>
    rw [hcache] at hfresh
    exact hfresh.addCall trivial
  · next cache cached hcache =>
    rw [hcache] at hfresh hcurrent
    exact hfresh.addCall ⟨cached, hfresh.current cached hcurrent.symm, rfl⟩

theorem inv_trySend (h : Inv s) {i : ℕ} (hstep : s.trySend i = some s') : Inv s' := by
  unfold trySend at hstep
  split at hstep
  · next kind hcall =>
    split_ifs at hstep with hroom
    · obtain rfl := Option.some.inj hstep
      exact (h.setWorker (s.queue ++ [i]) h.looking h.worker).setCall i trivial
    · cases kind with
      | ensureCached =>
        obtain rfl := Option.some.inj hstep
        exact h.setCall i trivial
      | connector =>
        obtain rfl := Option.some.inj hstep
        exact h.setCall i trivial
  · cases hstep

theorem inv_resume (h : Inv s) {i : ℕ} (hstep : s.resume i = some s') : Inv s' := by
  unfold resume at hstep
  split at hstep
  · next response hcall =>
    obtain rfl := Option.some.inj hstep
    have hlogged := h.calls _ (List.mem_of_getElem? hcall)
    refine h.setCall i ?_
    cases response with
    | error error => trivial
    | ok cached => exact ⟨cached, hlogged, rfl⟩
  · obtain rfl := Option.some.inj hstep
    exact h.setCall i trivial
  · next cached hcall =>
    split at hstep
    · next cache hlease =>
      obtain rfl := Option.some.inj hstep
      exact (h.leased hlease).setCall i trivial
    · next cache hlease =>
      obtain rfl := Option.some.inj hstep
      rw [ResolverCache.lease_refused hlease]
      exact h.setCall i trivial
  · cases hstep

theorem inv_cancel (h : Inv s) {i : ℕ} (hstep : s.cancel i = some s') : Inv s' := by
  unfold cancel at hstep
  split at hstep
  · obtain rfl := Option.some.inj hstep
    exact h.setCall i trivial
  · obtain rfl := Option.some.inj hstep
    exact h.setCall i trivial
  · cases hstep

theorem Inv.attempt (h : Inv s) {i g : ℕ} (hattempt : s.attempts[i]? = some g) :
    s.cache.leasedGeneration = some g ∧ s.attempts = [g] ∧ i = 0 := by
  have hheld := h.disciplined.held
  cases hleased : s.cache.leasedGeneration with
  | none =>
    rw [hheld, hleased] at hattempt
    simp at hattempt
  | some g' =>
    rw [hleased] at hheld
    rw [hheld] at hattempt
    cases i with
    | zero =>
      have heq : g' = g := Option.some.inj hattempt
      exact ⟨by rw [heq], by rw [hheld, heq]; rfl, rfl⟩
    | succ i => simp at hattempt

theorem drop_eq (h : Inv s) {i g : ℕ} (hattempt : s.attempts[i]? = some g) (succeeded : Bool) :
    s.drop i succeeded = some { s with
      cache := { s.cache with
        leasedGeneration := none
        current := if succeeded then s.cache.current else none }
      attempts := [] } := by
  obtain ⟨hleased, hattempts, rfl⟩ := h.attempt hattempt
  unfold drop
  rw [hattempt]
  dsimp only
  rw [h.disciplined.finishLease hleased, hattempts]
  rfl

theorem inv_drop (h : Inv s) {i : ℕ} {succeeded : Bool}
    (hstep : s.drop i succeeded = some s') : Inv s' := by
  cases hattempt : s.attempts[i]? with
  | none =>
    unfold drop at hstep
    rw [hattempt] at hstep
    cases hstep
  | some g =>
    rw [drop_eq h hattempt] at hstep
    obtain rfl := Option.some.inj hstep
    refine h.setCache ⟨rfl, fun g' hg' => by cases hg'⟩ ?_ rfl
    cases succeeded with
    | true => exact .inr rfl
    | false => exact .inl rfl

/-- Only the worker fills the cache, and it found the cache empty, so that nothing is leased. -/
theorem inv_install (h : Inv s) {first : ℕ} {addresses : List α}
    (hworker : s.worker = .found first addresses) :
    Inv { s with
      cache := (s.cache.install s.now addresses).1
      worker := .resolved first (.ok (s.cache.install s.now addresses).2)
      history := s.history ++ [(s.cache.install s.now addresses).2] } := by
  have hnone : s.cache.current = none := h.looking (by rw [hworker]; rfl)
  have hunleased : s.cache.leasedGeneration = none := by
    cases hleased : s.cache.leasedGeneration with
    | none => rfl
    | some g =>
      obtain ⟨cached, hcurrent, -⟩ := h.disciplined.cached g hleased
      rw [hnone] at hcurrent
      cases hcurrent
  have hcounted := h.counted
  have hsub : s.history ⊆ s.history ++ [(s.cache.install s.now addresses).2] :=
    List.subset_append_left _ _
  have hlast : (s.cache.install s.now addresses).2 ∈
      s.history ++ [(s.cache.install s.now addresses).2] :=
    List.mem_append_right _ List.mem_cons_self
  have hgeneration : (s.cache.install s.now addresses).2.generation =
      (s.history.length + 1) % 2 ^ 64 := by
    change (s.cache.generation + 1) % 2 ^ 64 = _
    omega
  constructor
  · refine ⟨h.disciplined.held, fun g hg => ?_⟩
    have hg' : s.cache.leasedGeneration = some g := hg
    rw [hunleased] at hg'
    cases hg'
  · intro hlooking
    cases hlooking
  · intro cached hcached
    have heq : (s.cache.install s.now addresses).2 = cached := Option.some.inj hcached
    rw [← heq]
    exact hlast
  · rw [List.length_append]
    exact hgeneration
  · intro i cached hcached
    rcases Nat.lt_trichotomy i s.history.length with hlt | heq | hgt
    · rw [List.getElem?_append_left hlt] at hcached
      exact h.numbered i cached hcached
    · rw [heq, List.getElem?_append_right le_rfl, Nat.sub_self] at hcached
      rw [← Option.some.inj hcached, heq]
      exact hgeneration
    · have hlen : s.history.length + 1 ≤ i := hgt
      rw [List.getElem?_eq_none (by rw [List.length_append]; exact hlen)] at hcached
      cases hcached
  · exact hlast
  · intro call hcall
    exact (h.calls call hcall).mono hsub

theorem inv_send (h : Inv s) {result : Except IoError (CachedAddresses α)} {i : ℕ}
    {pending : List ℕ} (hworker : s.worker = .answering result (i :: pending)) :
    Inv { s with
      calls := deliver s.calls i result
      worker := if pending.isEmpty then .idle else .answering result pending } := by
  have hresult : ∀ cached, result = .ok cached → cached ∈ s.history := by
    rintro cached rfl
    have hlogged := h.worker
    rw [hworker] at hlogged
    exact hlogged
  have hnext : (if pending.isEmpty then .idle else .answering result pending : Worker α).Logged
      s.history := by
    split_ifs
    · trivial
    · cases result with
      | error error => trivial
      | ok cached => exact hresult cached rfl
  have hidle : (if pending.isEmpty then .idle else .answering result pending : Worker α).isLooking
      = true → s.cache.current = none := by
    split_ifs
    · intro hlooking
      cases hlooking
    · intro hlooking
      cases hlooking
  generalize (if pending.isEmpty then .idle else .answering result pending : Worker α) = worker
    at hnext hidle ⊢
  have hset := h.setWorker s.queue hidle hnext
  unfold deliver
  split
  · refine hset.setCall i ?_
    cases result with
    | error error => trivial
    | ok cached => exact hresult cached rfl
  · exact hset

variable [DecidableEq α]

theorem inv_work (h : Inv s) {action : ResolverAction α} (hstep : s.work action = some s') :
    Inv s' := by
  cases action with
  | dequeue =>
    simp only [work] at hstep
    split at hstep
    · obtain rfl := Option.some.inj hstep
      exact h.setWorker _ (fun hlooking => by cases hlooking) trivial
    · cases hstep
  | checkCache =>
    simp only [work] at hstep
    split at hstep
    · have hfresh := h.fresh
      have hcurrent := s.cache.fresh_current s.now
      split at hstep
      · next cache cached hcache =>
        obtain rfl := Option.some.inj hstep
        rw [hcache] at hfresh hcurrent
        exact hfresh.setWorker _ (fun hlooking => by cases hlooking)
          (hfresh.current cached hcurrent.symm)
      · next cache hcache =>
        obtain rfl := Option.some.inj hstep
        rw [hcache] at hfresh hcurrent
        exact hfresh.setWorker _ (fun _ => hcurrent.symm) trivial
    · cases hstep
  | lookup result =>
    simp only [work] at hstep
    split at hstep
    · next first hworker =>
      have hnone : s.cache.current = none := h.looking (by rw [hworker]; rfl)
      cases result with
      | error error =>
        obtain rfl := Option.some.inj hstep
        exact h.setWorker _ (fun hlooking => by cases hlooking) trivial
      | ok addresses =>
        dsimp only at hstep
        split_ifs at hstep
        · obtain rfl := Option.some.inj hstep
          exact h.setWorker _ (fun hlooking => by cases hlooking) trivial
        · obtain rfl := Option.some.inj hstep
          exact h.setWorker _ (fun _ => hnone) trivial
    · cases hstep
  | install =>
    simp only [work] at hstep
    split at hstep
    · next first addresses hworker =>
      obtain rfl := Option.some.inj hstep
      exact inv_install h hworker
    · cases hstep
  | takeBatch =>
    simp only [work] at hstep
    split at hstep
    · next first result hworker =>
      obtain rfl := Option.some.inj hstep
      have hlogged := h.worker
      rw [hworker] at hlogged
      refine h.setWorker _ (fun hlooking => by cases hlooking) ?_
      cases result with
      | error error => trivial
      | ok cached => exact hlogged
    · cases hstep
  | send =>
    simp only [work] at hstep
    split at hstep
    · next result i pending hworker =>
      obtain rfl := Option.some.inj hstep
      exact inv_send h hworker
    · cases hstep
  | _ => cases hstep

theorem inv_step (s : Resolver α) (action : ResolverAction α) (s' : Resolver α) (h : Inv s)
    (hstep : s.step action = some s') : Inv s' := by
  cases action with
  | tick elapsed =>
    obtain rfl := Option.some.inj hstep
    exact { h with }
  | ensureCached =>
    obtain rfl := Option.some.inj hstep
    exact inv_ensureCached h
  | connector =>
    obtain rfl := Option.some.inj hstep
    exact inv_connector h
  | trySend i => exact inv_trySend h hstep
  | resume i => exact inv_resume h hstep
  | cancel i => exact inv_cancel h hstep
  | drop i succeeded => exact inv_drop h hstep
  | dequeue | checkCache | lookup result | install | takeBatch | send =>
    simp only [step] at hstep
    exact inv_work h hstep

theorem inv_run {actions : List (ResolverAction α)} (h : run start actions = some s) : Inv s :=
  Transition.run_invariant inv_step inv_start h

omit [DecidableEq α] in
/-- Before the counter wraps around, a generation stands for one set of addresses. -/
theorem Inv.generation_unique (h : Inv s) (hcount : s.history.length < 2 ^ 64)
    {cached cached' : CachedAddresses α} (hmem : cached ∈ s.history) (hmem' : cached' ∈ s.history)
    (hsame : cached'.generation = cached.generation) : cached' = cached := by
  obtain ⟨i, hi, hcached⟩ := List.mem_iff_getElem.mp hmem
  obtain ⟨j, hj, hcached'⟩ := List.mem_iff_getElem.mp hmem'
  have hgi := h.numbered i cached (List.getElem?_eq_some_iff.mpr ⟨hi, hcached⟩)
  have hgj := h.numbered j cached' (List.getElem?_eq_some_iff.mpr ⟨hj, hcached'⟩)
  have hij : i = j := by
    rw [hgi, hgj, Nat.mod_eq_of_lt (by omega), Nat.mod_eq_of_lt (by omega)] at hsame
    omega
  rw [← hcached, ← hcached']
  simp only [hij]

omit [DecidableEq α] in
theorem connector_of_attempt (h : Inv s) {g : ℕ} (hg : g ∈ s.attempts) :
    ∃ cached, s.cache.current = some cached ∧ cached.generation = g ∧
      s.connector = { s with calls := s.calls ++ [.returned (.ok cached.addresses)] } := by
  obtain ⟨i, hi⟩ := List.mem_iff_getElem?.mp hg
  obtain ⟨hleased, -, -⟩ := h.attempt hi
  obtain ⟨cached, hcurrent, hgeneration⟩ := h.disciplined.cached g hleased
  have hfresh := h.disciplined.fresh_of_leased hleased s.now
  refine ⟨cached, hcurrent, hgeneration, ?_⟩
  unfold connector
  rw [hfresh, hcurrent]

/-- In every reachable state the lease is on what is cached, at most one attempt holds it, and a
connector call that begins meanwhile returns exactly the addresses it holds, expired or not.
Dropping the attempt ends the lease, and its failure forgets its generation alone. A call that
waited returns addresses that were installed at some time. -/
theorem lease_discipline {actions : List (ResolverAction α)} (h : run start actions = some s)
    (hcount : s.history.length < 2 ^ 64) :
    (∀ g, s.cache.leasedGeneration = some g →
      ∃ cached, s.cache.current = some cached ∧ cached.generation = g) ∧
    s.attempts.length ≤ 1 ∧
    (∀ g ∈ s.attempts, s.cache.leasedGeneration = some g ∧
      ∃ cached ∈ s.history, cached.generation = g ∧
        (∀ cached' ∈ s.history, cached'.generation = g → cached' = cached) ∧
        s.step .connector =
          some { s with calls := s.calls ++ [.returned (.ok cached.addresses)] }) ∧
    (∀ i g succeeded, s.attempts[i]? = some g → s.cache.current.map (·.generation) = some g ∧
      s.step (.drop i succeeded) = some { s with
        cache := { s.cache with
          leasedGeneration := none
          current := if succeeded then s.cache.current else none }
        attempts := [] }) ∧
    ∀ i cached, s.calls[i]? = some (.answered .connector (.ok cached)) → cached ∈ s.history ∧
      s.step (.resume i) =
        some { s with calls := s.calls.set i (.returned (.ok cached.addresses)) } := by
  have hinv := inv_run h
  refine ⟨hinv.disciplined.cached, ?_, ?_, ?_, ?_⟩
  · rw [hinv.disciplined.held]
    cases s.cache.leasedGeneration with
    | none => exact Nat.zero_le 1
    | some g => exact le_rfl
  · intro g hg
    obtain ⟨i, hi⟩ := List.mem_iff_getElem?.mp hg
    obtain ⟨cached, hcurrent, hgeneration, hconnector⟩ := connector_of_attempt hinv hg
    have hmem := hinv.current cached hcurrent
    refine ⟨(hinv.attempt hi).1, cached, hmem, hgeneration, fun cached' hmem' hsame => ?_,
      congrArg some hconnector⟩
    exact hinv.generation_unique hcount hmem hmem' (hsame.trans hgeneration.symm)
  · intro i g succeeded hattempt
    obtain ⟨cached, hcurrent, hgeneration⟩ :=
      hinv.disciplined.cached g (hinv.attempt hattempt).1
    refine ⟨?_, drop_eq hinv hattempt succeeded⟩
    rw [hcurrent, Option.map_some, hgeneration]
  · intro i cached hcall
    refine ⟨hinv.calls _ (List.mem_of_getElem? hcall), ?_⟩
    simp only [step, resume, hcall]
    rfl

/-- One lookup on behalf of the call `i`, up to the response. -/
def lookupFor (i : ℕ) (addresses : List α) : List (ResolverAction α) :=
  [.trySend i, .dequeue, .checkCache, .lookup (.ok addresses), .install, .takeBatch, .send]

/-- An attempt still has its addresses a minute after they were installed. -/
theorem lease_discipline_expired : ∃ s : Resolver ℕ,
    run start (.ensureCached :: lookupFor 0 [7] ++ [.resume 0, .tick 60000]) = some s ∧
    s.attempts = [1] ∧ s.cache.current = some ⟨[7], 1, 30000⟩ ∧ s.now = 60000 ∧
    ∃ cached ∈ s.history, cached.generation = 1 ∧
      (∀ cached' ∈ s.history, cached'.generation = 1 → cached' = cached) ∧
      s.step .connector =
        some { s with calls := s.calls ++ [.returned (.ok cached.addresses)] } := by
  refine Exists.imp (fun s h => ⟨h, ?_⟩) ⟨_, rfl⟩
  have hs := (Option.some.inj h).symm
  have hattempts : s.attempts = [1] := by rw [hs]; rfl
  have hcount : s.history.length < 2 ^ 64 := by rw [hs]; decide
  have hheld := (lease_discipline h hcount).2.2.1 1 (by rw [hattempts]; exact List.mem_cons_self)
  exact ⟨hattempts, by rw [hs]; rfl, by rw [hs]; rfl, hheld.2⟩

/-- A call that was answered before its generation failed returns the old addresses, although an
attempt holds a later generation by then. -/
theorem waiting_call_returns_old_addresses : ∃ s s' : Resolver ℕ,
    run start (.connector :: lookupFor 0 [7] ++ [.ensureCached, .drop 0 false, .ensureCached] ++
      lookupFor 2 [8] ++ [.resume 2]) = some s ∧
    s.attempts = [2] ∧ s.cache.current.map (·.addresses) = some [8] ∧
    s.step (.resume 0) = some s' ∧ s'.attempts = [2] ∧ s.cache.current = s'.cache.current ∧
    s'.calls[0]? = some (.returned (.ok [7])) :=
  ⟨_, _, rfl, rfl, rfl, rfl, rfl, rfl, rfl⟩

end Resolver

end ChpProxy.Errors
