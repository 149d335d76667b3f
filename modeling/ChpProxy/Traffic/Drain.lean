import ChpProxy.Traffic.Lifecycle

/-! The traffic counter counts the admitted requests, and a drained counter stays drained once the
listeners have stopped. -/
namespace ChpProxy

namespace TrafficLifecycle

variable {t : TrafficLifecycle}

/-- While something is counted, an operation of `finish` gives the counter another try or takes one
off it. -/
theorem finish_cases (h : t.active ≠ 0) (phase : FinishPhase) (spurious : Bool) :
    (∃ observed, t.finish phase spurious = (t, some (.exchanging observed))) ∨
      t.finish phase spurious = ({ t with active := t.active - 1 }, none) := by
  have hloop : t.loop t.active = (t, some (.exchanging t.active)) := by
    unfold loop
    rw [if_pos h]
  cases phase with
  | loading => exact .inl ⟨t.active, hloop⟩
  | exchanging observed =>
    unfold finish
    dsimp only
    split_ifs with hswap
    · rw [← hswap.1]
      exact .inr rfl
    · exact .inl ⟨t.active, hloop⟩

theorem flags_finish (t : TrafficLifecycle) (phase : FinishPhase) (spurious : Bool) :
    (t.finish phase spurious).1.accepting = t.accepting ∧
      (t.finish phase spurious).1.acceptsStopped = t.acceptsStopped := by
  unfold finish loop
  cases phase <;> dsimp only <;> split_ifs <;> exact ⟨rfl, rfl⟩

end TrafficLifecycle

namespace Traffic

variable {s s' : Traffic} {a : TrafficAction} {as : List TrafficAction}

structure Sound (s : Traffic) : Prop where
  active : s.lifecycle.active = s.tokens + s.undecided
  stored : ∀ ctx ∈ s.requests, ctx.trafficAdmission = true → ctx.phase = .handled
  references : s.tokens ≤ maxReferences
  calls : s.calls ≤ maxCalls
  overReleases : s.lifecycle.overReleases = 0

theorem sound_start : start.Sound :=
  ⟨rfl, nofun, Nat.zero_le _, Nat.zero_le _, rfl⟩

theorem undecided_le_calls (s : Traffic) : s.undecided ≤ s.calls := by
  apply List.countP_mono_left
  intro ctx _ hu
  unfold RequestContext.undecided at hu
  unfold RequestContext.busy
  cases hp : ctx.phase with
  | fresh => simp [hp] at hu
  | handled => simp [hp] at hu
  | dropped => simp [hp] at hu
  | _ => rfl

theorem Sound.set {r : ℕ} {ctx ctx' : RequestContext} {lifecycle : TrafficLifecycle}
    (h : s.Sound) (hr : s.requests[r]? = some ctx)
    (hactive : lifecycle.active + (if ctx.holdsToken then 1 else 0) +
      (if ctx.undecided then 1 else 0) = s.lifecycle.active + (if ctx'.holdsToken then 1 else 0) +
      if ctx'.undecided then 1 else 0)
    (hstored : ctx'.trafficAdmission = true → ctx'.phase = .handled)
    (href : s.tokens + (if ctx'.holdsToken then 1 else 0) ≤
      maxReferences + if ctx.holdsToken then 1 else 0)
    (hcalls : s.calls + (if ctx'.busy then 1 else 0) ≤ maxCalls + if ctx.busy then 1 else 0)
    (hover : lifecycle.overReleases = 0) :
    Sound { s.set r ctx' with lifecycle := lifecycle } := by
  have htokens := Census.countP_set hr (·.holdsToken) ctx'
  have hundecided := Census.countP_set hr (·.undecided) ctx'
  have hbusy := Census.countP_set hr (·.busy) ctx'
  have hold := h.active
  constructor
  · show lifecycle.active = (s.requests.set r ctx').countP (·.holdsToken) +
      (s.requests.set r ctx').countP (·.undecided)
    unfold tokens undecided at hold
    omega
  · intro c hc
    rcases List.mem_or_eq_of_mem_set hc with hin | rfl
    · exact h.stored c hin
    · exact hstored
  · show (s.requests.set r ctx').countP (·.holdsToken) ≤ maxReferences
    unfold tokens at href
    omega
  · show (s.requests.set r ctx').countP (·.busy) ≤ maxCalls
    unfold Traffic.calls at hcalls
    omega
  · exact hover

/-- A request that holds a token or is undecided is counted. -/
theorem Sound.active_ne_zero {r : ℕ} {ctx : RequestContext} (h : s.Sound)
    (hr : s.requests[r]? = some ctx) (hc : ctx.holdsToken = true ∨ ctx.undecided = true) :
    s.lifecycle.active ≠ 0 := by
  rw [h.active]
  rcases hc with hc | hc
  · have : 0 < s.tokens := Census.countP_pos hr hc
    omega
  · have : 0 < s.undecided := Census.countP_pos hr hc
    omega

/-- A call of `try_admit` before its increment finds room in the counter: the tokens are bounded by
the references to the lifecycle, and the undecided calls by the calls in progress. -/
theorem Sound.active_lt {r : ℕ} {ctx : RequestContext} (h : s.Sound)
    (hr : s.requests[r]? = some ctx) (hp : ctx.phase = .incrementing) :
    s.lifecycle.active + 1 < 2 ^ 64 := by
  have hu : ctx.undecided = false := by simp [RequestContext.undecided, hp]
  have hb : ctx.busy = true := by simp [RequestContext.busy, hp]
  -- the bound, once this call were out of the way
  have hle := (s.set r ⟨false, .handled⟩).undecided_le_calls
  have hundecided : (s.set r ⟨false, .handled⟩).undecided = s.undecided := by
    have hset := Census.countP_set hr (·.undecided) ⟨false, .handled⟩
    rw [hu] at hset
    exact hset
  have hbusy : (s.set r ⟨false, .handled⟩).calls + 1 = s.calls := by
    have hset := Census.countP_set hr (·.busy) ⟨false, .handled⟩
    rw [hb] at hset
    exact hset
  have href := h.references
  have hcalls := h.calls
  rw [h.active]
  unfold maxReferences at href
  unfold maxCalls at hcalls
  omega

theorem Sound.move {r : ℕ} {ctx ctx' : RequestContext} {lifecycle : TrafficLifecycle}
    (h : s.Sound) (hr : s.requests[r]? = some ctx) (hm : Move s ctx a ctx' lifecycle) :
    Sound { s.set r ctx' with lifecycle := lifecycle } := by
  have hstored := h.stored ctx (List.mem_of_getElem? hr)
  have href := h.references
  have hcalls := h.calls
  have hover := h.overReleases
  have hcounted := h.active_ne_zero hr
  obtain ⟨admission, phase⟩ := ctx
  -- only a handled request has a token in its context
  have hnone : phase ≠ .handled → admission = false := by
    intro hp
    cases admission with
    | false => rfl
    | true => exact absurd (hstored rfl) hp
  cases hm with
  | enter r hp hc =>
    cases hp
    cases hnone nofun
    exact h.set hr rfl nofun href hc hover
  | refused r hp ha =>
    cases hp
    cases hnone nofun
    exact h.set hr rfl nofun href (by simp [RequestContext.busy]; omega) hover
  | passed r hp ha =>
    cases hp
    cases hnone nofun
    exact h.set hr rfl nofun href (by simpa [RequestContext.busy] using hcalls) hover
  | increment r hp =>
    cases hp
    cases hnone nofun
    have hroom := h.active_lt hr rfl
    apply h.set hr
    · show (s.lifecycle.active + 1) % 2 ^ 64 = s.lifecycle.active + 1
      exact Nat.mod_eq_of_lt hroom
    · nofun
    · exact href
    · simpa [RequestContext.busy] using hcalls
    · exact hover
  | admitted r hp ha ht =>
    cases hp
    cases hnone nofun
    exact h.set hr rfl (fun _ => rfl) ht (by simp [RequestContext.busy]; omega) hover
  | undo r hp ha =>
    cases hp
    cases hnone nofun
    exact h.set hr rfl nofun href (by simpa [RequestContext.busy] using hcalls) hover
  | undoing r spurious phase lifecycle next hp hf =>
    cases hp
    cases hnone nofun
    have hne := hcounted (.inr rfl)
    rcases TrafficLifecycle.finish_cases hne phase spurious with ⟨observed, hretry⟩ | hdone
    · cases hf.symm.trans hretry
      exact h.set hr rfl nofun href (Nat.succ_le_succ hcalls) hover
    · cases hf.symm.trans hdone
      apply h.set hr
      · show s.lifecycle.active - 1 + 1 = s.lifecycle.active
        omega
      · nofun
      · exact href
      · exact Nat.le_succ_of_le hcalls
      · exact hover
  | releasing r spurious dropping phase lifecycle next hp hf =>
    cases hp
    cases hnone nofun
    have hne := hcounted (.inl rfl)
    rcases TrafficLifecycle.finish_cases hne phase spurious with ⟨observed, hretry⟩ | hdone
    · cases hf.symm.trans hretry
      exact h.set hr rfl nofun (Nat.succ_le_succ href) (Nat.succ_le_succ hcalls) hover
    · cases hf.symm.trans hdone
      cases dropping <;>
      · apply h.set hr
        · show s.lifecycle.active - 1 + 1 = s.lifecycle.active
          omega
        · nofun
        · exact Nat.le_succ_of_le href
        · exact Nat.le_succ_of_le hcalls
        · exact hover
  | take a dropping hp ht hc ha =>
    cases ht
    cases hstored rfl
    exact h.set hr rfl nofun (Nat.succ_le_succ href) hc hover
  | taken a dropping hp ht ha =>
    cases ht
    rcases hp with hp | hp <;> cases hp <;> cases dropping <;>
      exact h.set hr rfl nofun href hcalls hover

theorem Sound.step (h : s.Sound) (hs : s.step a = some s') : s'.Sound := by
  cases step_cases hs with
  | request =>
    have hkeeps : ∀ p : RequestContext → Bool, p ⟨false, .fresh⟩ = false →
        (s.requests ++ [(⟨false, .fresh⟩ : RequestContext)]).countP p = s.requests.countP p := by
      intro p hp
      rw [Census.countP_concat, hp]
      rfl
    have htokens := hkeeps (·.holdsToken) rfl
    have hundecided := hkeeps (·.undecided) rfl
    have hbusy := hkeeps (·.busy) rfl
    constructor
    · show s.lifecycle.active = _ + _
      rw [h.active]
      exact congrArg₂ (· + ·) htokens.symm hundecided.symm
    · intro ctx hctx
      rcases List.mem_append.mp hctx with hctx | hctx
      · exact h.stored ctx hctx
      · cases List.mem_singleton.mp hctx
        nofun
    · exact htokens.trans_le h.references
    · exact hbusy.trans_le h.calls
    · exact h.overReleases
  | stopAccepting => exact ⟨h.active, h.stored, h.references, h.calls, h.overReleases⟩
  | acknowledge => exact ⟨h.active, h.stored, h.references, h.calls, h.overReleases⟩
  | move r ctx ctx' a lifecycle hr hm => exact h.move hr hm

theorem sound_run (h : run start as = some s) : s.Sound :=
  Transition.run_invariant (fun _ _ _ h hs => h.step hs) sound_start h

/-- Once the listeners have stopped, a step of a request gives it no token. -/
theorem Move.holdsToken {ctx ctx' : RequestContext} {lifecycle : TrafficLifecycle}
    (hm : Move s ctx a ctx' lifecycle) (h : s.lifecycle.accepting = false)
    (ht : ctx'.holdsToken = true) : ctx.holdsToken = true := by
  unfold RequestContext.holdsToken at ht ⊢
  cases hm with
  | enter r hp => simpa [hp] using ht
  | refused r hp => simpa [hp] using ht
  | passed r hp => simpa [hp] using ht
  | increment r hp => simpa [hp] using ht
  | admitted r hp ha => simp [h] at ha
  | undo r hp => simpa [hp] using ht
  | undoing r spurious phase lifecycle next hp => cases next <;> simpa [hp] using ht
  | releasing r spurious dropping phase lifecycle next hp => simp [hp]
  | take a dropping hp hstored => simp [hstored]
  | taken a dropping hp hnone => cases dropping <;> rcases hp with hp | hp <;> simp [hp, hnone] at ht

theorem Move.flags {ctx ctx' : RequestContext} {lifecycle : TrafficLifecycle}
    (hm : Move s ctx a ctx' lifecycle) :
    lifecycle.accepting = s.lifecycle.accepting ∧
      lifecycle.acceptsStopped = s.lifecycle.acceptsStopped := by
  cases hm with
  | undoing r spurious phase lifecycle next hp hf =>
    have hkeeps := s.lifecycle.flags_finish phase spurious
    rwa [hf] at hkeeps
  | releasing r spurious dropping phase lifecycle next hp hf =>
    have hkeeps := s.lifecycle.flags_finish phase spurious
    rwa [hf] at hkeeps
  | _ => exact ⟨rfl, rfl⟩

/-- The listeners have stopped and every token is released. -/
structure Drained (s : Traffic) : Prop where
  accepting : s.lifecycle.accepting = false
  tokens : s.tokens = 0

theorem Drained.step (h : s.Drained) (hs : s.step a = some s') : s'.Drained := by
  cases step_cases hs with
  | request => exact ⟨h.accepting, (Census.countP_concat _ _ _).trans h.tokens⟩
  | stopAccepting => exact ⟨rfl, h.tokens⟩
  | acknowledge => exact ⟨h.accepting, h.tokens⟩
  | move r ctx ctx' a lifecycle hr hm =>
    have hnone : ctx.holdsToken = false := Census.eq_false_of_countP h.tokens hr
    have hnone' : ctx'.holdsToken = false := by
      cases ht : ctx'.holdsToken with
      | false => rfl
      | true => exact absurd (hm.holdsToken h.accepting ht) (by simp [hnone])
    have hset := Census.countP_set hr (·.holdsToken) ctx'
    rw [hnone, hnone'] at hset
    exact ⟨hm.flags.1.trans h.accepting, hset.trans h.tokens⟩

theorem admissions_eq_nil (h : s.lifecycle.accepting = false) (a : TrafficAction) :
    s.admissions a = [] := by
  unfold admissions
  split
  · rw [h]
    rfl
  · rfl

theorem Drained.run {bs : List TrafficAction} (h : s.Drained) (hr : run s bs = some s') :
    s'.Drained ∧ Transition.trace Traffic.step admissions s bs = [] := by
  apply Transition.trace_invariant (P := fun admitted u => u.Drained ∧ admitted = []) _ ⟨h, rfl⟩ hr
  intro admitted u b u' ⟨hu, hnone⟩ hb
  rw [hnone, admissions_eq_nil hu.accepting]
  exact ⟨hu.step hb, rfl⟩

/-- The drain is sound. The counter is the tokens that are not released together with the calls of
`try_admit` that have incremented it and are undecided, and no `finish` finds it at zero. Whoever
reads zero from it after the listeners stopped knows that no token is left, then or later, and that
no call of `try_admit` will return true. -/
theorem drain_sound (h : run start as = some s) :
    s.lifecycle.active = s.tokens + s.undecided ∧ s.lifecycle.overReleases = 0 ∧
      (s.lifecycle.accepting = false → s.lifecycle.active = 0 →
        ∀ bs s', run s bs = some s' →
          s'.tokens = 0 ∧ Transition.trace step admissions s bs = []) := by
  have hsound := sound_run h
  refine ⟨hsound.active, hsound.overReleases, fun hclosed hzero bs s' hr => ?_⟩
  have hactive := hsound.active
  have hdrained : s.Drained := ⟨hclosed, by omega⟩
  obtain ⟨hlater, hnone⟩ := hdrained.run hr
  exact ⟨hlater.tokens, hnone⟩

/-- Two requests are admitted, a third loses the race with the shutdown and undoes its increment
while the first is released by its logging callback and the second by its destructor. -/
theorem drain_sound_race :
    ∃ s, run start
        [.request, .request, .request, .tryAdmit 0, .check 0, .increment 0, .confirm 0,
          .tryAdmit 1, .check 1, .tryAdmit 2, .check 2, .increment 1, .increment 2, .confirm 1,
          .stopAccepting, .release 0, .confirm 2, .finish 0 false, .finish 2 false,
          .finish 0 true, .finish 2 false, .finish 0 false, .finish 0 false, .drop 0, .acknowledge,
          .drop 1, .finish 1 false, .finish 1 false] = some s ∧
      s.lifecycle.active = 0 ∧ s.lifecycle.accepting = false ∧
      s.lifecycle.overReleases = 0 ∧
      ∀ bs s', run s bs = some s' → s'.tokens = 0 ∧ Transition.trace step admissions s bs = [] := by
  refine ⟨⟨⟨false, 0, true, 0⟩, [⟨false, .dropped⟩, ⟨false, .dropped⟩, ⟨false, .handled⟩], 0⟩,
    ?race, rfl, rfl, rfl, (drain_sound ?race).2.2 rfl rfl⟩
  decide +kernel

end Traffic

end ChpProxy
