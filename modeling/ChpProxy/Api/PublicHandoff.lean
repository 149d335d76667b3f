import ChpProxy.Api.PublicService

/-! The public listener is handed to Pingora without losing or doubling its descriptor, and readiness
is reported only for a listener that was taken over. -/
namespace ChpProxy

namespace Descriptor

variable {d : Descriptor}

/-- Until somebody closes it the number refers to the listening socket. -/
structure Sound (d : Descriptor) : Prop where
  kept : d.owner ≠ .gone → d.slot = some .listener ∧ d.closed = []
  gone : d.owner = .gone → d.slot ≠ some .listener ∧ d.closed = [some .listener]

theorem Sound.close (h : d.Sound) (ho : d.owner ≠ .gone) : d.close.Sound := by
  obtain ⟨hslot, hclosed⟩ := h.kept ho
  refine ⟨fun hne => absurd rfl hne, fun _ => ⟨nofun, ?_⟩⟩
  simp [Descriptor.close, hslot, hclosed]

theorem Sound.transfer (h : d.Sound) (ho : d.owner ≠ .gone) {owner : DescriptorOwner}
    (hnew : owner ≠ .gone) : Sound { d with owner := owner } :=
  ⟨fun _ => h.kept ho, fun hg => absurd hg hnew⟩

/-- Other threads use the number only while it is free. -/
theorem Sound.reuse (h : d.Sound) {slot : Option OpenFile} (hold : d.slot ≠ some .listener)
    (hnew : slot ≠ some .listener) : Sound { d with slot := slot } := by
  have hgone : d.owner = .gone := by
    by_contra hne
    exact hold (h.kept hne).1
  exact ⟨fun hne => absurd hgone hne, fun hg => ⟨hnew, (h.gone hg).2⟩⟩

theorem dropHandoff_false (d : Descriptor) : d.dropHandoff false = d := by
  simp [dropHandoff]

theorem Sound.dropHandoff_true (h : d.Sound) (ho : d.owner = .raw) :
    d.dropHandoff true = d.close := by
  have hslot := (h.kept (by simp [ho])).1
  simp [dropHandoff, hslot]

end Descriptor

namespace PublicService

variable {s s' : PublicService} {a : PublicAction} {as : List PublicAction}

/-- The listener is open as long as one of the endpoint tasks runs. -/
def Shared (owner : DescriptorOwner) (endpoints : List Endpoint) : Prop :=
  owner = if endpoints.countP (·.running) = 0 then .gone else .listener

/-- Who holds the descriptor in each phase. -/
def Custody (owner : DescriptorOwner) (armed : Bool) (endpoints : List Endpoint) :
    PublicPhase → Prop
  | .entered | .lockingAdoption | .lockingTable | .arming =>
    owner = .descriptor ∧ armed = false ∧ endpoints = []
  | .armed => owner = .descriptor ∧ armed = true ∧ endpoints = []
  | .transferred | .polled => owner = .raw ∧ armed = true ∧ endpoints = []
  | .building => owner = .listener ∧ endpoints = []
  | .built serving => Shared owner endpoints ∧ (serving = true → endpoints ≠ [])
  | .verifying | .awaiting => armed = false ∧ Shared owner endpoints ∧ endpoints ≠ []
  | .finishing _ | .closing _ =>
    armed = true ∧ owner = .raw ∧ endpoints = [] ∨ armed = false ∧ Shared owner endpoints
  | .returned | .cancelled => Shared owner endpoints

structure Sound (s : PublicService) : Prop where
  descriptor : s.descriptor.Sound
  custody : Custody s.descriptor.owner s.armed s.endpoints s.phase

theorem sound_start : start.Sound :=
  ⟨⟨fun _ => ⟨rfl, rfl⟩, nofun⟩, rfl, rfl, rfl⟩

theorem shared_nil_of_gone : Shared .gone [] := rfl

theorem Shared.stop {i : ℕ} {e : Endpoint} (h : Shared s.descriptor.owner s.endpoints)
    (hd : s.descriptor.Sound) (hi : s.endpoints[i]? = some e) (he : e.running = true) :
    (s.stopEndpoint i e).descriptor.Sound ∧
      Shared (s.stopEndpoint i e).descriptor.owner (s.stopEndpoint i e).endpoints := by
  have howner : s.descriptor.owner = .listener := by
    unfold Shared at h
    rwa [if_neg (Nat.ne_of_gt (Census.countP_pos hi he))] at h
  unfold stopEndpoint Shared
  dsimp only
  split_ifs with hlast
  · exact ⟨hd.close (by simp [howner]), rfl⟩
  · exact ⟨hd, howner⟩

theorem Shared.look {i : ℕ} {e : Endpoint} (h : Shared s.descriptor.owner s.endpoints)
    (hi : s.endpoints[i]? = some e) (seen : ℕ) :
    Shared s.descriptor.owner (s.endpoints.set i { e with seen := seen }) := by
  have hcount := Census.countP_set hi (·.running) { e with seen := seen }
  have hsame : (s.endpoints.set i { e with seen := seen }).countP (·.running) =
      s.endpoints.countP (·.running) := Nat.add_right_cancel hcount
  unfold Shared
  rw [hsame]
  exact h

/-- While endpoint tasks exist, the descriptor is theirs, whatever the phase. -/
theorem Sound.endpoints (h : s.Sound) (hne : s.endpoints ≠ []) :
    Shared s.descriptor.owner s.endpoints ∧
      ∀ owner endpoints, Shared owner endpoints → endpoints ≠ [] →
        Custody owner s.armed endpoints s.phase := by
  have hc := h.custody
  cases hp : s.phase with
  | built serving =>
    rw [hp] at hc
    exact ⟨hc.1, fun owner endpoints hs hn => ⟨hs, fun _ => hn⟩⟩
  | verifying =>
    rw [hp] at hc
    exact ⟨hc.2.1, fun owner endpoints hs hn => ⟨hc.1, hs, hn⟩⟩
  | awaiting =>
    rw [hp] at hc
    exact ⟨hc.2.1, fun owner endpoints hs hn => ⟨hc.1, hs, hn⟩⟩
  | finishing outcome =>
    rw [hp] at hc
    rcases hc with ⟨-, -, hnil⟩ | ⟨harmed, hs⟩
    · exact absurd hnil hne
    · exact ⟨hs, fun owner endpoints hs _ => .inr ⟨harmed, hs⟩⟩
  | closing outcome =>
    rw [hp] at hc
    rcases hc with ⟨-, -, hnil⟩ | ⟨harmed, hs⟩
    · exact absurd hnil hne
    · exact ⟨hs, fun owner endpoints hs _ => .inr ⟨harmed, hs⟩⟩
  | returned =>
    rw [hp] at hc
    exact ⟨hc, fun owner endpoints hs _ => hs⟩
  | cancelled =>
    rw [hp] at hc
    exact ⟨hc, fun owner endpoints hs _ => hs⟩
  | building =>
    rw [hp] at hc
    exact absurd hc.2 hne
  | _ =>
    rw [hp] at hc
    exact absurd hc.2.2 hne

theorem set_ne_nil {i : ℕ} {e : Endpoint} {endpoints : List Endpoint}
    (hi : endpoints[i]? = some e) (e' : Endpoint) : endpoints.set i e' ≠ [] := by
  intro hnil
  rw [List.set_eq_nil_iff] at hnil
  simp [hnil] at hi

theorem Sound.dropHandoff (h : s.Sound) {outcome : PublicServiceOutcome}
    (hp : s.phase = .closing outcome) :
    (s.descriptor.dropHandoff s.armed).Sound ∧
      Shared (s.descriptor.dropHandoff s.armed).owner s.endpoints := by
  have hc := h.custody
  rw [hp] at hc
  rcases hc with ⟨harmed, howner, hnil⟩ | ⟨harmed, hs⟩
  · rw [harmed, h.descriptor.dropHandoff_true howner, hnil]
    exact ⟨h.descriptor.close (by simp [howner]), shared_nil_of_gone⟩
  · rw [harmed, Descriptor.dropHandoff_false]
    exact ⟨h.descriptor, hs⟩

theorem Sound.step (h : s.Sound) (hs : s.step a = some s') : s'.Sound := by
  have hc := h.custody
  cases step_cases hs with
  | stop a i e hi he =>
    obtain ⟨hshared, hkeeps⟩ := h.endpoints (by rintro hnil; simp [hnil] at hi)
    obtain ⟨hd, hshared'⟩ := hshared.stop h.descriptor hi he
    exact ⟨hd, hkeeps _ _ hshared' (set_ne_nil hi _)⟩
  | look i e hi he hv hseen =>
    obtain ⟨hshared, hkeeps⟩ := h.endpoints (by rintro hnil; simp [hnil] at hi)
    exact ⟨h.descriptor, hkeeps _ _ (hshared.look hi _) (set_ne_nil hi _)⟩
  | shutdown => exact ⟨h.descriptor, hc⟩
  | disconnect => exact ⟨h.descriptor, hc⟩
  | relay hr => exact ⟨h.descriptor, hc⟩
  | reuse hslot => exact ⟨h.descriptor.reuse (by simp [hslot]) nofun, hc⟩
  | release hslot => exact ⟨h.descriptor.reuse (by simp [hslot]) nofun, hc⟩
  | failed outcome hp ho => exact ⟨(h.dropHandoff hp).1, (h.dropHandoff hp).2⟩
  | orderly hp hu => exact ⟨(h.dropHandoff hp).1, (h.dropHandoff hp).2⟩
  | refuse hp =>
    rw [hp] at hc
    refine ⟨h.descriptor.close (by simp [hc.1]), ?_⟩
    show Shared .gone s.endpoints
    rw [hc.2.2]
    exact shared_nil_of_gone
  | unlock hp =>
    obtain ⟨howner, -, hnil⟩ : s.descriptor.owner = .descriptor ∧ s.armed = false ∧
        s.endpoints = [] := by
      rcases hp with hp | hp
      · rwa [hp] at hc
      · rwa [hp] at hc
    refine ⟨h.descriptor.close (by simp [howner]), ?_⟩
    show Shared .gone s.endpoints
    rw [hnil]
    exact shared_nil_of_gone
  | abandon hp =>
    rw [hp] at hc
    have hd : s.descriptor.dropHandoff s.armed = s.descriptor := by
      rw [hc.1, Descriptor.dropHandoff_false]
    refine ⟨?_, ?_⟩
    · show (s.descriptor.dropHandoff s.armed).Sound
      rw [hd]
      exact h.descriptor
    · show Shared (s.descriptor.dropHandoff s.armed).owner s.endpoints
      rw [hd]
      exact hc.2.1
  | transfer hp =>
    rw [hp] at hc
    exact ⟨h.descriptor.transfer (by simp [hc.1]) nofun, rfl, hc.2⟩
  | adopt hp =>
    rw [hp] at hc
    exact ⟨h.descriptor.transfer (by simp [hc.1]) nofun, rfl, hc.2.2⟩
  | serve n hp =>
    rw [hp] at hc
    refine ⟨h.descriptor, ?_, fun _ => List.cons_ne_nil _ _⟩
    show Shared s.descriptor.owner (List.replicate (n + 1) ⟨0, true⟩)
    unfold Shared
    rw [hc.1, List.countP_replicate]
    rfl
  | fail endpoints hp hn =>
    rw [hp] at hc
    refine ⟨h.descriptor.close (by simp [hc.1]), ?_, nofun⟩
    show Shared .gone s.endpoints
    rw [hc.2]
    exact shared_nil_of_gone
  | disarm serving hp =>
    rw [hp] at hc
    refine ⟨h.descriptor, ?_⟩
    cases serving with
    | true => exact ⟨rfl, hc.1, hc.2 rfl⟩
    | false => exact .inr ⟨rfl, hc.1⟩
  | ready hp =>
    rw [hp] at hc
    exact ⟨h.descriptor, hc⟩
  | mismatch hp =>
    rw [hp] at hc
    exact ⟨h.descriptor, .inr ⟨hc.1, hc.2.1⟩⟩
  | join panicked hp hr =>
    rw [hp] at hc
    exact ⟨h.descriptor, .inr ⟨hc.1, hc.2.1⟩⟩
  | finish outcome hp =>
    rw [hp] at hc
    exact ⟨h.descriptor, hc⟩
  | early hp =>
    rw [hp] at hc
    exact ⟨h.descriptor, .inl ⟨hc.2.1, hc.1, hc.2.2⟩⟩
  | arm hp =>
    rw [hp] at hc
    exact ⟨h.descriptor, hc.1, rfl, hc.2.2⟩
  | pass hp =>
    rw [hp] at hc
    exact ⟨h.descriptor, hc⟩
  | lockAdoption hp =>
    rw [hp] at hc
    exact ⟨h.descriptor, hc⟩
  | lockTable hp =>
    rw [hp] at hc
    exact ⟨h.descriptor, hc⟩
  | blocked hp =>
    rw [hp] at hc
    exact ⟨h.descriptor, hc⟩

theorem sound_run (h : run start as = some s) : s.Sound :=
  Transition.run_invariant (fun _ _ _ h hs => h.step hs) sound_start h

def Reported (notifier : ReadyNotifier) (acknowledged : ℕ) (startupFailed upstream : Bool) :
    PublicPhase → Prop
  | .awaiting => notifier = .sent ∧ startupFailed = false
  | .finishing outcome =>
    startupFailed = false ∧ notifier = if outcome = .failedBeforeReady then .held else .sent
  | .closing outcome => 0 < acknowledged ∧ startupFailed = false ∧
    notifier = if outcome = .failedBeforeReady then .forgotten else .sent
  | .returned => 0 < acknowledged ∧ notifier ≠ .held ∧
    (startupFailed = false → notifier = .sent ∧ upstream = true)
  | .cancelled => 0 < acknowledged ∧ notifier ≠ .held ∧ startupFailed = false
  | _ => notifier = .held ∧ startupFailed = false

theorem Reported.step
    (h : Reported s.notifier s.acknowledged s.startupFailed s.bridge.upstream s.phase)
    (hs : s.step a = some s') :
    Reported s'.notifier s'.acknowledged s'.startupFailed s'.bridge.upstream s'.phase := by
  cases step_cases hs with
  | stop a i e hi he => exact h
  | look i e hi he hv hseen => exact h
  | disconnect => exact h
  | relay hr => exact h
  | reuse hslot => exact h
  | release hslot => exact h
  | shutdown =>
    cases hp : s.phase with
    | returned =>
      rw [hp] at h
      exact ⟨h.1, h.2.1, fun hf => ⟨(h.2.2 hf).1, rfl⟩⟩
    | _ =>
      rw [hp] at h
      exact h
  | refuse hp =>
    rw [hp] at h
    refine ⟨Nat.succ_pos _, ?_, nofun⟩
    show s.notifier.drop ≠ .held
    rw [h.1]
    nofun
  | unlock hp =>
    obtain ⟨hheld, hf⟩ : s.notifier = .held ∧ s.startupFailed = false := by
      rcases hp with hp | hp
      · rwa [hp] at h
      · rwa [hp] at h
    refine ⟨Nat.succ_pos _, ?_, hf⟩
    show s.notifier.drop ≠ .held
    rw [hheld]
    nofun
  | abandon hp =>
    rw [hp] at h
    refine ⟨Nat.succ_pos _, ?_, h.2⟩
    show s.notifier.drop.drop ≠ .held
    rw [h.1]
    nofun
  | disarm serving hp =>
    rw [hp] at h
    cases serving with
    | true => exact h
    | false => exact ⟨h.2, h.1⟩
  | ready hp =>
    rw [hp] at h
    refine ⟨?_, h.2⟩
    show s.notifier.notifyReady = .sent
    rw [h.1]
    rfl
  | mismatch hp =>
    rw [hp] at h
    exact ⟨h.2, h.1⟩
  | early hp =>
    rw [hp] at h
    exact ⟨h.2, h.1⟩
  | join panicked hp hr =>
    rw [hp] at h
    cases panicked with
    | true => exact ⟨h.2, h.1⟩
    | false => exact ⟨h.2, h.1⟩
  | finish outcome hp =>
    rw [hp] at h
    refine ⟨Nat.succ_pos _, h.1, ?_⟩
    show s.notifier.drop = _
    rw [h.2]
    split_ifs
    · rfl
    · rfl
  | failed outcome hp ho =>
    rw [hp] at h
    refine ⟨Nat.succ_pos _, ?_, nofun⟩
    show s.notifier.drop ≠ .held
    rw [h.2.2]
    split_ifs
    · nofun
    · nofun
  | orderly hp hu =>
    rw [hp] at h
    have hsent : s.notifier = .sent := h.2.2
    have hdrop : s.notifier.drop = .sent := by
      rw [hsent]
      rfl
    refine ⟨Nat.succ_pos _, ?_, fun _ => ⟨hdrop, hu⟩⟩
    show s.notifier.drop ≠ .held
    rw [hdrop]
    nofun
  | fail endpoints hp hn =>
    rw [hp] at h
    exact h
  | _ =>
    next hp =>
      rw [hp] at h
      exact h

theorem reported_run (h : run start as = some s) :
    Reported s.notifier s.acknowledged s.startupFailed s.bridge.upstream s.phase := by
  refine Transition.run_invariant
    (P := fun u => Reported u.notifier u.acknowledged u.startupFailed u.bridge.upstream u.phase)
    (fun _ _ _ h hs => h.step hs) ?_ h
  exact ⟨rfl, rfl⟩

/-- The relay runs until it has sent, and the shutdown guard sends before it goes. -/
def Told (version : ℕ) (relay : Bool) (endpoints : List Endpoint) : PublicPhase → Prop
  | .entered | .lockingAdoption | .lockingTable | .arming | .armed => True
  | .closing _ | .returned | .cancelled => endpoints ≠ [] → 0 < version
  | _ => relay = true ∨ 0 < version

/-- An endpoint task that runs has not seen the shutdown, and what it will see is true. -/
structure Informed (s : PublicService) : Prop where
  unseen : ∀ e ∈ s.endpoints, e.running = true → e.seen = 0
  value : 0 < s.bridge.version → s.bridge.value = true
  told : Told s.bridge.version s.bridge.relay s.endpoints s.phase

theorem Informed.endpoints (h : s.Informed) (hsound : s.Sound) (hne : s.endpoints ≠ []) :
    (s.bridge.relay = true ∨ 0 < s.bridge.version) ∧ (s.finished = true → 0 < s.bridge.version) := by
  have ht := h.told
  have hc := hsound.custody
  unfold finished
  cases hp : s.phase with
  | building => exact absurd (by rw [hp] at hc; exact hc.2) hne
  | built serving =>
    rw [hp] at ht
    exact ⟨ht, nofun⟩
  | verifying =>
    rw [hp] at ht
    exact ⟨ht, nofun⟩
  | awaiting =>
    rw [hp] at ht
    exact ⟨ht, nofun⟩
  | finishing outcome =>
    rw [hp] at ht
    exact ⟨ht, nofun⟩
  | closing outcome =>
    rw [hp] at ht
    exact ⟨.inr (ht hne), nofun⟩
  | returned =>
    rw [hp] at ht
    exact ⟨.inr (ht hne), fun _ => ht hne⟩
  | cancelled =>
    rw [hp] at ht
    exact ⟨.inr (ht hne), fun _ => ht hne⟩
  | _ => exact absurd (by rw [hp] at hc; exact hc.2.2) hne

theorem told_set {version : ℕ} {relay : Bool} {endpoints : List Endpoint} {phase : PublicPhase}
    {i : ℕ} (e : Endpoint) (h : Told version relay endpoints phase) :
    Told version relay (endpoints.set i e) phase := by
  cases phase with
  | closing outcome => exact fun hne => h fun hnil => hne (by simp [hnil])
  | returned => exact fun hne => h fun hnil => hne (by simp [hnil])
  | cancelled => exact fun hne => h fun hnil => hne (by simp [hnil])
  | _ => exact h

theorem told_send {version version' : ℕ} {relay relay' : Bool} {endpoints : List Endpoint}
    {phase : PublicPhase} (h : Told version relay endpoints phase) (hpos : 0 < version') :
    Told version' relay' endpoints phase := by
  cases phase with
  | entered => trivial
  | lockingAdoption => trivial
  | lockingTable => trivial
  | arming => trivial
  | armed => trivial
  | closing outcome => exact fun _ => hpos
  | returned => exact fun _ => hpos
  | cancelled => exact fun _ => hpos
  | _ => exact .inr hpos

theorem Informed.step (h : s.Informed) (hsound : s.Sound) (hs : s.step a = some s') :
    s'.Informed := by
  have ht := h.told
  have hc := hsound.custody
  have hunseen := h.unseen
  cases step_cases hs with
  | stop a i e hi he =>
    refine ⟨fun c hmem hrun => ?_, h.value, told_set _ ht⟩
    rcases List.mem_or_eq_of_mem_set hmem with hmem | rfl
    · exact hunseen c hmem hrun
    · cases hrun
  | look i e hi he hv hseen =>
    have hon := h.value (Nat.lt_of_le_of_lt (Nat.zero_le _) hseen)
    simp [hon] at hv
  | shutdown => exact ⟨hunseen, h.value, ht⟩
  | disconnect => exact ⟨hunseen, h.value, ht⟩
  | relay hr => exact ⟨hunseen, fun _ => rfl, told_send ht (Nat.succ_pos _)⟩
  | reuse hslot => exact ⟨hunseen, h.value, ht⟩
  | release hslot => exact ⟨hunseen, h.value, ht⟩
  | refuse hp =>
    rw [hp] at hc
    exact ⟨hunseen, h.value, fun hne => absurd hc.2.2 hne⟩
  | unlock hp =>
    have hnil : s.endpoints = [] := by
      rcases hp with hp | hp
      · rw [hp] at hc
        exact hc.2.2
      · rw [hp] at hc
        exact hc.2.2
    exact ⟨hunseen, h.value, fun hne => absurd hnil hne⟩
  | abandon hp => exact ⟨hunseen, fun _ => rfl, fun _ => Nat.succ_pos _⟩
  | finish outcome hp => exact ⟨hunseen, fun _ => rfl, fun _ => Nat.succ_pos _⟩
  | transfer hp => exact ⟨hunseen, nofun, .inl rfl⟩
  | serve n hp =>
    rw [hp] at ht
    refine ⟨fun e he _ => ?_, h.value, ht⟩
    rw [List.eq_of_mem_replicate he]
  | disarm serving hp =>
    rw [hp] at ht
    refine ⟨hunseen, h.value, ?_⟩
    cases serving with
    | true => exact ht
    | false => exact ht
  | failed outcome hp ho =>
    rw [hp] at ht
    exact ⟨hunseen, h.value, ht⟩
  | orderly hp hu =>
    rw [hp] at ht
    exact ⟨hunseen, h.value, ht⟩
  | join panicked hp hr =>
    rw [hp] at ht
    exact ⟨hunseen, h.value, ht⟩
  | fail endpoints hp hn =>
    rw [hp] at ht
    exact ⟨hunseen, h.value, ht⟩
  | _ =>
    next hp =>
      rw [hp] at ht
      exact ⟨hunseen, h.value, ht⟩

theorem informed_run (h : run start as = some s) : s.Sound ∧ s.Informed := by
  refine Transition.run_invariant (P := fun u => u.Sound ∧ u.Informed)
    (fun _ _ _ h hs => ⟨h.1.step hs, h.2.step h.1 hs⟩) ⟨sound_start, ?_⟩ h
  exact ⟨nofun, nofun, trivial⟩

theorem endpoint_stops {i : ℕ} {e : Endpoint} (h : s.Informed) (hpos : 0 < s.bridge.version)
    (hi : s.endpoints[i]? = some e) (he : e.running = true) :
    ∃ s', s.step (.endpoint i) = some s' ∧ s'.running + 1 = s.running := by
  have hseen : e.seen < s.bridge.version := by
    rw [h.unseen e (List.mem_of_getElem? hi) he]
    exact hpos
  refine ⟨s.stopEndpoint i e, by simp [PublicService.step, hi, he, hseen, h.value hpos], ?_⟩
  have hcount := Census.countP_set hi (·.running) { e with running := false }
  rw [if_pos he] at hcount
  exact hcount

/-- Readiness fails closed. It is signalled in no step but a successful check of the published path
made after Pingora took the descriptor over and started its endpoint tasks. Whoever returns or
is cancelled has stopped the admission of requests and given the notifier up, and returns without a
startup failure only after it was ready and a shutdown was requested. -/
theorem readiness_fails_closed (h : run start as = some s) :
    (∀ a s', s.step a = some s' → s.notifier ≠ .sent → s'.notifier = .sent →
        a = .verify true ∧ s.armed = false ∧ s.endpoints ≠ []) ∧
      (s.finished = true → 0 < s.acknowledged ∧ s.notifier ≠ .held) ∧
      (s.phase = .returned → s.startupFailed = false →
        s.notifier = .sent ∧ s.bridge.upstream = true) := by
  have hreported := reported_run h
  refine ⟨fun a s' hs hno hyes => ?_, fun hover => ?_, fun hp hf => ?_⟩
  · have hdrop : s.notifier.drop ≠ .sent := by
      cases hn : s.notifier with
      | sent => exact absurd hn hno
      | held => nofun
      | forgotten => nofun
    have hdrop' : s.notifier.drop.drop ≠ .sent := by
      cases hn : s.notifier with
      | sent => exact absurd hn hno
      | held => nofun
      | forgotten => nofun
    cases step_cases hs with
    | ready hp =>
      have hc := (sound_run h).custody
      rw [hp] at hc
      exact ⟨rfl, hc.1, hc.2.2⟩
    | refuse hp => exact absurd hyes hdrop
    | finish outcome hp => exact absurd hyes hdrop
    | failed outcome hp ho => exact absurd hyes hdrop
    | orderly hp hu => exact absurd hyes hdrop
    | unlock hp => exact absurd hyes hdrop
    | abandon hp => exact absurd hyes hdrop'
    | _ => exact absurd hyes hno
  · unfold finished at hover
    split at hover
    · next hp =>
      rw [hp] at hreported
      exact ⟨hreported.1, hreported.2.1⟩
    · next hp =>
      rw [hp] at hreported
      exact ⟨hreported.1, hreported.2.1⟩
    · cases hover
  · rw [hp] at hreported
    exact hreported.2.2 hf

/-- The listener is ready, a shutdown arrives, and the two endpoint tasks end. -/
theorem readiness_fails_closed_orderly :
    ∃ s, run start
        [.check true, .lockAdoption, .lockTable, .arm, .transfer, .poll true, .adopt,
          .build (some 2), .disarm, .verify true, .shutdown, .relay, .endpoint 1, .endpoint 0,
          .join false, .finish, .close] = some s ∧
      s.startupFailed = false ∧ s.notifier = .sent ∧ s.bridge.upstream = true := by
  refine ⟨⟨.returned, ⟨none, .gone, [some .listener]⟩, false, ⟨true, false, false, 2, true⟩,
    [⟨0, false⟩, ⟨0, false⟩], .sent, 2, false⟩, ?run, rfl,
    (readiness_fails_closed ?run).2.2 rfl rfl⟩
  decide +kernel

/-- The descriptor of the listener is closed exactly once. Whatever is closed under its number is
the listener, at most once, and never the file of another thread that reuses the number; after
`start_service` is over and its endpoint tasks have ended it is closed. They do end: once
`start_service` is over, or a shutdown is requested or can no longer be, each of them can end now or
after the relay has sent. -/
theorem descriptor_closed_once (h : run start as = some s) :
    (s.descriptor.closed = [] ∨ s.descriptor.closed = [some .listener]) ∧
      (s.finished = true → s.running = 0 → s.descriptor.closed = [some .listener]) ∧
      ((s.finished || s.bridge.upstream || s.bridge.disconnected) = true →
        ∀ i e, s.endpoints[i]? = some e → e.running = true →
          (∃ s', s.step (.endpoint i) = some s' ∧ s'.running + 1 = s.running) ∨
          ∃ u s', s.step .relay = some u ∧ u.step (.endpoint i) = some s' ∧
            s'.running + 1 = s.running) := by
  obtain ⟨hsound, hinformed⟩ := informed_run h
  refine ⟨?_, fun hover hnone => ?_, fun hdone i e hi he => ?_⟩
  · by_cases hg : s.descriptor.owner = .gone
    · exact .inr (hsound.descriptor.gone hg).2
    · exact .inl (hsound.descriptor.kept hg).2
  · have hc := hsound.custody
    have hshared : Shared s.descriptor.owner s.endpoints := by
      unfold finished at hover
      split at hover
      · next hp => rwa [hp] at hc
      · next hp => rwa [hp] at hc
      · cases hover
    have hg : s.descriptor.owner = .gone := by
      have hzero : s.endpoints.countP (·.running) = 0 := hnone
      unfold Shared at hshared
      rwa [if_pos hzero] at hshared
    exact (hsound.descriptor.gone hg).2
  · obtain ⟨hrelay, hover⟩ :=
      hinformed.endpoints hsound (by rintro hnil; simp [hnil] at hi)
    by_cases hpos : 0 < s.bridge.version
    · exact .inl (endpoint_stops hinformed hpos hi he)
    · right
      have hlive : s.bridge.relay = true := hrelay.resolve_right hpos
      have hnotOver : s.finished = false := by
        cases ho : s.finished with
        | false => rfl
        | true => exact absurd (hover ho) hpos
      have hstep : s.step .relay = some { s with bridge := { s.bridge.send with relay := false } } := by
        simp only [hnotOver, Bool.false_or, Bool.or_eq_true] at hdone
        simp [step, hlive, hdone]
      obtain ⟨s', hs', hrun⟩ := endpoint_stops (hinformed.step hsound hstep) (Nat.succ_pos _) hi he
      exact ⟨_, s', hstep, hs', hrun⟩

/-- The published path no longer is the listener: the endpoint tasks are told to end, and another
thread gets the number as soon as the last of them has closed it. -/
theorem descriptor_closed_once_mismatch :
    ∃ s, run start
        [.check true, .lockAdoption, .lockTable, .arm, .transfer, .poll true, .adopt,
          .build (some 2), .disarm, .verify false, .finish, .endpoint 0, .endpoint 1, .reuse,
          .close] = some s ∧
      s.descriptor.slot = some .foreign ∧ s.descriptor.closed = [some .listener] := by
  refine ⟨⟨.returned, ⟨some .foreign, .gone, [some .listener]⟩, false, ⟨false, false, false, 1, true⟩,
    [⟨0, false⟩, ⟨0, false⟩], .forgotten, 2, true⟩, ?run, rfl,
    (descriptor_closed_once ?run).2.1 rfl rfl⟩
  decide +kernel

end PublicService

end ChpProxy
