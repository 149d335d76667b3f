import ChpProxy.Lib.Session.Machine

/-! Proof outlines for a client of a shared server: what holds while a command is under way and
while its reply is, and the rule that the outline tells what became of the operation. -/
namespace Session

variable {δ ι l κ ρ ω α β ν : Type}

/-- Whether the operation has happened yet, and if so whether that step altered the server. -/
inductive Progress (α : Type) where
  | pending
  | observed (result : α)
  | committed (result : α)

/-- A result that a program may return at its progress. -/
def Settles (Clean Unknown : α → Prop) : Progress α → α → Prop
  | .pending, a => Clean a ∨ Unknown a
  | .observed b, a => a = b ∨ Clean a ∨ Unknown a
  | .committed b, a => a = b ∨ Unknown a

/-- A program that may be given up at its progress. -/
def Abandons (Clean Unknown : α → Prop) : Progress α → α → Prop
  | .committed _, a => Unknown a
  | .pending, a | .observed _, a => Clean a ∨ Unknown a

/-- Assertions at the awaits of a program, one for a command that was sent and one for a reply in
transit. They withstand the other clients, and follow from each other along the program. -/
structure Outline (S : Server δ κ ρ ω) (P : Program ι l κ ρ α β) (view : δ → ν)
    (Effect : List β → δ → δ → α → Prop) (Clean Unknown : α → Prop) (Harmless : κ → Prop) where
  Sent : List β → Progress α → l → κ → δ → Prop
  Replied : List β → Progress α → l → ρ → δ → Prop
  sent_disturb : ∀ {h p await command d} w, Sent h p await command d →
    Sent h p await command (S.disturb w d)
  replied_disturb : ∀ {h p await reply d} w, Replied h p await reply d →
    Replied h p await reply (S.disturb w d)
  start_send : ∀ {i command await} d, P.start i = .send command await →
    Sent [] .pending await command d
  start_stop : ∀ {i a}, P.start i = .stop a → Clean a
  execute : ∀ {h p await command d}, Sent h p await command d →
    (view (S.serve command d).1 = view d ∧
      Replied h p await (S.serve command d).2 (S.serve command d).1) ∨
    p = .pending ∧ ∃ a, Effect h d (S.serve command d).1 a ∧
      (Replied h (.committed a) await (S.serve command d).2 (S.serve command d).1 ∨
        view (S.serve command d).1 = view d ∧
          Replied h (.observed a) await (S.serve command d).2 (S.serve command d).1)
  resume_send : ∀ {h p await reply d i command next}, Replied h p await reply d →
    P.resume await reply i = .send command next →
    Sent (h ++ P.observe await reply i) p next command d
  resume_stop : ∀ {h p await reply d i a}, Replied h p await reply d →
    P.resume await reply i = .stop a → Settles Clean Unknown p a
  fail_sent : ∀ {h p await command d}, Sent h p await command d →
    Abandons Clean Unknown p (P.fail await)
  sent_harmless : ∀ {h p await command d}, Sent h p await command d → Clean (P.fail await) →
    Harmless command
  harmless : ∀ {command}, Harmless command → ∀ d, view (S.serve command d).1 = view d
  fail_replied : ∀ {h p await reply d}, Replied h p await reply d →
    Abandons Clean Unknown p (P.fail await)

variable {S : Server δ κ ρ ω} {P : Program ι l κ ρ α β} {view : δ → ν}
  {Effect : List β → δ → δ → α → Prop} {Clean Unknown : α → Prop} {Harmless : κ → Prop}
  {s₀ s s' : State δ l κ ρ α}
  {actions : List (Action ι ω)} {a : Action ι ω} {result : α}

/-- What the actions so far amount to. -/
def History (S : Server δ κ ρ ω) (P : Program ι l κ ρ α β) (view : δ → ν)
    (Effect : List β → δ → δ → α → Prop) (s₀ : State δ l κ ρ α) (actions : List (Action ι ω)) :
    Progress α → Prop
  | .pending => Silent S P view s₀ actions
  | .observed a => Silent S P view s₀ actions ∧ TookEffect S P view Effect s₀ actions a
  | .committed a => TookEffect S P view Effect s₀ actions a

theorem History.concat {p : Progress α} (h : History S P view Effect s₀ actions p)
    (hr : Transition.run (step S P) s₀ actions = some s) (ha : ¬alters S view s a) :
    History S P view Effect s₀ (actions ++ [a]) p := by
  cases p with
  | pending => exact Silent.concat h hr ha
  | observed b => exact ⟨h.1.concat hr ha, h.2.concat hr ha⟩
  | committed b => exact TookEffect.concat h hr ha

/-- No command of the client that can alter the server is left without an answer. -/
def Quiet (Harmless : κ → Prop) (s : State δ l κ ρ α) : Prop :=
  ∀ command, s.outstanding = some command ∨ s.unanswered = some command → Harmless command

/-- A verdict on a finished operation. -/
def Verdict (S : Server δ κ ρ ω) (P : Program ι l κ ρ α β) (view : δ → ν)
    (Effect : List β → δ → δ → α → Prop) (Clean Unknown : α → Prop) (Harmless : κ → Prop)
    (s₀ : State δ l κ ρ α) (actions : List (Action ι ω)) (s : State δ l κ ρ α) (result : α) :
    Prop :=
  Unknown result ∨
  (Clean result ∧ Silent S P view s₀ actions ∧ Quiet Harmless s) ∨
  (TookEffect S P view Effect s₀ actions result ∧ Quiet Harmless s)

theorem Quiet.of_none (h : s.outstanding = none) (h' : s.unanswered = none) :
    Quiet Harmless s := by
  intro command hcommand
  rw [h, h'] at hcommand
  rcases hcommand with hc | hc <;> exact nomatch hc

theorem Verdict.of_settles {p : Progress α} (h : Settles Clean Unknown p result)
    (hp : History S P view Effect s₀ actions p) (hs : Quiet Harmless s) :
    Verdict S P view Effect Clean Unknown Harmless s₀ actions s result := by
  cases p with
  | pending =>
    rcases h with hc | hu
    · exact .inr (.inl ⟨hc, hp, hs⟩)
    · exact .inl hu
  | observed b =>
    rcases h with rfl | hc | hu
    · exact .inr (.inr ⟨hp.2, hs⟩)
    · exact .inr (.inl ⟨hc, hp.1, hs⟩)
    · exact .inl hu
  | committed b =>
    rcases h with rfl | hu
    · exact .inr (.inr ⟨hp, hs⟩)
    · exact .inl hu

theorem Verdict.of_abandons {p : Progress α} (h : Abandons Clean Unknown p result)
    (hp : History S P view Effect s₀ actions p) (hs : Clean result → Quiet Harmless s) :
    Verdict S P view Effect Clean Unknown Harmless s₀ actions s result := by
  cases p with
  | pending =>
    rcases h with hc | hu
    · exact .inr (.inl ⟨hc, hp, hs hc⟩)
    · exact .inl hu
  | observed b =>
    rcases h with hc | hu
    · exact .inr (.inl ⟨hc, hp.1, hs hc⟩)
    · exact .inl hu
  | committed b => exact .inl h

theorem Verdict.concat (hharmless : ∀ {command}, Harmless command →
      ∀ d, view (S.serve command d).1 = view d)
    (h : Verdict S P view Effect Clean Unknown Harmless s₀ actions s result)
    (hr : Transition.run (step S P) s₀ actions = some s)
    (hout : ∀ command, s'.outstanding = some command → s.outstanding = some command)
    (hun : s'.unanswered = s.unanswered) :
    Verdict S P view Effect Clean Unknown Harmless s₀ (actions ++ [a]) s' result := by
  have hquiet : Quiet Harmless s → Quiet Harmless s' := by
    intro hq command hcommand
    rw [hun] at hcommand
    exact hq command (hcommand.imp_left (hout command))
  have ha : Quiet Harmless s → ¬alters S view s a := by
    intro hq
    cases a with
    | disturb | start | receive | fail => exact id
    | execute =>
      rintro ⟨command, hcommand, hview⟩
      exact hview (hharmless (hq command (.inl hcommand)) s.data)
  rcases h with hu | ⟨hc, hsilent, hq⟩ | ⟨heffect, hq⟩
  · exact .inl hu
  · exact .inr (.inl ⟨hc, hsilent.concat hr (ha hq), hquiet hq⟩)
  · exact .inr (.inr ⟨heffect.concat hr (ha hq), hquiet hq⟩)

namespace Outline

variable (O : Outline S P view Effect Clean Unknown Harmless)

/-- The assertion that stands at an await. -/
def Stands (h : List β) (p : Progress α) (await : l) (s : State δ l κ ρ α) : Prop :=
  (∃ command, s.outstanding = some command ∧ s.unanswered = some command ∧ s.reply = none ∧
    O.Sent h p await command s.data) ∨
  ∃ command reply, s.outstanding = none ∧ s.unanswered = some command ∧ s.reply = some reply ∧
    (Clean (P.fail await) → Harmless command) ∧ O.Replied h p await reply s.data

/-- Where the assertions stand in a run. -/
def Holds (s₀ : State δ l κ ρ α) (actions : List (Action ι ω)) (s : State δ l κ ρ α) : Prop :=
  match s.phase with
  | .idle => s.outstanding = none ∧ s.unanswered = none ∧ Silent S P view s₀ actions ∧
      observations S P s₀ actions = []
  | .awaiting await => ∃ p, History S P view Effect s₀ actions p ∧
      O.Stands (observations S P s₀ actions) p await s
  | .returned result => Verdict S P view Effect Clean Unknown Harmless s₀ actions s result

variable {O}

theorem holds_awaiting {await : l} (h : O.Holds s₀ actions s) (hphase : s.phase = .awaiting await) :
    ∃ p, History S P view Effect s₀ actions p ∧
      O.Stands (observations S P s₀ actions) p await s := by
  unfold Holds at h
  rw [hphase] at h
  exact h

theorem holds_disturb {w : ω} (hr : Transition.run (step S P) s₀ actions = some s)
    (h : O.Holds s₀ actions s) :
    O.Holds s₀ (actions ++ [.disturb w]) { s with data := S.disturb w s.data } := by
  have hsame : observations S P s₀ (actions ++ [.disturb w]) = observations S P s₀ actions :=
    observations_concat_of_nil hr rfl
  unfold Holds at h ⊢
  dsimp only
  rw [hsame]
  cases hphase : s.phase with
  | idle =>
    rw [hphase] at h
    exact ⟨h.1, h.2.1, h.2.2.1.concat hr id, h.2.2.2⟩
  | awaiting await =>
    rw [hphase] at h
    obtain ⟨p, hp, ⟨command, hout, hun, hreply, hsent⟩ |
      ⟨command, reply, hout, hun, hreply, hharm, hreplied⟩⟩ := h
    · exact ⟨p, hp.concat hr id, .inl ⟨command, hout, hun, hreply, O.sent_disturb w hsent⟩⟩
    · exact ⟨p, hp.concat hr id,
        .inr ⟨command, reply, hout, hun, hreply, hharm, O.replied_disturb w hreplied⟩⟩
  | returned result =>
    rw [hphase] at h
    exact Verdict.concat O.harmless h hr (fun _ => id) rfl

theorem holds_start {i : ι} (hr : Transition.run (step S P) s₀ actions = some s)
    (h : O.Holds s₀ actions s) (hphase : s.phase = .idle) :
    O.Holds s₀ (actions ++ [.start i]) (s.proceed (P.start i)) := by
  unfold Holds at h
  rw [hphase] at h
  have hsilent : Silent S P view s₀ (actions ++ [.start i]) := h.2.2.1.concat hr id
  have hnone : observations S P s₀ (actions ++ [.start i]) = [] :=
    (observations_concat_of_nil hr rfl).trans h.2.2.2
  cases hn : P.start i with
  | send command await =>
    refine ⟨.pending, hsilent, .inl ⟨command, rfl, rfl, rfl, ?_⟩⟩
    rw [hnone]
    exact O.start_send _ hn
  | stop b =>
    have hsettles : Settles Clean Unknown .pending b := .inl (O.start_stop hn)
    exact Verdict.of_settles hsettles hsilent (Quiet.of_none h.1 rfl)

theorem holds_receive {await : l} {reply : ρ} {i : ι}
    (hr : Transition.run (step S P) s₀ actions = some s) (h : O.Holds s₀ actions s)
    (hphase : s.phase = .awaiting await) (hreply : s.reply = some reply) :
    O.Holds s₀ (actions ++ [.receive i]) (s.proceed (P.resume await reply i)) := by
  obtain ⟨p, hp, ⟨command, -, -, hnone, -⟩ | ⟨_, reply', hout, -, hsome, -, hreplied⟩⟩ :=
    holds_awaiting h hphase
  · rw [hnone] at hreply
    exact nomatch hreply
  · obtain rfl : reply' = reply := Option.some.inj (hsome.symm.trans hreply)
    have hp' : History S P view Effect s₀ (actions ++ [.receive i]) p := hp.concat hr id
    cases hn : P.resume await reply' i with
    | send command next =>
      have hmore : observations S P s₀ (actions ++ [.receive i]) =
          observations S P s₀ actions ++ P.observe await reply' i := by
        rw [observations_concat hr]
        simp only [observed, hphase, hsome]
      refine ⟨p, hp', .inl ⟨command, rfl, rfl, rfl, ?_⟩⟩
      rw [hmore]
      exact O.resume_send hreplied hn
    | stop b =>
      exact Verdict.of_settles (O.resume_stop hreplied hn) hp' (Quiet.of_none hout rfl)

theorem holds_fail {await : l} (hr : Transition.run (step S P) s₀ actions = some s)
    (h : O.Holds s₀ actions s) (hphase : s.phase = .awaiting await) :
    O.Holds s₀ (actions ++ [.fail]) { s with phase := .returned (P.fail await) } := by
  obtain ⟨p, hp, ⟨command, hout, hun, -, hsent⟩ |
    ⟨command, reply, hout, hun, -, hharm, hreplied⟩⟩ := holds_awaiting h hphase
  · refine Verdict.of_abandons (O.fail_sent hsent) (hp.concat hr id) fun hc command' hcommand => ?_
    have heq : command = command' := by simpa [hout, hun] using hcommand
    rw [← heq]
    exact O.sent_harmless hsent hc
  · refine Verdict.of_abandons (O.fail_replied hreplied) (hp.concat hr id) ?_
    intro hc command' hcommand
    have heq : command = command' := by simpa [hout, hun] using hcommand
    rw [← heq]
    exact hharm hc

theorem holds_execute {command : κ} (hr : Transition.run (step S P) s₀ actions = some s)
    (h : O.Holds s₀ actions s) (hout : s.outstanding = some command)
    (hs : step S P s .execute = some s') : O.Holds s₀ (actions ++ [.execute]) s' := by
  have hs' : s' = { s with
      data := (S.serve command s.data).1
      outstanding := none
      reply := some (S.serve command s.data).2 } := by
    simp only [step, hout, Option.some.injEq] at hs
    exact hs.symm
  have hunseen : view (S.serve command s.data).1 = view s.data →
      ¬alters S view s (.execute : Action ι ω) := by
    rintro hview ⟨command', hcommand, hne⟩
    obtain rfl : command = command' := Option.some.inj (hout.symm.trans hcommand)
    exact hne hview
  cases hphase : s.phase with
  | idle =>
    unfold Holds at h
    rw [hphase, hout] at h
    exact nomatch h.1
  | awaiting await =>
    obtain ⟨p, hp, ⟨command', hout', hun, -, hsent⟩ | ⟨_, reply, hnone, -⟩⟩ :=
      holds_awaiting h hphase
    · obtain rfl : command' = command := Option.some.inj (hout'.symm.trans hout)
      have heff : ∀ {b}, Effect (observations S P s₀ actions) s.data
          (S.serve command' s.data).1 b → p = .pending →
          TookEffect S P view Effect s₀ (actions ++ [.execute]) b := by
        intro b he hpend
        rw [hpend] at hp
        refine TookEffect.of_execute hp hr hphase hs ?_
        rw [hs']
        exact he
      have hharm : Clean (P.fail await) → Harmless command' := O.sent_harmless hsent
      have hsame : observations S P s₀ (actions ++ [.execute]) = observations S P s₀ actions :=
        observations_concat_of_nil hr rfl
      rw [hs']
      unfold Holds
      dsimp only
      rw [hphase, hsame]
      rcases O.execute hsent with ⟨hview, hreplied⟩ | ⟨hpend, b, he, hreplied | ⟨hview, hreplied⟩⟩
      · exact ⟨p, hp.concat hr (hunseen hview), .inr ⟨command', _, rfl, hun, rfl, hharm, hreplied⟩⟩
      · exact ⟨.committed b, heff he hpend, .inr ⟨command', _, rfl, hun, rfl, hharm, hreplied⟩⟩
      · have hsilent : Silent S P view s₀ (actions ++ [.execute]) := by
          rw [hpend] at hp
          exact Silent.concat hp hr (hunseen hview)
        exact ⟨.observed b, ⟨hsilent, heff he hpend⟩,
          .inr ⟨command', _, rfl, hun, rfl, hharm, hreplied⟩⟩
    · rw [hnone] at hout
      exact nomatch hout
  | returned result =>
    unfold Holds at h
    rw [hphase] at h
    rw [hs']
    unfold Holds
    dsimp only
    rw [hphase]
    exact Verdict.concat O.harmless h hr (fun _ hnone => nomatch hnone) rfl

theorem holds_step (hr : Transition.run (step S P) s₀ actions = some s)
    (h : O.Holds s₀ actions s) (hs : step S P s a = some s') :
    O.Holds s₀ (actions ++ [a]) s' := by
  cases a with
  | disturb w =>
    rw [← Option.some.inj hs]
    exact holds_disturb hr h
  | start i =>
    simp only [step] at hs
    split at hs
    · next hphase =>
      rw [← Option.some.inj hs]
      exact holds_start hr h hphase
    · exact nomatch hs
    · exact nomatch hs
  | execute =>
    cases hout : s.outstanding with
    | none =>
      simp only [step, hout] at hs
      exact nomatch hs
    | some command => exact holds_execute hr h hout hs
  | receive i =>
    simp only [step] at hs
    split at hs
    · next hphase hreply =>
      rw [← Option.some.inj hs]
      exact holds_receive hr h hphase hreply
    · exact nomatch hs
  | fail =>
    simp only [step] at hs
    split at hs
    · next hphase =>
      rw [← Option.some.inj hs]
      exact holds_fail hr h hphase
    · exact nomatch hs
    · exact nomatch hs

/-- A program with an outline: however the server and the other clients interleave with it, its
result tells whether and how its operation happened. -/
theorem verdict (O : Outline S P view Effect Clean Unknown Harmless) {d : δ}
    (h : Transition.run (step S P) (initial d) actions = some s)
    (hphase : s.phase = .returned result) :
    Verdict S P view Effect Clean Unknown Harmless (initial d) actions s result := by
  have hholds : O.Holds (initial d) actions s :=
    Transition.run_history ⟨rfl, rfl, trivial, rfl⟩ (fun _ _ _ _ => holds_step) h
  unfold Holds at hholds
  rw [hphase] at hholds
  exact hholds

end Outline

end Session
