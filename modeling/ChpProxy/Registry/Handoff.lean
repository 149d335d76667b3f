import ChpProxy.Registry.Machine

/-! The two parties of `run_mutation`: the task that supervises the mutation and the caller that
waits for its result. The oneshot response and its acknowledgment decide which of them reports a
failure. -/
namespace ChpProxy

/-- What a detached mutation leaves in the tracker. -/
def Outcome.diagnostic (operation : MutationOperation) :
    Outcome → Option DetachedMutationDiagnostic
  | .returned (.error e) => some (.failure ⟨operation, e⟩)
  | .returned (.ok _) => none
  | .panicked => some (.panic ⟨operation, operation.panicMessage⟩)

namespace Phase

def working : Phase → Bool
  | .admitted | .queued | .locked | .running _ => true
  | _ => false

def concluded : Phase → Bool
  | .releasing _ | .done _ => true
  | _ => false

theorem working_eq_false {p : Phase} {outcome : Outcome} (h : p.outcome? = some outcome) :
    p.working = false := by
  cases p <;> first | rfl | cases h

end Phase

/-- What one step does to a single mutation and its caller, with the diagnostics it records. -/
inductive Handoff (m : Mutation) : Mutation → List DetachedMutationDiagnostic → Prop
  | advance (p : Phase) (hw : m.phase.working = true)
      (hp : p = .queued ∨ p = .locked ∨ (∃ body, p = .running body) ∨
        (∃ result, p = .settled result) ∨ p = .responding .panicked)
      (hc : m.phase = .admitted → p = .queued) : Handoff m { m with phase := p } []
  | unavailable (hp : m.phase = .admitted) :
      Handoff m { m with
        phase := .unspawned
        caller := .returned (.error (.message m.request.operation.noRuntimeMessage)) } []
  | terminated (hp : m.phase = .admitted) :
      Handoff m { m with phase := .abandoned }
        [.panic ⟨m.request.operation, m.request.operation.terminatedMessage⟩]
  | conclude (result : MutationResult) (hp : m.phase = .settled result) :
      Handoff m { m with phase := .responding (.returned result) } []
  | respond (outcome : Outcome) (hp : m.phase = .responding outcome) (hc : m.caller = .waiting) :
      Handoff m { m with phase := .awaiting outcome } []
  | respondDetached (outcome : Outcome) (hp : m.phase = .responding outcome)
      (hc : m.caller = .cancelled) : Handoff m { m with phase := .finishing outcome true } []
  | acknowledged (outcome : Outcome) (result : MutationResult) (hp : m.phase = .awaiting outcome)
      (hc : m.caller = .returned result) :
      Handoff m { m with phase := .finishing outcome false } []
  | acknowledgmentLost (outcome : Outcome) (hp : m.phase = .awaiting outcome)
      (hc : m.caller = .cancelled) : Handoff m { m with phase := .finishing outcome true } []
  | finish (outcome : Outcome) (detached : Bool) (hp : m.phase = .finishing outcome detached) :
      Handoff m { m with phase := .releasing outcome }
        (if detached then (outcome.diagnostic m.request.operation).toList else [])
  | unlock (outcome : Outcome) (hp : m.phase = .releasing outcome) :
      Handoff m { m with phase := .done outcome } []
  | receive (outcome : Outcome) (hc : m.caller = .waiting) (hp : m.phase = .awaiting outcome) :
      Handoff m { m with caller := .received (outcome.response m.request.operation) } []
  | receiveNothing (hc : m.caller = .waiting) (hp : m.phase = .abandoned) :
      Handoff m { m with
        caller := .returned (.error (.message m.request.operation.noResultMessage)) } []
  | acknowledge (result : MutationResult) (hc : m.caller = .received result) :
      Handoff m { m with caller := .returned result } []
  | cancel (hc : m.caller = .waiting) (hp : m.phase ≠ .admitted) :
      Handoff m { m with caller := .cancelled } []

namespace Mutation

/-- Who knows about the outcome: a caller that went away learns nothing, and nothing is recorded
while the caller may still take the response. -/
def Delivered (m : Mutation) (reported : List DetachedMutationDiagnostic) : Prop :=
  match m.phase with
  | .admitted => m.caller = .waiting ∧ reported = []
  | .queued | .locked | .running _ | .settled _ | .responding _ =>
    (m.caller = .waiting ∨ m.caller = .cancelled) ∧ reported = []
  | .awaiting outcome =>
    (m.caller = .waiting ∨ m.caller = .cancelled ∨
      m.caller = .received (outcome.response m.request.operation) ∨
      m.caller = .returned (outcome.response m.request.operation)) ∧ reported = []
  | .finishing outcome detached =>
    (if detached then m.caller = .cancelled
      else m.caller = .returned (outcome.response m.request.operation)) ∧ reported = []
  | .releasing outcome | .done outcome =>
    m.caller = .returned (outcome.response m.request.operation) ∧ reported = [] ∨
      m.caller = .cancelled ∧ reported = (outcome.diagnostic m.request.operation).toList
  | .unspawned =>
    m.caller = .returned (.error (.message m.request.operation.noRuntimeMessage)) ∧ reported = []
  | .abandoned => True

/-- How far the two parties are from the end. -/
def remaining (m : Mutation) : ℕ :=
  (match m.phase with
    | .settled _ => 5
    | .responding _ => 4
    | .awaiting _ => 3
    | .finishing .. => 2
    | .releasing _ => 1
    | _ => 0) +
  match m.caller with
    | .waiting => 2
    | .received _ => 1
    | .returned _ | .cancelled => 0

variable {m m' : Mutation} {reported l : List DetachedMutationDiagnostic}

theorem Delivered.handoff (h : m.Delivered reported) (hh : Handoff m m' l) :
    m'.Delivered (reported ++ l) := by
  obtain ⟨request, phase, caller⟩ := m
  cases hh with
  | advance p hw hp hc =>
    have hcaller : (caller = .waiting ∨ caller = .cancelled) ∧ reported = [] := by
      cases phase with
      | admitted => exact ⟨.inl h.1, h.2⟩
      | queued => exact h
      | locked => exact h
      | running body => exact h
      | _ => cases hw
    rw [List.append_nil]
    rcases hp with rfl | rfl | ⟨body, rfl⟩ | ⟨result, rfl⟩ | rfl <;> exact hcaller
  | unavailable hp =>
    cases hp
    exact ⟨rfl, by rw [List.append_nil]; exact h.2⟩
  | terminated hp => trivial
  | conclude result hp =>
    cases hp
    rw [List.append_nil]
    exact h
  | respond outcome hp hc =>
    cases hp
    rw [List.append_nil]
    exact ⟨.inl hc, h.2⟩
  | respondDetached outcome hp hc =>
    cases hp
    rw [List.append_nil]
    exact ⟨hc, h.2⟩
  | acknowledged outcome result hp hc =>
    cases hp
    rw [List.append_nil]
    refine ⟨?_, h.2⟩
    rcases h.1 with hw | hw | hw | hw
    · cases hw.symm.trans hc
    · cases hw.symm.trans hc
    · cases hw.symm.trans hc
    · exact hw
  | acknowledgmentLost outcome hp hc =>
    cases hp
    rw [List.append_nil]
    exact ⟨hc, h.2⟩
  | finish outcome detached hp =>
    cases hp
    obtain ⟨hcaller, rfl⟩ := h
    cases detached with
    | true => exact .inr ⟨hcaller, rfl⟩
    | false => exact .inl ⟨hcaller, rfl⟩
  | unlock outcome hp =>
    cases hp
    rw [List.append_nil]
    exact h
  | receive outcome hc hp =>
    cases hp
    rw [List.append_nil]
    exact ⟨.inr (.inr (.inl rfl)), h.2⟩
  | receiveNothing hc hp =>
    cases hp
    trivial
  | acknowledge result hc =>
    cases hc
    rw [List.append_nil]
    -- A received response is only possible while the task awaits the acknowledgment.
    cases phase with
    | awaiting outcome =>
      refine ⟨.inr (.inr (.inr ?_)), h.2⟩
      rcases h.1 with hw | hw | hw | hw
      · cases hw
      · cases hw
      · exact congrArg Caller.returned (Caller.received.inj hw)
      · cases hw
    | admitted => cases h.1
    | queued | locked | running _ | settled _ | responding _ => rcases h.1 with hw | hw <;> cases hw
    | finishing outcome detached => cases detached <;> cases h.1
    | releasing outcome | done outcome => rcases h with ⟨hw, -⟩ | ⟨hw, -⟩ <;> cases hw
    | unspawned => cases h.1
    | abandoned => trivial
  | cancel hc hp =>
    cases hc
    rw [List.append_nil]
    cases phase with
    | awaiting outcome => exact ⟨.inr (.inl rfl), h.2⟩
    | admitted => exact absurd rfl hp
    | queued | locked | running _ | settled _ | responding _ => exact ⟨.inr rfl, h.2⟩
    | finishing outcome detached => cases detached <;> cases h.1
    | releasing outcome | done outcome => rcases h with ⟨hw, -⟩ | ⟨hw, -⟩ <;> cases hw
    | unspawned => cases h.1
    | abandoned => trivial

/-- Who reported the outcome, by the time the guard is finished. -/
theorem Delivered.cases {outcome : Outcome} (h : m.Delivered reported)
    (ho : m.phase.outcome? = some outcome) :
    m.phase.concluded = false ∧ reported = [] ∨
    m.phase.concluded = true ∧ m.caller = .returned (outcome.response m.request.operation) ∧
      reported = [] ∨
    m.phase.concluded = true ∧ m.caller = .cancelled ∧
      reported = (outcome.diagnostic m.request.operation).toList := by
  obtain ⟨request, phase, caller⟩ := m
  cases phase with
  | settled _ | responding _ | awaiting _ | finishing _ _ => exact .inl ⟨rfl, h.2⟩
  | releasing o =>
    obtain rfl := Option.some.inj ho
    rcases h with h | h
    · exact .inr (.inl ⟨rfl, h⟩)
    · exact .inr (.inr ⟨rfl, h⟩)
  | done o =>
    obtain rfl := Option.some.inj ho
    rcases h with h | h
    · exact .inr (.inl ⟨rfl, h⟩)
    · exact .inr (.inr ⟨rfl, h⟩)
  | _ => cases ho

/-- After its end the mutation keeps its outcome, and every further step brings it closer to the
report. -/
theorem remaining_lt_of_handoff {outcome : Outcome} (ho : m.phase.outcome? = some outcome)
    (hh : Handoff m m' l) :
    m'.phase.outcome? = some outcome ∧ m'.remaining < m.remaining := by
  obtain ⟨request, phase, caller⟩ := m
  cases hh with
  | advance p hw hp hc =>
    rw [Phase.working_eq_false ho] at hw
    cases hw
  | unavailable hp | terminated hp =>
    cases hp
    cases ho
  | receiveNothing hc hp =>
    cases hp
    cases ho
  | conclude _ hp | finish _ _ hp | unlock _ hp =>
    cases hp
    exact ⟨ho, by simp [remaining]⟩
  | respond _ hp hc | respondDetached _ hp hc | acknowledged _ _ hp hc
  | acknowledgmentLost _ hp hc =>
    cases hp
    cases hc
    exact ⟨ho, by simp [remaining]⟩
  | receive outcome hc hp =>
    cases hp
    cases hc
    exact ⟨ho, by simp [remaining]⟩
  | acknowledge result hc =>
    cases hc
    exact ⟨ho, by simp [remaining]⟩
  | cancel hc hp =>
    cases hc
    exact ⟨ho, by simp [remaining]⟩

end Mutation

end ChpProxy
