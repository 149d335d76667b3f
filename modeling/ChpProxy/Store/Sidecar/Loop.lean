import ChpProxy.Store.Sidecar.Reply

/-! The retry loop of a sidecar mutation, from what one of its turns can do. -/
namespace ChpProxy.SidecarStore

variable {store : SidecarStore} {operation : String}

/-- What a result says about the exchanges behind it: no more of them than the policy allows, all
but the last one refused, the last one refused as well when the error is ordinary, and accepted
exactly when there is a value. -/
structure Classified {α : Type} (store : SidecarStore) (acknowledgment : MutationAcknowledgment)
    (Accepted : Response → α → Prop) (outcome : Outcome α) : Prop where
  settled : ∃ before last, outcome.log = before ++ last ∧ last.length ≤ 1 ∧
    ∀ x ∈ before, ¬MayHaveCommitted acknowledgment x.reply
  bounded : outcome.log.length ≤ store.maxAttempts
  kinds : ∀ e, outcome.result = .error e → e.isOrdinary = true ∨ e.isIndeterminate = true
  ordinary : ∀ e, outcome.result = .error e → e.isOrdinary = true →
    ∀ x ∈ outcome.log, ¬MayHaveCommitted acknowledgment x.reply
  accepted : ∀ a, outcome.result = .ok a ↔ ∃ x r, outcome.log.getLast? = some x ∧
    x.reply = .response r ∧ Accepted r a

/-- What one turn of the retry loop can do. -/
inductive Turn {τ : Type} (store : SidecarStore) (operation : String)
    (acknowledgment : MutationAcknowledgment) : Outcome (HttpReply ⊕ τ) → Prop
  | unsent {e : StoreError} (he : e.isOrdinary = true) :
    Turn store operation acknowledgment (Logged.lift (.error e))
  | failed {x : Exchange} {e : StoreError}
      (hx : store.receive operation acknowledgment x.reply = .error e) :
    Turn store operation acknowledgment ⟨[x], .error e⟩
  | again {x : Exchange} {t : τ}
      (hx : store.receive operation acknowledgment x.reply = .ok none) :
    Turn store operation acknowledgment ⟨[x], .ok (.inr t)⟩
  | done {x : Exchange} {reply : HttpReply}
      (hx : store.receive operation acknowledgment x.reply = .ok (some reply)) :
    Turn store operation acknowledgment ⟨[x], .ok (.inl reply)⟩

section Attempts

variable {τ : Type} {method : Method} {url : String} {acknowledgment : MutationAcknowledgment}
  {makeAttempt : ℕ → τ → Except StoreError (Option (List UInt8) × τ)} {replies : ℕ → Reply}

theorem attempt_turn
    (hmake : ∀ k captured e, makeAttempt k captured = .error e → e.isOrdinary = true)
    (k : ℕ) (captured : τ) :
    Turn store operation acknowledgment
      (store.attempt operation method url acknowledgment makeAttempt replies k captured) := by
  unfold attempt
  cases hmade : makeAttempt k captured with
  | error e =>
    rw [Logged.lift_error_bind]
    exact .unsent (hmake k captured e hmade)
  | ok made =>
    obtain ⟨body, captured'⟩ := made
    simp only [Logged.lift_ok_bind]
    split_ifs with hlarge
    · exact .unsent rfl
    · rw [Logged.emit_bind]
      cases hreceive : store.receive operation acknowledgment (replies k) with
      | error e => exact .failed hreceive
      | ok received =>
        cases received with
        | none => exact .again hreceive
        | some reply => exact .done hreceive

namespace Turn

variable {turn : Outcome (HttpReply ⊕ τ)}

theorem refused (h : Turn store operation acknowledgment turn) {t : τ}
    (hagain : turn.result = .ok (.inr t)) :
    ∀ x ∈ turn.log, store.receive operation acknowledgment x.reply = .ok none := by
  cases h with
  | unsent | failed | done => cases hagain
  | again hx => simpa using hx

theorem length_le (h : Turn store operation acknowledgment turn) : turn.log.length ≤ 1 := by
  cases h with
  | unsent => exact Nat.zero_le 1
  | failed | again | done => exact Nat.le_refl 1

/-- An error that ends the loop: either nothing was sent or the last exchange failed with it. -/
theorem error_cases (h : Turn store operation acknowledgment turn) {e : StoreError}
    (herror : turn.result = .error e) :
    turn.log = [] ∧ e.isOrdinary = true ∨
      ∃ x, turn.log = [x] ∧ store.receive operation acknowledgment x.reply = .error e := by
  cases h with
  | unsent he =>
    obtain rfl := Except.error.inj herror
    exact .inl ⟨rfl, he⟩
  | failed hx =>
    obtain rfl := Except.error.inj herror
    exact .inr ⟨_, rfl, hx⟩
  | again | done => cases herror

theorem failed_of_mem (h : Turn store operation acknowledgment turn) {e : StoreError}
    (herror : turn.result = .error e) :
    ∀ x ∈ turn.log, store.receive operation acknowledgment x.reply = .error e := by
  intro x hx
  rcases h.error_cases herror with ⟨hnil, -⟩ | ⟨x', hone, hx'⟩
  · rw [hnil] at hx
    cases hx
  · rw [hone] at hx
    obtain rfl := List.mem_singleton.mp hx
    exact hx'

theorem done_cases (h : Turn store operation acknowledgment turn) {reply : HttpReply}
    (hdone : turn.result = .ok (.inl reply)) :
    ∃ x, turn.log = [x] ∧ store.receive operation acknowledgment x.reply = .ok (some reply) := by
  cases h with
  | unsent | failed | again => cases hdone
  | done hx =>
    obtain rfl := Sum.inl.inj (Except.ok.inj hdone)
    exact ⟨_, rfl, hx⟩

end Turn

theorem getLast?_of_mem {β : Type} {P : β → Prop} {before last : List β} {x : β}
    (hbefore : ∀ x ∈ before, P x) (hlast : ∀ x ∈ last, P x)
    (h : (before ++ last).getLast? = some x) : P x := by
  rcases List.mem_append.mp (List.mem_of_getLast? h) with hx | hx
  · exact hbefore x hx
  · exact hlast x hx

/-- Turns that are repeated only after a refusal classify the whole loop. -/
theorem retry_classified {attempt : ℕ → τ → Outcome (HttpReply ⊕ τ)}
    (hturn : ∀ k t, Turn store operation acknowledgment (attempt k t)) (captured : τ) :
    Classified store acknowledgment (fun r reply => store.Acknowledges r acknowledgment reply)
      (Retry.retry attempt (.backend operation) store.maxAttempts 0 captured) := by
  obtain ⟨before, last, hlog, hbefore, hle, hends⟩ :=
    Retry.retry_ends (fun k t t' h => (hturn k t).refused h) (fun k t => (hturn k t).length_le)
      store.maxAttempts 0 captured
  generalize Retry.retry attempt (.backend operation) store.maxAttempts 0 captured = outcome
    at hlog hends
  obtain ⟨log, result⟩ := outcome
  dsimp only at hlog hends
  subst hlog
  have hbounded : (before ++ last).length ≤ store.maxAttempts := by
    rw [List.length_append]
    exact hle
  have hrefused : ∀ x ∈ before, ¬MayHaveCommitted acknowledgment x.reply := fun x hx =>
    receive_eq_ok_none (hbefore x hx)
  -- No exchange of a loop without a value was acknowledged.
  have hunacknowledged : ∀ {last : List Exchange} {e : StoreError},
      (∀ x ∈ last, ∀ reply, store.receive operation acknowledgment x.reply ≠ .ok (some reply)) →
      ∀ reply, (.error e : Except StoreError HttpReply) = .ok reply ↔
        ∃ x r, (before ++ last).getLast? = some x ∧ x.reply = .response r ∧
          store.Acknowledges r acknowledgment reply := by
    intro last e hlast reply
    refine iff_of_false (fun h => by cases h) ?_
    rintro ⟨x, r, hx, hr, hack⟩
    have hnone : ∀ reply, store.receive operation acknowledgment x.reply ≠ .ok (some reply) := by
      refine getLast?_of_mem (fun x hx reply h => ?_) hlast hx
      rw [hbefore x hx] at h
      cases h
    exact hnone reply (receive_eq_ok_some.mpr ⟨r, hr, hack⟩)
  cases hends with
  | exhausted =>
    refine ⟨⟨before, [], rfl, Nat.zero_le 1, hrefused⟩, hbounded, ?_, ?_,
      hunacknowledged fun x hx => by cases hx⟩
    · intro e he
      obtain rfl := Except.error.inj he
      exact .inl rfl
    · intro e _ _ x hx
      rw [List.append_nil] at hx
      exact hrefused x hx
  | @failed k t e h =>
    have hfailed := (hturn k t).failed_of_mem h
    refine ⟨⟨before, _, rfl, (hturn k t).length_le, hrefused⟩, hbounded, ?_, ?_,
      hunacknowledged fun x hx reply hreply => by cases (hfailed x hx).symm.trans hreply⟩
    · intro e' he
      obtain rfl := Except.error.inj he
      rcases (hturn k t).error_cases h with ⟨-, hord⟩ | ⟨x, -, hx⟩
      · exact .inl hord
      · rcases receive_eq_error hx with rfl | ⟨rfl, -⟩
        · exact .inr rfl
        · exact .inl rfl
    · intro e' he hord x hx
      obtain rfl := Except.error.inj he
      rcases List.mem_append.mp hx with hx | hx
      · exact hrefused x hx
      · rcases receive_eq_error (hfailed x hx) with rfl | ⟨rfl, hnot⟩
        · cases hord
        · exact hnot
  | @done k t reply h =>
    obtain ⟨x, hone, hx⟩ := (hturn k t).done_cases h
    have hlast : (before ++ (attempt k t).log).getLast? = some x := by
      rw [hone, List.getLast?_append]
      rfl
    refine ⟨⟨before, _, rfl, (hturn k t).length_le, hrefused⟩, hbounded, ?_, ?_, ?_⟩
    · intro e he
      cases he
    · intro e he
      cases he
    · intro a
      dsimp only
      constructor
      · intro ha
        obtain rfl := Except.ok.inj ha
        obtain ⟨r, hr, hack⟩ := receive_eq_ok_some.mp hx
        exact ⟨x, r, hlast, hr, hack⟩
      · rintro ⟨x', r, hx', hr, hack⟩
        obtain rfl := Option.some.inj (hlast.symm.trans hx')
        have hsame := hx.symm.trans (receive_eq_ok_some.mpr ⟨r, hr, hack⟩)
        rw [Option.some.inj (Except.ok.inj hsame)]

/-- The retry loop, for a closure whose own failures are ordinary. -/
theorem mutationRequest_classified
    (hmake : ∀ k captured e, makeAttempt k captured = .error e → e.isOrdinary = true)
    (captured : τ) :
    Classified store acknowledgment (fun r reply => store.Acknowledges r acknowledgment reply)
      (store.mutationRequest operation method url acknowledgment makeAttempt replies captured) :=
  retry_classified (attempt_turn hmake) captured

end Attempts

end ChpProxy.SidecarStore
