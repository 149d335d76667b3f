import Mathlib.Data.List.Basic

/-! Fallible computations that log what they emit, and the bounded repetition of one. -/

structure Logged (β ε α : Type*) where
  log : List β
  result : Except ε α

namespace Logged

universe u v w

variable {β : Type u} {ε : Type v}

def lift {α : Type w} (result : Except ε α) : Logged β ε α := ⟨[], result⟩

def emit (b : β) : Logged β ε PUnit.{w + 1} := ⟨[b], .ok ⟨⟩⟩

def bind {α γ : Type w} (x : Logged β ε α) (f : α → Logged β ε γ) : Logged β ε γ :=
  match x.result with
  | .error e => ⟨x.log, .error e⟩
  | .ok a => ⟨x.log ++ (f a).log, (f a).result⟩

instance : Monad (Logged.{u, v, w} β ε) where
  pure a := lift (.ok a)
  bind := bind

variable {α γ : Type w}

theorem bind_of_error {x : Logged β ε α} {e : ε} (h : x.result = .error e)
    (f : α → Logged β ε γ) : x >>= f = ⟨x.log, .error e⟩ := by
  change bind x f = _
  unfold bind
  rw [h]

theorem bind_of_ok {x : Logged β ε α} {a : α} (h : x.result = .ok a) (f : α → Logged β ε γ) :
    x >>= f = ⟨x.log ++ (f a).log, (f a).result⟩ := by
  change bind x f = _
  unfold bind
  rw [h]

@[simp] theorem lift_log (r : Except ε α) : (lift r : Logged β ε α).log = [] := rfl

@[simp] theorem lift_result (r : Except ε α) : (lift r : Logged β ε α).result = r := rfl

@[simp] theorem pure_eq (a : α) : (pure a : Logged β ε α) = lift (.ok a) := rfl

@[simp] theorem lift_error_bind (e : ε) (f : α → Logged β ε γ) :
    (lift (.error e) : Logged β ε α) >>= f = lift (.error e) :=
  bind_of_error rfl f

@[simp] theorem lift_ok_bind (a : α) (f : α → Logged β ε γ) :
    (lift (.ok a) : Logged β ε α) >>= f = f a :=
  bind_of_ok rfl f

@[simp] theorem emit_bind (b : β) (f : PUnit → Logged β ε γ) :
    emit b >>= f = ⟨b :: (f ⟨⟩).log, (f ⟨⟩).result⟩ :=
  bind_of_ok rfl f

/-- The effect-free continuation of a computation keeps its log. -/
theorem bind_lift_log (x : Logged β ε α) (f : α → Except ε γ) :
    (x >>= fun a => lift (f a)).log = x.log := by
  cases h : x.result with
  | error e => rw [bind_of_error h]
  | ok a => simp [bind_of_ok h]

theorem bind_lift_result (x : Logged β ε α) (f : α → Except ε γ) :
    (x >>= fun a => lift (f a)).result = x.result.bind f := by
  cases h : x.result with
  | error e => rw [bind_of_error h]; rfl
  | ok a => rw [bind_of_ok h]; rfl

end Logged

namespace Retry

open Logged

universe u v w

variable {β : Type u} {ε : Type v} {α τ : Type w} (attempt : ℕ → τ → Logged β ε (α ⊕ τ))
  (exhausted : ε)

/-- Repeat an attempt until it returns a value or fails. The second number counts the attempts
made, the first one those that are left. -/
def retry : ℕ → ℕ → τ → Logged β ε α
  | 0, _, _ => lift (.error exhausted)
  | left + 1, k, t => attempt k t >>= fun
    | .inl a => pure a
    | .inr t => retry left (k + 1) t

/-- How the last attempt decides the whole repetition. -/
inductive Ends : List β → Except ε α → Prop
  | exhausted : Ends [] (.error exhausted)
  | failed {k : ℕ} {t : τ} {e : ε} (h : (attempt k t).result = .error e) :
    Ends (attempt k t).log (.error e)
  | done {k : ℕ} {t : τ} {a : α} (h : (attempt k t).result = .ok (.inl a)) :
    Ends (attempt k t).log (.ok a)

variable {attempt exhausted}

/-- When an attempt is repeated only after events that are all `Refused`, every event of the
repetition is refused except for those of its last attempt. -/
theorem retry_ends {Refused : β → Prop}
    (hrefused : ∀ k t t', (attempt k t).result = .ok (.inr t') →
      ∀ b ∈ (attempt k t).log, Refused b)
    (hlength : ∀ k t, (attempt k t).log.length ≤ 1) (n k : ℕ) (t : τ) :
    ∃ before last, (retry attempt exhausted n k t).log = before ++ last ∧
      (∀ b ∈ before, Refused b) ∧ before.length + last.length ≤ n ∧
      Ends attempt exhausted last (retry attempt exhausted n k t).result := by
  induction n generalizing k t with
  | zero => exact ⟨[], [], rfl, by simp, Nat.le_refl 0, .exhausted⟩
  | succ n ih =>
    have hone := hlength k t
    unfold retry
    match hr : (attempt k t).result with
    | .error e =>
      rw [bind_of_error hr]
      have hle : 0 + (attempt k t).log.length ≤ n + 1 := by omega
      exact ⟨[], (attempt k t).log, rfl, by simp, hle, .failed hr⟩
    | .ok (.inl a) =>
      rw [bind_of_ok hr]
      have hle : 0 + (attempt k t).log.length ≤ n + 1 := by omega
      exact ⟨[], (attempt k t).log, List.append_nil _, by simp, hle, .done hr⟩
    | .ok (.inr t') =>
      rw [bind_of_ok hr]
      obtain ⟨before, last, hlog, hbefore, hle, hends⟩ := ih (k + 1) t'
      refine ⟨(attempt k t).log ++ before, last, ?_, ?_, ?_, hends⟩
      · rw [hlog, List.append_assoc]
      · intro b hb
        rcases List.mem_append.mp hb with hb | hb
        · exact hrefused k t t' hr b hb
        · exact hbefore b hb
      · rw [List.length_append]
        omega

/-- An event that has a successor was not emitted by a last attempt of at most one event. -/
theorem mem_before_last {before last pre post : List β} {b : β}
    (h : before ++ last = pre ++ b :: post) (hlast : last.length ≤ 1) (hpost : post ≠ []) :
    b ∈ before := by
  have hpos : 0 < post.length := List.length_pos_iff.mpr hpost
  rcases List.append_eq_append_iff.mp h with ⟨mid, -, hmid⟩ | ⟨mid, hmid, hrest⟩
  · rw [hmid, List.length_append, List.length_cons] at hlast
    omega
  · cases mid with
    | nil =>
      rw [← List.nil_append last, ← hrest, List.length_cons] at hlast
      omega
    | cons c mid =>
      obtain ⟨rfl, -⟩ := List.cons.inj hrest
      rw [hmid]
      simp

end Retry
