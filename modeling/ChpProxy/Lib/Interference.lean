import Mathlib.Logic.Relation
import ChpProxy.Lib.Interaction

/-! Programs whose calls are answered at once, while others disturb what they work on between any
two calls, and rules of pre- and postconditions for them. -/
namespace Interaction

/-- What others may do, and what a call may do. The fate settles what a call leaves open, such as
whether it fails; a fate that cannot befall the call has no answer. -/
structure System (σ A Op : Type) (Reply : Op → Type) (Fate : Type) where
  disturb : σ → A → Option σ
  answer : σ → (op : Op) → Fate → Option (σ × Reply op)

inductive Turn (A Fate : Type) where
  | others (a : A)
  | own (fate : Fate)

variable {σ A Op Fate α β ε : Type} {Reply : Op → Type}

namespace Program

/-- Every call the program can make has the property. -/
def Calls (P : Op → Prop) : Program Op Reply α → Prop
  | .done _ => True
  | .call op next => P op ∧ ∀ reply, (next reply).Calls P

theorem Calls.bind {P : Op → Prop} {p : Program Op Reply α} {f : α → Program Op Reply β}
    (h : p.Calls P) (hf : ∀ a, (f a).Calls P) : (p.bind f).Calls P := by
  induction p with
  | done a => exact hf a
  | call op next ih => exact ⟨h.1, fun reply => ih reply (h.2 reply)⟩

end Program

/-- A program that may fail. -/
abbrev Fallible (Op : Type) (Reply : Op → Type) (ε α : Type) := ExceptT ε (Program Op Reply) α

namespace Fallible

def ensure (c : Bool) (e : ε) : Fallible Op Reply ε Unit := if c then pure () else throw e

/-- Run the body; if it fails, run the cleanup first. -/
def onError (body : Fallible Op Reply ε α) (cleanup : Program Op Reply Unit) :
    Fallible Op Reply ε α :=
  ExceptT.mk (body.run.bind fun
    | .ok a => .done (.ok a)
    | .error e => cleanup.bind fun _ => .done (.error e))

/-- Run the body and then the cleanup, whether the body failed or not. -/
def thenDrop (body : Fallible Op Reply ε α) (cleanup : Program Op Reply Unit) :
    Fallible Op Reply ε α :=
  ExceptT.mk (body.run.bind fun r => cleanup.bind fun _ => .done r)

theorem calls_bind {P : Op → Prop} {p : Fallible Op Reply ε α} {f : α → Fallible Op Reply ε β}
    (h : p.run.Calls P) (hf : ∀ a, (f a).run.Calls P) : (p >>= f).run.Calls P := by
  apply Program.Calls.bind h
  intro r
  cases r with
  | ok a => exact hf a
  | error e => trivial

theorem calls_ensure {P : Op → Prop} (c : Bool) (e : ε) :
    (ensure c e : Fallible Op Reply ε Unit).run.Calls P := by
  cases c <;> trivial

end Fallible

namespace System

variable (S : System σ A Op Reply Fate)

def turn (s : σ × Program Op Reply α) : Turn A Fate → Option (σ × Program Op Reply α)
  | .others a => (S.disturb s.1 a).map (·, s.2)
  | .own fate => match s.2 with
    | .done _ => none
    | .call op next => (S.answer s.1 op fate).map fun t => (t.1, next t.2)

abbrev run : σ × Program Op Reply α → List (Turn A Fate) → Option (σ × Program Op Reply α) :=
  Transition.run S.turn

/-- What others can make of a state. -/
def Disturbed : σ → σ → Prop := Relation.ReflTransGen fun s s' => ∃ a, S.disturb s a = some s'

/-- Others do not invalidate the assertion. -/
def Stable (P : σ → Prop) : Prop := ∀ s a s', P s → S.disturb s a = some s' → P s'

/-- The weakest precondition for a program to keep `I` with every call and to end with `Q`. -/
def wp (I : σ → Prop) : Program Op Reply α → (α → σ → Prop) → σ → Prop
  | .done a, Q, s => ∀ s', S.Disturbed s s' → Q a s'
  | .call op next, Q, s => ∀ s' fate s'' reply, S.Disturbed s s' →
      S.answer s' op fate = some (s'', reply) → I s'' ∧ wp I (next reply) Q s''

variable {S} {I P : σ → Prop} {Q Q' : α → σ → Prop} {s s' : σ}

theorem Stable.disturbed (h : S.Stable P) (hs : S.Disturbed s s') (hp : P s) : P s' := by
  induction hs with
  | refl => exact hp
  | tail _ hstep ih =>
    obtain ⟨a, ha⟩ := hstep
    exact h _ a _ ih ha

theorem Stable.and {P' : σ → Prop} (h : S.Stable P) (h' : S.Stable P') :
    S.Stable fun s => P s ∧ P' s :=
  fun s a s' hs ha => ⟨h s a s' hs.1 ha, h' s a s' hs.2 ha⟩

theorem Stable.and_const (h : S.Stable P) (C : Prop) : S.Stable fun s => P s ∧ C :=
  fun s a s' hs ha => ⟨h s a s' hs.1 ha, hs.2⟩

theorem wp_disturbed {p : Program Op Reply α} (h : S.wp I p Q s) (hs : S.Disturbed s s') :
    S.wp I p Q s' := by
  cases p with
  | done a =>
    intro t ht
    exact h t (hs.trans ht)
  | call op next =>
    intro t fate t' reply ht
    exact h t fate t' reply (hs.trans ht)

theorem wp_done {a : α} (hst : S.Stable (Q a)) (h : Q a s) : S.wp I (.done a) Q s :=
  fun _ hs => hst.disturbed hs h

theorem wp_call {op : Op} {next : Reply op → Program Op Reply α} (hst : S.Stable P) (hp : P s)
    (h : ∀ s fate s' reply, P s → S.answer s op fate = some (s', reply) →
      I s' ∧ S.wp I (next reply) Q s') : S.wp I (.call op next) Q s := by
  intro t fate t' reply ht ha
  exact h t fate t' reply (hst.disturbed ht hp) ha

theorem wp_mono {p : Program Op Reply α} (h : S.wp I p Q s) (hq : ∀ a s, Q a s → Q' a s) :
    S.wp I p Q' s := by
  induction p generalizing s with
  | done a =>
    intro t ht
    exact hq a t (h t ht)
  | call op next ih =>
    intro t fate t' reply ht ha
    obtain ⟨hi, hw⟩ := h t fate t' reply ht ha
    exact ⟨hi, ih reply hw⟩

theorem wp_bind {p : Program Op Reply β} {f : β → Program Op Reply α} {R : β → σ → Prop}
    (h : S.wp I p R s) (hf : ∀ b s, R b s → S.wp I (f b) Q s) : S.wp I (p.bind f) Q s := by
  induction p generalizing s with
  | done b => exact hf b s (h s .refl)
  | call op next ih =>
    intro t fate t' reply ht ha
    obtain ⟨hi, hw⟩ := h t fate t' reply ht ha
    exact ⟨hi, ih reply hw⟩

theorem wp_closed {p : Program Op Reply α} (h : S.wp I p Q s) :
    S.wp I p (fun a s => ∀ s', S.Disturbed s s' → Q a s') s := by
  induction p generalizing s with
  | done a =>
    intro t ht t' ht'
    exact h t' (ht.trans ht')
  | call op next ih =>
    intro t fate t' reply ht ha
    obtain ⟨hi, hw⟩ := h t fate t' reply ht ha
    exact ⟨hi, ih reply hw⟩

theorem wp_map {p : Program Op Reply β} {f : β → α} {R : β → σ → Prop}
    (h : S.wp I p R s) (hf : ∀ b s, R b s → Q (f b) s) :
    S.wp I (p.bind fun b => .done (f b)) Q s := by
  apply wp_bind (wp_closed h)
  intro b t hb t' ht'
  exact hf b t' (hb t' ht')

section Fallible

variable {p : Fallible Op Reply ε β} {R : Except ε β → σ → Prop} {Q : Except ε α → σ → Prop}

theorem wp_try {f : β → Fallible Op Reply ε α} (h : S.wp I p.run R s)
    (herr : ∀ e s, R (.error e) s → Q (.error e) s)
    (hok : ∀ b s, R (.ok b) s → S.wp I (f b).run Q s) : S.wp I (p >>= f).run Q s := by
  apply wp_bind (wp_closed h)
  intro r t hr
  cases r with
  | error e =>
    intro t' ht'
    exact herr e t' (hr t' ht')
  | ok b => exact hok b t (hr t .refl)

theorem wp_lift {p : Program Op Reply β} {R : β → σ → Prop} {f : β → Fallible Op Reply ε α}
    (h : S.wp I p R s) (hf : ∀ b s, R b s → S.wp I (f b).run Q s) :
    S.wp I ((ExceptT.lift p : Fallible Op Reply ε β) >>= f).run Q s := by
  have hlift : S.wp I (ExceptT.lift p : Fallible Op Reply ε β).run
      (fun r s => ∃ b, r = .ok b ∧ R b s) s :=
    wp_map h fun b _ hb => ⟨b, rfl, hb⟩
  apply wp_try hlift
  · intro e t ⟨b, he, _⟩
    cases he
  · intro b t ⟨b', he, hb⟩
    cases he
    exact hf b t hb

theorem wp_onError {cleanup : Program Op Reply Unit} {Q : Except ε β → σ → Prop}
    (h : S.wp I p.run R s) (hok : ∀ b s, R (.ok b) s → Q (.ok b) s)
    (herr : ∀ e s, R (.error e) s → S.wp I cleanup (fun _ s => Q (.error e) s) s) :
    S.wp I (Fallible.onError p cleanup).run Q s := by
  apply wp_bind (wp_closed h)
  intro r t hr
  cases r with
  | error e => exact wp_map (herr e t (hr t .refl)) fun _ _ hq => hq
  | ok b =>
    intro t' ht'
    exact hok b t' (hr t' ht')

end Fallible

theorem wp_ensure {c : Bool} {e : ε} (hst : S.Stable P) (hp : P s) :
    S.wp I (Fallible.ensure c e).run (fun r s => P s ∧ ∀ u, r = .ok u → c = true) s := by
  cases c with
  | true => exact wp_done (hst.and_const _) ⟨hp, fun _ _ => rfl⟩
  | false => exact wp_done (hst.and_const _) ⟨hp, nofun⟩

/-- A program that makes harmless calls only keeps what they keep. -/
theorem wp_calls {p : Program Op Reply α} {Harmless : Op → Prop} (hc : p.Calls Harmless)
    (hkeep : ∀ s op fate s' reply, Harmless op → S.answer s op fate = some (s', reply) → s' = s)
    (hst : S.Stable P) (hi : ∀ s, P s → I s) (h : P s) : S.wp I p (fun _ => P) s := by
  induction p generalizing s with
  | done a => exact wp_done hst h
  | call op next ih =>
    apply wp_call hst h
    intro t fate t' reply ht ha
    obtain rfl := hkeep t op fate t' reply hc.1 ha
    exact ⟨hi _ ht, ih reply (hc.2 reply) ht⟩

/-- The weakest precondition holds of what is left of the program, and `I` holds, whenever the
program has come some way. -/
theorem wp_run {p p' : Program Op Reply α} {turns : List (Turn A Fate)} (hst : S.Stable I)
    (hi : I s) (h : S.wp I p Q s) (hr : S.run (s, p) turns = some (s', p')) :
    I s' ∧ S.wp I p' Q s' := by
  have hstep : ∀ (u : σ × Program Op Reply α) (a : Turn A Fate) u',
      (I u.1 ∧ S.wp I u.2 Q u.1) → S.turn u a = some u' → I u'.1 ∧ S.wp I u'.2 Q u'.1 := by
    intro ⟨u, q⟩ a u' ⟨hu, hw⟩ ha
    cases a with
    | others b =>
      obtain ⟨t, ht, rfl⟩ := Option.map_eq_some_iff.mp ha
      exact ⟨hst u b t hu ht, wp_disturbed hw (.single ⟨b, ht⟩)⟩
    | own fate =>
      cases q with
      | done a => cases ha
      | call op next =>
        obtain ⟨t, ht, rfl⟩ := Option.map_eq_some_iff.mp ha
        exact hw u fate t.1 t.2 .refl ht
  exact Transition.run_invariant (P := fun u => I u.1 ∧ S.wp I u.2 Q u.1) hstep ⟨hi, h⟩ hr

theorem post_of_wp_done {a : α} (h : S.wp I (.done a) Q s) : Q a s := h s .refl

end System

end Interaction
