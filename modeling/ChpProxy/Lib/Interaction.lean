import ChpProxy.Lib.Transition

/-! Programs that call a shared component while others use it too. A call is begun in one step and
is answered then or in a later one. -/
namespace Interaction

/-- A program is done, or makes a call and goes on with the reply. -/
inductive Program (Op : Type) (Reply : Op → Type) (α : Type) where
  | done (a : α)
  | call (op : Op) (next : Reply op → Program Op Reply α)

namespace Program

variable {Op : Type} {Reply : Op → Type} {α β : Type}

def bind : Program Op Reply α → (α → Program Op Reply β) → Program Op Reply β
  | .done a, f => f a
  | .call op next, f => .call op fun reply => (next reply).bind f

instance : Monad (Program Op Reply) where
  pure := .done
  bind := bind

/-- For some replies the program makes this call. -/
def MayCall (op : Op) : Program Op Reply α → Prop
  | .done _ => False
  | .call op' next => op' = op ∨ ∃ reply, (next reply).MayCall op

/-- Whatever the replies, the program makes this many calls. -/
def CallsTimes : ℕ → Program Op Reply α → Prop
  | 0, .done _ => True
  | n + 1, .call _ next => ∀ reply, (next reply).CallsTimes n
  | _, _ => False

end Program

/-- A component: what everyone else may do with it, how a call begins and when it is answered. -/
structure Component (σ A Op : Type) (Reply : Op → Type) (Ticket : Type) where
  step : σ → A → Option σ
  begin : σ → (op : Op) → σ × (Ticket ⊕ Reply op)
  poll : σ → (op : Op) → Ticket → Option (Reply op)

inductive Client (Op : Type) (Reply : Op → Type) (Ticket α : Type) where
  | running (program : Program Op Reply α)
  | waiting (op : Op) (ticket : Ticket) (next : Reply op → Program Op Reply α)

inductive Act (A : Type) where
  | others (a : A)
  | own

def Act.isOwn {A : Type} : Act A → Bool
  | .others _ => false
  | .own => true

def Act.others? {A : Type} : Act A → Option A
  | .others a => some a
  | .own => none

variable {σ A Op Ticket α : Type} {Reply : Op → Type}

def Client.result : Client Op Reply Ticket α → Option α
  | .running (.done a) => some a
  | _ => none

/-- The program takes its next step, or someone else uses the component. -/
def step (C : Component σ A Op Reply Ticket) (s : σ × Client Op Reply Ticket α) :
    Act A → Option (σ × Client Op Reply Ticket α)
  | .others a => (C.step s.1 a).map (·, s.2)
  | .own => match s.2 with
    | .running (.done _) => none
    | .running (.call op next) => match C.begin s.1 op with
      | (component, .inl ticket) => some (component, .waiting op ticket next)
      | (component, .inr reply) => some (component, .running (next reply))
    | .waiting op ticket next => (C.poll s.1 op ticket).map fun reply => (s.1, .running (next reply))

abbrev run (C : Component σ A Op Reply Ticket) :
    σ × Client Op Reply Ticket α → List (Act A) → Option (σ × Client Op Reply Ticket α) :=
  Transition.run (step C)

theorem run_of_done {C : Component σ A Op Reply Ticket} {s : σ} {a : α} {as : List (Act A)}
    {t : σ × Client Op Reply Ticket α} (h : run C (s, .running (.done a)) as = some t) :
    t.2 = .running (.done a) ∧
      ∃ bs, as = bs.map .others ∧ Transition.run C.step s bs = some t.1 := by
  induction as generalizing s with
  | nil =>
    obtain rfl : (s, .running (.done a)) = t := by simpa using h
    exact ⟨rfl, [], rfl, rfl⟩
  | cons act as ih =>
    obtain ⟨u, hu, hr⟩ := (Transition.run_cons_eq_some_iff _).mp h
    cases act with
    | own => cases hu
    | others b =>
      obtain ⟨s', hs, rfl⟩ := Option.map_eq_some_iff.mp hu
      obtain ⟨hdone, bs, rfl, hbs⟩ := ih hr
      exact ⟨hdone, b :: bs, rfl, (Transition.run_cons_eq_some_iff _).mpr ⟨s', hs, hbs⟩⟩

/-- The states of the component from moment to moment of the run. -/
def moments (C : Component σ A Op Reply Ticket) (s : σ × Client Op Reply Ticket α)
    (as : List (Act A)) : List σ :=
  (Transition.states (step C) s as).map Prod.fst

/-- The call `op`, next in the program, is answered by `reply` when the component is in state `u`
and the actions `cs` are still to come. -/
inductive Answered (C : Component σ A Op Reply Ticket) (op : Op) (s : σ) (as : List (Act A))
    (reply : Reply op) (u : σ) (cs : List (Act A)) : Prop
  | atOnce (bs : List A) (s' : σ) (has : as = bs.map .others ++ .own :: cs)
      (hbs : Transition.run C.step s bs = some s') (hb : C.begin s' op = (u, .inr reply))
  | later (bs ds : List A) (s' s'' : σ) (ticket : Ticket)
      (has : as = bs.map .others ++ .own :: (ds.map .others ++ .own :: cs))
      (hbs : Transition.run C.step s bs = some s') (hb : C.begin s' op = (s'', .inl ticket))
      (hds : Transition.run C.step s'' ds = some u) (hp : C.poll u op ticket = some reply)

section Answers

variable {C : Component σ A Op Reply Ticket} {s t u : σ} {as cs : List (Act A)} {a : α} {op : Op}
  {next : Reply op → Program Op Reply α} {reply : Reply op}

theorem run_others {client : Client Op Reply Ticket α} {bs : List A}
    (h : Transition.run C.step s bs = some t) :
    run C (s, client) (bs.map .others) = some (t, client) := by
  induction bs generalizing s with
  | nil =>
    obtain rfl : s = t := by simpa using h
    rfl
  | cons b bs ih =>
    obtain ⟨s', hs, hr⟩ := (Transition.run_cons_eq_some_iff _).mp h
    refine (Transition.run_cons_eq_some_iff _).mpr ⟨(s', client), ?_, ih hr⟩
    simp [step, hs]

/-- Until the client takes a step, a run is one of the others. -/
theorem others_or_own {client : Client Op Reply Ticket α} {v : σ × Client Op Reply Ticket α}
    (h : run C (s, client) as = some v) :
    (∃ bs : List A, as = bs.map .others ∧ v.2 = client) ∨
      ∃ (bs : List A) (s' : σ) (cs : List (Act A)), as = bs.map .others ++ .own :: cs ∧
        Transition.run C.step s bs = some s' ∧
        run C (s', client) (.own :: cs) = some v := by
  induction as generalizing s with
  | nil =>
    obtain rfl : (s, client) = v := by simpa using h
    exact .inl ⟨[], rfl, rfl⟩
  | cons act as ih =>
    cases act with
    | own => exact .inr ⟨[], s, as, rfl, rfl, h⟩
    | others b =>
      obtain ⟨w, hw, hr⟩ := (Transition.run_cons_eq_some_iff _).mp h
      obtain ⟨s', hs, rfl⟩ := Option.map_eq_some_iff.mp hw
      rcases ih hr with ⟨bs, rfl, hv⟩ | ⟨bs, s'', cs, rfl, hbs, hcs⟩
      · exact .inl ⟨b :: bs, rfl, hv⟩
      · refine .inr ⟨b :: bs, s'', cs, rfl, ?_, hcs⟩
        exact (Transition.run_cons_eq_some_iff _).mpr ⟨s', hs, hbs⟩

theorem answered_of_call {v : σ × Client Op Reply Ticket α}
    (h : run C (s, .running (.call op next)) as = some v) (hr : v.2.result = some a) :
    ∃ reply u cs, Answered C op s as reply u cs ∧ run C (u, .running (next reply)) cs = some v := by
  rcases others_or_own h with ⟨bs, -, hv⟩ | ⟨bs, s', cs, rfl, hbs, hcs⟩
  · rw [hv] at hr
    cases hr
  · obtain ⟨w, hw, hrest⟩ := (Transition.run_cons_eq_some_iff _).mp hcs
    simp only [step] at hw
    split at hw
    · next component ticket hb =>
      cases hw
      rcases others_or_own hrest with ⟨ds, -, hv⟩ | ⟨ds, u, es, rfl, hds, hes⟩
      · rw [hv] at hr
        cases hr
      · obtain ⟨w, hw, hlast⟩ := (Transition.run_cons_eq_some_iff _).mp hes
        obtain ⟨reply, hp, rfl⟩ := Option.map_eq_some_iff.mp hw
        exact ⟨reply, u, es, .later bs ds s' component ticket rfl hbs hb hds hp, hlast⟩
    · next component reply hb =>
      cases hw
      exact ⟨reply, component, cs, .atOnce bs s' rfl hbs hb, hrest⟩

theorem moments_others {client : Client Op Reply Ticket α} {bs : List A}
    (h : Transition.run C.step s bs = some t) :
    moments C (s, client) (bs.map .others) = Transition.states C.step s bs := by
  induction bs generalizing s with
  | nil => rfl
  | cons b bs ih =>
    obtain ⟨s', hs, hr⟩ := (Transition.run_cons_eq_some_iff _).mp h
    have htail := ih hr
    unfold moments at htail ⊢
    simp [Transition.states, step, hs, htail]

theorem moments_sublist {x y : σ × Client Op Reply Ticket α} {bs : List (Act A)}
    (h : run C x bs = some y) (cs : List (Act A)) :
    (moments C y cs).Sublist (moments C x (bs ++ cs)) :=
  (Transition.states_sublist h cs).map _

theorem sublist_moments {x y : σ × Client Op Reply Ticket α} {bs : List (Act A)}
    (h : run C x bs = some y) (cs : List (Act A)) :
    (moments C x bs).Sublist (moments C x (bs ++ cs)) :=
  (Transition.sublist_states h cs).map _

theorem mem_moments {x y : σ × Client Op Reply Ticket α} {bs : List (Act A)}
    (h : run C x bs = some y) (cs : List (Act A)) : y.1 ∈ moments C x (bs ++ cs) :=
  (sublist_moments h cs).subset (List.mem_map_of_mem (Transition.mem_states h))

theorem Answered.run (h : Answered C op s as reply u cs) (next : Reply op → Program Op Reply α) :
    ∃ bs, as = bs ++ cs ∧
      Interaction.run C (s, .running (.call op next)) bs = some (u, .running (next reply)) := by
  cases h with
  | atOnce bs s' has hbs hb =>
    refine ⟨bs.map .others ++ [.own], by simpa using has, ?_⟩
    refine (Transition.run_concat_eq_some_iff _).mpr ⟨_, run_others hbs, ?_⟩
    simp [step, hb]
  | later bs ds s' s'' ticket has hbs hb hds hp =>
    refine ⟨bs.map .others ++ .own :: (ds.map .others ++ [.own]), by simpa using has, ?_⟩
    refine (Transition.run_append_eq_some_iff _).mpr ⟨_, run_others hbs, ?_⟩
    refine (Transition.run_cons_eq_some_iff _).mpr ⟨(s'', .waiting op ticket next), ?_, ?_⟩
    · simp [step, hb]
    · refine (Transition.run_concat_eq_some_iff _).mpr ⟨_, run_others hds, ?_⟩
      simp [step, hp]

theorem exists_run_of_mem_moments {x : σ × Client Op Reply Ticket α} (hu : u ∈ moments C x as) :
    ∃ bs client, bs <+: as ∧ Interaction.run C x bs = some (u, client) := by
  obtain ⟨⟨u, client⟩, hmem, rfl⟩ := List.mem_map.mp hu
  obtain ⟨bs, hbs, hrun⟩ := Transition.exists_run_of_mem_states hmem
  exact ⟨bs, client, hbs, hrun⟩

/-- If every call is answered at once, the program is done after as many steps of its own as it makes
calls. -/
theorem result_of_calls (himmediate : ∀ s op, (C.begin s op).2.isRight = true)
    {p : Program Op Reply α} {v : σ × Client Op Reply Ticket α} {n : ℕ} (hp : p.CallsTimes n)
    (h : Interaction.run C (s, .running p) as = some v) (hn : as.countP Act.isOwn = n) :
    v.2.result ≠ none := by
  induction as generalizing s p n with
  | nil =>
    obtain rfl : (s, .running p) = v := by simpa using h
    obtain rfl : n = 0 := hn.symm
    cases p with
    | done a => exact Option.some_ne_none a
    | call op next => cases hp
  | cons act as ih =>
    obtain ⟨w, hw, hrest⟩ := (Transition.run_cons_eq_some_iff _).mp h
    cases act with
    | others b =>
      obtain ⟨s', -, rfl⟩ := Option.map_eq_some_iff.mp hw
      have hcount : as.countP Act.isOwn = n := by
        rwa [List.countP_cons_of_neg Bool.false_ne_true] at hn
      exact ih hp hrest hcount
    | own =>
      have hcount : as.countP Act.isOwn + 1 = n := by
        rwa [List.countP_cons_of_pos rfl] at hn
      cases p with
      | done a => cases hw
      | call op next =>
        subst hcount
        have hright := himmediate s op
        simp only [step] at hw
        split at hw
        · next hb =>
          rw [hb] at hright
          cases hright
        · cases hw
          exact ih (hp _) hrest rfl

/-- A result of the program follows from replies that are justified. -/
def Program.Explained (J : (op : Op) → Reply op → Prop) : Program Op Reply α → α → Prop
  | .done a, b => a = b
  | .call op next, b => ∃ reply, J op reply ∧ (next reply).Explained J b

theorem Program.Explained.mono {J J' : (op : Op) → Reply op → Prop}
    (hJ : ∀ op reply, J op reply → J' op reply) {p : Program Op Reply α} (h : p.Explained J a) :
    p.Explained J' a := by
  induction p with
  | done b => exact h
  | call op next ih =>
    obtain ⟨reply, hj, hn⟩ := h
    exact ⟨reply, hJ op reply hj, ih reply hn⟩

theorem Program.explained_bind {β : Type} {J : (op : Op) → Reply op → Prop}
    {p : Program Op Reply β} {f : β → Program Op Reply α} :
    (p >>= f).Explained J a ↔ ∃ b, p.Explained J b ∧ (f b).Explained J a := by
  change (p.bind f).Explained J a ↔ _
  induction p with
  | done b => simp [Program.bind, Program.Explained]
  | call op next ih =>
    simp only [Program.bind, Program.Explained, ih]
    constructor
    · rintro ⟨reply, hj, b, hb, hf⟩
      exact ⟨b, ⟨reply, hj, hb⟩, hf⟩
    · rintro ⟨b, ⟨reply, hj, hb⟩, hf⟩
      exact ⟨reply, hj, b, hb, hf⟩

/-- If every answer is justified by what happened during its call, the result of a run is explained
by what happened during the run. -/
theorem explained_of_run {J : List σ → (op : Op) → Reply op → Prop}
    (hmono : ∀ H H' : List σ, H.Sublist H' → ∀ op reply, J H op reply → J H' op reply)
    (hcall : ∀ (op : Op) (next : Reply op → Program Op Reply α) s as reply u cs,
      Answered C op s as reply u cs → J (moments C (s, .running (.call op next)) as) op reply)
    {p : Program Op Reply α} {v : σ × Client Op Reply Ticket α}
    (h : Interaction.run C (s, .running p) as = some v) (hr : v.2.result = some a) :
    p.Explained (J (moments C (s, .running p) as)) a := by
  induction p generalizing s as with
  | done b =>
    obtain ⟨hv, -⟩ := run_of_done h
    rw [hv] at hr
    exact Option.some.inj hr
  | call op next ih =>
    obtain ⟨reply, u, cs, hans, hrest⟩ := answered_of_call h hr
    refine ⟨reply, hcall op next s as reply u cs hans, ?_⟩
    obtain ⟨bs, rfl, hbs⟩ := hans.run next
    exact (ih reply hrest).mono (hmono _ _ (moments_sublist hbs cs))

end Answers

end Interaction
