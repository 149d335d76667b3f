import Mathlib.Data.List.Induction

/-! Runs of a partial step function, what a run emits, and rules that carry a property of one
step to every run. -/
namespace Transition

variable {σ α β : Type*} (step : σ → α → Option σ)

/-- Perform the actions in order; a disabled action ends the attempt. -/
def run : σ → List α → Option σ
  | s, [] => some s
  | s, a :: as => (step s a).bind (run · as)

/-- Everything a run emits, oldest first. -/
def trace (emit : σ → α → List β) : σ → List α → List β
  | _, [] => []
  | s, a :: as => emit s a ++ (step s a).elim [] (trace emit · as)

/-- The states of a run, from the first to the last. -/
def states : σ → List α → List σ
  | s, [] => [s]
  | s, a :: as => s :: (step s a).elim [] (states · as)

/-- `P` holds before every action of the run and in its last state. -/
def Throughout (P : σ → Prop) : σ → List α → Prop
  | s, [] => P s
  | s, a :: as => P s ∧ ∀ s', step s a = some s' → Throughout P s' as

/-- No action of the run is one that `Bad` names in the state where it is taken. -/
def Avoids (Bad : σ → α → Prop) : σ → List α → Prop
  | _, [] => True
  | s, a :: as => ¬Bad s a ∧ ∀ s', step s a = some s' → Avoids Bad s' as

instance decidableThroughout (P : σ → Prop) [DecidablePred P] :
    (s : σ) → (as : List α) → Decidable (Throughout step P s as)
  | s, [] => inferInstanceAs (Decidable (P s))
  | s, a :: as => match h : step s a with
    | none => decidable_of_iff (P s) (by simp [Throughout, h])
    | some s' =>
      haveI := decidableThroughout P s' as
      decidable_of_iff (P s ∧ Throughout step P s' as) (by simp [Throughout, h])

instance decidableAvoids (Bad : σ → α → Prop) [∀ s a, Decidable (Bad s a)] :
    (s : σ) → (as : List α) → Decidable (Avoids step Bad s as)
  | _, [] => inferInstanceAs (Decidable True)
  | s, a :: as => match h : step s a with
    | none => decidable_of_iff (¬Bad s a) (by simp [Avoids, h])
    | some s' =>
      haveI := decidableAvoids Bad s' as
      decidable_of_iff (¬Bad s a ∧ Avoids step Bad s' as) (by simp [Avoids, h])

@[simp] theorem run_nil (s : σ) : run step s [] = some s := rfl

theorem run_cons_eq_some_iff {s t : σ} {a : α} {as : List α} :
    run step s (a :: as) = some t ↔ ∃ s', step s a = some s' ∧ run step s' as = some t := by
  simp [run, Option.bind_eq_some_iff]

theorem run_append (s : σ) (as bs : List α) :
    run step s (as ++ bs) = (run step s as).bind (run step · bs) := by
  induction as generalizing s with
  | nil => rfl
  | cons a as ih =>
    rw [List.cons_append, run, run, Option.bind_assoc]
    congr 1
    funext s'
    exact ih s'

theorem run_append_eq_some_iff {s t : σ} {as bs : List α} :
    run step s (as ++ bs) = some t ↔
      ∃ s', run step s as = some s' ∧ run step s' bs = some t := by
  rw [run_append, Option.bind_eq_some_iff]

theorem run_concat_eq_some_iff {s t : σ} {as : List α} {a : α} :
    run step s (as ++ [a]) = some t ↔ ∃ s', run step s as = some s' ∧ step s' a = some t := by
  simp [run_append_eq_some_iff, run]

theorem trace_append {emit : σ → α → List β} {s s' : σ} {as : List α}
    (h : run step s as = some s') (bs : List α) :
    trace step emit s (as ++ bs) = trace step emit s as ++ trace step emit s' bs := by
  induction as generalizing s with
  | nil =>
    obtain rfl : s = s' := by simpa using h
    rfl
  | cons a as ih =>
    obtain ⟨u, hu, hr⟩ := (run_cons_eq_some_iff step).mp h
    simp [trace, hu, ih hr]

theorem trace_concat {emit : σ → α → List β} {s s' : σ} {as : List α}
    (h : run step s as = some s') (a : α) :
    trace step emit s (as ++ [a]) = trace step emit s as ++ emit s' a := by
  rw [trace_append step h]
  cases hs : step s' a <;> simp [trace, hs]

variable {step}

theorem states_concat {s t t' : σ} {as : List α} {a : α} (h : run step s as = some t)
    (ha : step t a = some t') : states step s (as ++ [a]) = states step s as ++ [t'] := by
  induction as generalizing s with
  | nil =>
    obtain rfl : s = t := by simpa using h
    simp [states, ha]
  | cons b bs ih =>
    obtain ⟨s', hs, hbs⟩ := (run_cons_eq_some_iff step).mp h
    simp [states, hs, ih hbs]

theorem states_sublist {s t : σ} {as : List α} (h : run step s as = some t) (bs : List α) :
    (states step t bs).Sublist (states step s (as ++ bs)) := by
  induction as generalizing s with
  | nil =>
    obtain rfl : s = t := by simpa using h
    exact List.Sublist.refl _
  | cons a as ih =>
    obtain ⟨s', hs, has⟩ := (run_cons_eq_some_iff step).mp h
    simp only [List.cons_append, states, hs, Option.elim_some]
    exact (ih has).cons s

theorem sublist_states {s t : σ} {as : List α} (h : run step s as = some t) (bs : List α) :
    (states step s as).Sublist (states step s (as ++ bs)) := by
  induction as generalizing s with
  | nil =>
    obtain rfl : s = t := by simpa using h
    cases bs with
    | nil => exact List.Sublist.refl _
    | cons b bs => exact (List.nil_sublist _).cons_cons s
  | cons a as ih =>
    obtain ⟨s', hs, has⟩ := (run_cons_eq_some_iff step).mp h
    simp only [List.cons_append, states, hs, Option.elim_some]
    exact (ih has).cons_cons s

theorem mem_states {s t : σ} {as : List α} (h : run step s as = some t) : t ∈ states step s as := by
  have hlast : [t].Sublist (states step s (as ++ [])) := states_sublist h []
  rw [List.append_nil] at hlast
  exact List.singleton_sublist.mp hlast

theorem exists_run_of_mem_states {s t : σ} {as : List α} (h : t ∈ states step s as) :
    ∃ bs, bs <+: as ∧ run step s bs = some t := by
  induction as generalizing s with
  | nil =>
    obtain rfl := List.mem_singleton.mp h
    exact ⟨[], List.prefix_rfl, rfl⟩
  | cons a as ih =>
    rcases List.mem_cons.mp h with rfl | h
    · exact ⟨[], List.nil_prefix, rfl⟩
    · cases hs : step s a with
      | none =>
        rw [hs] at h
        cases h
      | some s' =>
        rw [hs] at h
        obtain ⟨bs, hbs, hrun⟩ := ih h
        exact ⟨a :: bs, List.cons_prefix_cons.mpr ⟨rfl, hbs⟩,
          (run_cons_eq_some_iff step).mpr ⟨s', hs, hrun⟩⟩

/-- An invariant of the state together with the actions that led to it. -/
theorem run_history {P : List α → σ → Prop} {s : σ} (hs : P [] s)
    (hstep : ∀ as t a t', run step s as = some t → P as t → step t a = some t' → P (as ++ [a]) t')
    {t : σ} {as : List α} (h : run step s as = some t) : P as t := by
  induction as using List.reverseRecOn generalizing t with
  | nil =>
    obtain rfl : s = t := by simpa using h
    exact hs
  | append_singleton as a ih =>
    obtain ⟨t', hr, ha⟩ := (run_concat_eq_some_iff step).mp h
    exact hstep as t' a t hr (ih hr) ha

/-- A property preserved by every step is preserved by every run. -/
theorem run_invariant {P : σ → Prop} (hstep : ∀ s a s', P s → step s a = some s' → P s')
    {s t : σ} {as : List α} (hs : P s) (h : run step s as = some t) : P t :=
  run_history (P := fun _ u => P u) hs (fun _ u a u' _ => hstep u a u') h

/-- A reflexive and transitive relation that holds across every step from a state with the
invariant `P` holds across every run. -/
theorem run_relation {P : σ → Prop} {R : σ → σ → Prop} (hrefl : ∀ s, R s s)
    (htrans : ∀ s t u, R s t → R t u → R s u)
    (hinv : ∀ s a s', P s → step s a = some s' → P s')
    (hstep : ∀ s a s', P s → step s a = some s' → R s s')
    {s t : σ} {as : List α} (hs : P s) (h : run step s as = some t) : R s t := by
  induction as generalizing s with
  | nil =>
    obtain rfl : s = t := by simpa using h
    exact hrefl s
  | cons a as ih =>
    obtain ⟨s', ha, hr⟩ := (run_cons_eq_some_iff step).mp h
    exact htrans _ _ _ (hstep s a s' hs ha) (ih (hinv s a s' hs ha) hr)

/-- A machine that only stutters or takes steps of another one, seen through `f`, runs as that one
does. -/
theorem run_projects {τ γ : Type*} {step' : τ → γ → Option τ} {f : σ → τ}
    (hstep : ∀ s a s', step s a = some s' → f s' = f s ∨ ∃ b, step' (f s) b = some (f s'))
    {s t : σ} {as : List α} (h : run step s as = some t) :
    ∃ bs, run step' (f s) bs = some (f t) := by
  refine run_invariant (P := fun u => ∃ bs, run step' (f s) bs = some (f u)) ?_ ⟨[], rfl⟩ h
  rintro u a u' ⟨bs, hbs⟩ hu
  rcases hstep u a u' hu with hsame | ⟨b, hb⟩
  · exact ⟨bs, hsame ▸ hbs⟩
  · exact ⟨bs ++ [b], (run_concat_eq_some_iff step').mpr ⟨f u, hbs, hb⟩⟩

/-- An invariant that needs `Q` in the states it passes through. -/
theorem Throughout.invariant {P Q : σ → Prop}
    (hstep : ∀ s a s', Q s → Q s' → P s → step s a = some s' → P s')
    {s t : σ} {as : List α} (hq : Throughout step Q s as) (hs : P s)
    (h : run step s as = some t) : P t := by
  induction as generalizing s with
  | nil =>
    obtain rfl : s = t := by simpa using h
    exact hs
  | cons a as ih =>
    obtain ⟨s', ha, hr⟩ := (run_cons_eq_some_iff step).mp h
    have hq' := hq.2 s' ha
    have hnext : Q s' := by
      cases as with
      | nil => exact hq'
      | cons b bs => exact hq'.1
    exact ih hq' (hstep s a s' hq.1 hnext hs ha) hr

theorem avoids_concat {Bad : σ → α → Prop} {s t : σ} {as : List α} {a : α}
    (h : run step s as = some t) (hb : Avoids step Bad s as) (ha : ¬Bad t a) :
    Avoids step Bad s (as ++ [a]) := by
  induction as generalizing s with
  | nil =>
    obtain rfl : s = t := by simpa using h
    exact ⟨ha, fun _ _ => trivial⟩
  | cons b as ih =>
    obtain ⟨s', hs, hr⟩ := (run_cons_eq_some_iff step).mp h
    refine ⟨hb.1, fun u hu => ?_⟩
    obtain rfl : s' = u := Option.some.inj (hs.symm.trans hu)
    exact ih hr (hb.2 s' hs)

/-- An invariant of the state together with everything emitted so far, for runs that never take a
step named by `Bad`. -/
theorem Avoids.trace_invariant {emit : σ → α → List β} {P : List β → σ → Prop}
    {Bad : σ → α → Prop}
    (hstep : ∀ l s a s', ¬Bad s a → P l s → step s a = some s' → P (l ++ emit s a) s')
    {s t : σ} {as : List α} (hb : Avoids step Bad s as) (hs : P [] s)
    (h : run step s as = some t) : P (trace step emit s as) t := by
  have hacc : ∀ (as : List α) (s : σ) (l : List β), Avoids step Bad s as → P l s →
      run step s as = some t → P (l ++ trace step emit s as) t := by
    intro as
    induction as with
    | nil =>
      intro s l _ hl h
      obtain rfl : s = t := by simpa using h
      simpa [trace] using hl
    | cons a as ih =>
      intro s l hb hl h
      obtain ⟨s', ha, hr⟩ := (run_cons_eq_some_iff step).mp h
      have hnext := ih s' _ (hb.2 s' ha) (hstep l s a s' hb.1 hl ha) hr
      simpa [trace, ha] using hnext
  exact hacc as s [] hb hs h

/-- An invariant of runs that never take a step named by `Bad`. -/
theorem Avoids.invariant {P : σ → Prop} {Bad : σ → α → Prop}
    (hstep : ∀ s a s', ¬Bad s a → P s → step s a = some s' → P s')
    {s t : σ} {as : List α} (hb : Avoids step Bad s as) (hs : P s)
    (h : run step s as = some t) : P t := by
  have htrace := @Avoids.trace_invariant _ _ Empty step (fun _ _ => []) (fun _ => P) Bad
  exact htrace (fun _ s a s' => hstep s a s') hb hs h

theorem avoids_of_forall_not {Bad : σ → α → Prop} (h : ∀ s a, ¬Bad s a) (s : σ) (as : List α) :
    Avoids step Bad s as := by
  induction as generalizing s with
  | nil => trivial
  | cons a as ih => exact ⟨h s a, fun s' _ => ih s'⟩

/-- An invariant of the state together with everything emitted so far. -/
theorem trace_invariant {emit : σ → α → List β} {P : List β → σ → Prop}
    (hstep : ∀ l s a s', P l s → step s a = some s' → P (l ++ emit s a) s')
    {s t : σ} {as : List α} (hs : P [] s) (h : run step s as = some t) :
    P (trace step emit s as) t :=
  Avoids.trace_invariant (fun l s a s' _ => hstep l s a s')
    (avoids_of_forall_not (fun (_ : σ) (_ : α) (hf : False) => hf) s as) hs h

end Transition
