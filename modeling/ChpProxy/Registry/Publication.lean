import ChpProxy.Registry.Core

/-! Publications. Nothing but a successful swap changes the published snapshot, and every load/swap
loop of a mutation installs its edit once, on top of the snapshot it replaces. -/
namespace ChpProxy

/-- The edits one author published, oldest first. -/
def editsBy (author : Author) (events : List Event) : List RouteEdit :=
  events.filterMap fun event => match event with
    | .published a edit => if a = author then some edit else none
    | _ => none

@[simp] theorem editsBy_nil (author : Author) : editsBy author [] = [] := rfl

@[simp] theorem editsBy_append (author : Author) (l l' : List Event) :
    editsBy author (l ++ l') = editsBy author l ++ editsBy author l' := List.filterMap_append ..

namespace Phase

/-- The edit a publication loop applies. -/
def edit? : Phase → Option RouteEdit
  | .running (.merging edit _) | .running (.swapping edit _ _) => some edit
  | _ => none

/-- The mutation is in the publication loop for `edit`. -/
def Looping (edit : RouteEdit) (result : Option RouteData) : Phase → Prop
  | .running (.merging e r) | .running (.swapping e r _) => e = edit ∧ r = result
  | _ => False

end Phase

namespace Registry

variable {σ ι : Type} {S : Store σ ι} {s s' : Registry σ}

theorem preserving_edit (call : Call) (out : call.Output) : (call.edit out).preserving = true := by
  cases call <;> rfl

/-- The registry never publishes a replacement that forgets a timestamp. -/
def EditInv (s : Registry σ) : Prop :=
  ∀ i p, s.phase? i = some p → p.edit?.all RouteEdit.preserving = true

theorem editInv_task (h : EditInv s) {i : ℕ} {m : Mutation} {a : Action ι}
    (hm : s.tasks[i]? = some m) (ht : TaskStep S s i m a s') : EditInv s' := by
  have hq := h i _ (phase?_eq hm)
  cases ht with
  | runtimeUnavailable hp =>
    exact (moves_setPhase_setCaller hm .unspawned _ rfl).forall_phase h rfl
  | receive _ _ _ | receiveNothing _ _ | acknowledge _ _ | cancel _ _ =>
    exact (moves_setCaller hm _ rfl).forall_phase h hq
  | poll hp =>
    refine (moves_setPhase hm _ rfl).forall_phase h ?_
    cases hr : m.request with
    | persistObservedActivity key at' =>
      simp only [invoke]
      split <;> rfl
    | _ => rfl
  | exec call floors choice store reply hp hs =>
    refine (moves_setPhase hm _ rfl).forall_phase h ?_
    cases reply with
    | error e => rfl
    | ok out =>
      simp only [afterCall]
      split_ifs
      · exact preserving_edit call out
      · rfl
  | load edit result hp | retry edit result current hp hid =>
    rw [hp] at hq
    exact (moves_setPhase hm _ rfl).forall_phase h hq
  | _ => exact (moves_setPhase hm _ rfl).forall_phase h rfl

theorem editInv_step (h : EditInv s) {a : Action ι} (hs : step S s a = some s') : EditInv s' := by
  cases step_cases hs with
  | accept request hopen =>
    intro i p hi
    rcases phase?_concat request _ i p hi with hi | rfl
    · exact h i p hi
    · rfl
  | task i m a s' hm ht => exact editInv_task h hm ht
  | observer j o a s' ho hobs => cases hobs <;> exact h
  | _ => exact h

/-- What the events of a step say about the published snapshot and its author's loop. -/
inductive Publication (S : Store σ ι) (s : Registry σ) (a : Action ι) (s' : Registry σ) : Prop
  | none (hsnap : s'.snapshot = s.snapshot)
      (hev : ∀ author edit, .published author edit ∉ events S s a)
  | task (i : ℕ) (edit : RouteEdit) (result : Option RouteData) (current : Published)
      (hp : s.phase? i = some (.running (.swapping edit result current)))
      (hp' : s'.phase? i = some (.settled (.ok result)))
      (hsnap : s'.snapshot.snapshot = s.snapshot.snapshot.edited edit)
      (hev : events S s a = [.published (.task i) edit])
  | observer (j : ℕ) (o : Observer) (current : Published) (ho : s.observers[j]? = some o)
      (hp : o.phase = .swapping current)
      (ho' : s'.observers[j]? = some { o with phase := .returned true })
      (hsnap : s'.snapshot.snapshot = s.snapshot.snapshot.edited (.updateActivity o.key o.at'))
      (hev : events S s a = [.published (.observer j) (.updateActivity o.key o.at')])

theorem not_published_poll (i : ℕ) (author : Author) (edit : RouteEdit) :
    Event.published author edit ∉ events S s (.poll i) := by
  simp only [events]
  repeat' split
  all_goals simp

theorem not_published_exec (i : ℕ) (choice : ι) (author : Author) (edit : RouteEdit) :
    Event.published author edit ∉ events S s (.exec i choice) := by
  simp only [events]
  repeat' split
  all_goals simp

theorem publication_task (h : Inv s) {i : ℕ} {m : Mutation} {a : Action ι}
    (hm : s.tasks[i]? = some m) (ht : TaskStep S s i m a s') : Publication S s a s' := by
  cases ht with
  | swap edit result current hp hid =>
    have hi : s.phase? i = some (.running (.swapping edit result current)) := by
      rw [phase?_eq hm, hp]
    obtain rfl := h.snapshot.held_eq current (.inl ⟨i, edit, result, hi⟩) hid
    refine .task i edit result s.snapshot hi (moves_setPhase hm _ rfl).self rfl ?_
    obtain ⟨request, phase, caller⟩ := m
    cases hp
    simp [events, hm]
  | retry edit result current hp hid =>
    refine .none rfl ?_
    obtain ⟨request, phase, caller⟩ := m
    cases hp
    simp [events, hm, hid]
  | poll hp => exact .none rfl (not_published_poll i)
  | exec call floors choice store reply hp hs => exact .none rfl (not_published_exec i choice)
  | _ => exact .none rfl (by simp [events])

/-- Every publication replaces the current snapshot by its edited version, and nothing else changes
the published snapshot. -/
theorem publication_step (h : Inv s) {a : Action ι} (hs : step S s a = some s') :
    Publication S s a s' := by
  cases step_cases hs with
  | task i m a s' hm ht => exact publication_task h hm ht
  | observer j o a s' ho hobs =>
    obtain ⟨key, at', phase⟩ := o
    cases hobs with
    | swap current hp hid =>
      cases hp
      obtain rfl := h.snapshot.held_eq current (.inr ⟨j, _, ho, rfl⟩) hid
      refine .observer j _ s.snapshot ho rfl ?_ rfl (by simp [events, ho])
      simp [setObserver, publish, ho]
    | retry current hp hid =>
      cases hp
      exact .none rfl (by simp [events, ho, hid])
    | _ => exact .none rfl (by simp [events])
  | drained a _ _ ha _ _ => rcases ha with ⟨d, rfl⟩ | ⟨d, rfl⟩ <;> exact .none rfl (by simp [events])
  | _ => exact .none rfl (by simp [events])

/-- The timestamp of a route does not decrease in a step that does not publish its deletion. -/
theorem lastActivity_le_step (h : Inv s) (he : EditInv s) {a : Action ι}
    (hs : step S s a = some s') {key : RouteKey} {d : RouteData}
    (hd : s.routes.byKey[key]? = some d)
    (hk : ∀ author, .published author (.remove key) ∉ events S s a) :
    ∃ d', s'.routes.byKey[key]? = some d' ∧ d.lastActivity ≤ d'.lastActivity := by
  cases publication_step h hs with
  | none hsnap hev => exact ⟨d, by rw [routes, hsnap]; exact hd, le_refl _⟩
  | task i edit result current hp hp' hsnap hev =>
    have hne : edit ≠ .remove key := by
      rintro rfl
      exact hk (.task i) (by simp [hev])
    have hroutes : s'.routes = edit.apply s.routes := congrArg RouteSnapshot.routes hsnap
    rw [hroutes]
    exact OrderedRoutes.lastActivity_le_apply (he i _ hp) hd hne
  | observer j o current ho hp ho' hsnap hev =>
    have hroutes : s'.routes = RouteEdit.apply (.updateActivity o.key o.at') s.routes :=
      congrArg RouteSnapshot.routes hsnap
    rw [hroutes]
    exact OrderedRoutes.lastActivity_le_apply rfl hd (by simp)

theorem editsBy_eq_nil {author : Author} {l : List Event}
    (h : ∀ edit, .published author edit ∉ l) : editsBy author l = [] := by
  rw [editsBy, List.filterMap_eq_nil_iff]
  intro event hev
  cases event with
  | published a edit =>
    have hne : a ≠ author := by
      rintro rfl
      exact h edit hev
    simp [hne]
  | _ => rfl

theorem editsBy_task_eq_nil {a : Action ι} (h : Publication S s a s') {i : ℕ}
    (hi : s'.phase? i = s.phase? i ∨
      ∀ e r c, s.phase? i ≠ some (.running (.swapping e r c))) :
    editsBy (.task i) (events S s a) = [] := by
  cases h with
  | none hsnap hev => exact editsBy_eq_nil fun edit => hev _ edit
  | observer j o current ho hp ho' hsnap hev => rw [hev]; rfl
  | task k edit result current hp hp' hsnap hev =>
    rw [hev]
    have hk : k ≠ i := by
      rintro rfl
      rcases hi with hi | hi
      · rw [hp, hp'] at hi
        cases hi
      · exact hi edit result current hp
    refine editsBy_eq_nil fun e he => ?_
    simp [hk.symm] at he

theorem phase?_step {i : ℕ} {p : Phase} {a : Action ι} (hs : step S s a = some s')
    (hp : s.phase? i = some p) :
    s'.phase? i = s.phase? i ∨ ∃ m, s.tasks[i]? = some m ∧ m.phase = p ∧ TaskStep S s i m a s' := by
  cases step_cases hs with
  | accept request hopen => exact .inl ((phase?_concat_of_some request _ hp).trans hp.symm)
  | task j m a s' hm ht =>
    by_cases hj : i = j
    · subst hj
      exact .inr ⟨m, hm, Option.some.inj ((phase?_eq hm).symm.trans hp), ht⟩
    · exact .inl (phase?_task_of_ne hm ht hj)
  | observer j o a s' ho hobs => cases hobs <;> exact .inl rfl
  | _ => exact .inl rfl

theorem outcome?_task {i : ℕ} {m : Mutation} {a : Action ι} {o : Outcome}
    (hm : s.tasks[i]? = some m) (ht : TaskStep S s i m a s') (ho : m.phase.outcome? = some o) :
    ∃ p, s'.phase? i = some p ∧ p.outcome? = some o := by
  cases ht with
  | runtimeUnavailable hp => rw [hp] at ho; cases ho
  | receive _ _ _ | receiveNothing _ _ | acknowledge _ _ | cancel _ _ =>
    exact ⟨_, (moves_setCaller hm _ rfl).self, ho⟩
  | spawn hp | spawnPanics hp | lock hp _ | pass hp _ | reject _ hp _ _ | poll hp
  | sampleFloor _ _ hp _ | exec _ _ _ _ _ hp _ | load _ _ hp | swap _ _ _ hp _ | retry _ _ _ hp _
  | panic _ hp => rw [hp] at ho; cases ho
  | conclude _ hp _ | concludeIndeterminate _ hp _ | respond _ hp _ | respondDetached _ hp _
  | acknowledged _ _ hp _ | acknowledgmentLost _ hp _ | finish _ _ hp | unlock _ hp =>
    rw [hp] at ho
    exact ⟨_, (moves_setPhase hm _ rfl).self, ho⟩

/-- Where the publication loop of mutation `i` stands after it has published `edits`: still
running or cut short by a panic with nothing published, or ended with its edit published once. -/
inductive LoopOutcome (i : ℕ) (edit : RouteEdit) (result : Option RouteData)
    (edits : List RouteEdit) (s : Registry σ) : Prop
  | looping (p : Phase) (hi : s.phase? i = some p) (hp : p.Looping edit result) (he : edits = [])
  | panicked (p : Phase) (hi : s.phase? i = some p) (hp : p.outcome? = some .panicked)
      (he : edits = [])
  | ended (p : Phase) (hi : s.phase? i = some p)
      (hp : p.outcome? = some (.returned (.ok result))) (he : edits = [edit])

theorem loopOutcome_task {i : ℕ} {m : Mutation} {a : Action ι} {edit : RouteEdit}
    {result : Option RouteData} (hm : s.tasks[i]? = some m)
    (hl : m.phase.Looping edit result) (ht : TaskStep S s i m a s') :
    LoopOutcome i edit result (editsBy (.task i) (events S s a)) s' := by
  cases ht with
  | receive _ _ _ | receiveNothing _ _ | acknowledge _ _ | cancel _ _ =>
    exact .looping _ (moves_setCaller hm _ rfl).self hl (editsBy_eq_nil fun e => by simp [events])
  | load e r hp =>
    rw [hp] at hl
    exact .looping _ (moves_setPhase hm _ rfl).self hl (editsBy_eq_nil fun e => by simp [events])
  | swap e r current hp hid =>
    rw [hp] at hl
    obtain ⟨rfl, rfl⟩ := hl
    refine .ended _ (moves_setPhase hm _ rfl).self rfl ?_
    obtain ⟨request, phase, caller⟩ := m
    cases hp
    simp [events, hm, hid, editsBy]
  | retry e r current hp hid =>
    rw [hp] at hl
    refine .looping _ (moves_setPhase hm _ rfl).self hl ?_
    obtain ⟨request, phase, caller⟩ := m
    cases hp
    simp [events, hm, hid]
  | panic body hp =>
    exact .panicked _ (moves_setPhase hm _ rfl).self rfl (editsBy_eq_nil fun e => by simp [events])
  | spawn hp | runtimeUnavailable hp | spawnPanics hp | lock hp _ | pass hp _ | reject _ hp _ _
  | poll hp | sampleFloor _ _ hp _ | exec _ _ _ _ _ hp _ | conclude _ hp _
  | concludeIndeterminate _ hp _ | respond _ hp _ | respondDetached _ hp _ | acknowledged _ _ hp _
  | acknowledgmentLost _ hp _ | finish _ _ hp | unlock _ hp =>
    rw [hp] at hl
    exact hl.elim

theorem loopOutcome_step {i : ℕ} {edit : RouteEdit} {result : Option RouteData} {l : List Event}
    {a : Action ι} (h : Inv s) (hl : LoopOutcome i edit result (editsBy (.task i) l) s)
    (hs : step S s a = some s') :
    LoopOutcome i edit result (editsBy (.task i) (l ++ events S s a)) s' := by
  have hpub := publication_step h hs
  rw [editsBy_append]
  cases hl with
  | looping p hi hp he =>
    rw [he, List.nil_append]
    rcases phase?_step hs hi with hsame | ⟨m, hm, rfl, ht⟩
    · exact .looping p (hsame.trans hi) hp (editsBy_task_eq_nil hpub (.inl hsame))
    · exact loopOutcome_task hm hp ht
  | panicked p hi hp he =>
    have hnil : editsBy (.task i) (events S s a) = [] :=
      editsBy_task_eq_nil hpub (.inr fun _ _ _ hc => by rw [hi] at hc; cases hc; cases hp)
    rw [he, hnil, List.append_nil]
    rcases phase?_step hs hi with hsame | ⟨m, hm, rfl, ht⟩
    · exact .panicked p (hsame.trans hi) hp rfl
    · obtain ⟨q, hq, ho⟩ := outcome?_task hm ht hp
      exact .panicked q hq ho rfl
  | ended p hi hp he =>
    have hnil : editsBy (.task i) (events S s a) = [] :=
      editsBy_task_eq_nil hpub (.inr fun _ _ _ hc => by rw [hi] at hc; cases hc; cases hp)
    rw [he, hnil, List.append_nil]
    rcases phase?_step hs hi with hsame | ⟨m, hm, rfl, ht⟩
    · exact .ended p (hsame.trans hi) hp rfl
    · obtain ⟨q, hq, ho⟩ := outcome?_task hm ht hp
      exact .ended q hq ho rfl

end Registry

end ChpProxy
