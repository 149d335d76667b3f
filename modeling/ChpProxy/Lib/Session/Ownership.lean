import ChpProxy.Lib.Session.Pool

/-! Which connections of a pool are in use, and what is left on them. A client that keeps track of
its watch, and gives a connection back only without one, shares no connection and leaves nothing
behind in the slot. -/
namespace Session

variable {Ω ι l κ ρ α : Type}

/-- Whether a watch is in force after the command, given whether one was before. -/
def Watch.armed (W : Watch κ ρ) (before : Bool) (command : κ) (reply : ρ) : Bool :=
  !W.disarms command reply && (W.arms command || before)

namespace Pool

/-- `Waits await command armed` says that the client waits at `await` for the reply to `command`,
and whether a watch was in force when it sent the command. -/
def Respects (C : Client Ω ι l κ ρ α) (Waits : l → κ → Bool → Prop) (armed : Bool) :
    Next l κ α → Prop
  | .send command await => Waits await command armed
  | .stop result => C.keeps result = true → armed = false

/-- A client that knows at every await whether a watch is in force. -/
structure Disciplined (C : Client Ω ι l κ ρ α) (W : Watch κ ρ) (Waits : l → κ → Bool → Prop) :
    Prop where
  start : ∀ op i, Respects C Waits false (C.start op i)
  resume : ∀ {await command armed}, Waits await command armed → ∀ reply i,
    Respects C Waits (W.armed armed command reply) (C.resume await reply i)

def watchOf (t : ℕ) (armed : Bool) : Option ℕ := if armed then some t else none

/-- The connection carries one command of task `t`, or the reply to it, and nothing else. -/
def Connection.Serves (W : Watch κ ρ) (connection : Connection κ ρ) (t : ℕ) (command : κ)
    (armed : Bool) : Prop :=
  connection = ⟨[(t, command)], [], watchOf t armed⟩ ∨
    ∃ reply, connection = ⟨[], [(t, command, reply)], watchOf t (W.armed armed command reply)⟩

/-- Everything that a step can do. -/
inductive Move (C : Client Ω ι l κ ρ α) (W : Watch κ ρ) (s : State Ω l κ ρ α) :
    State Ω l κ ρ α → Prop where
  | leave {t} {task : Task Ω l κ α} (lock : Option ℕ) (hnone : task.connection = none) :
      Move C W s ({ s with lock := lock }.setTask t task)
  | take {t c op i} (hslot : s.slot = some c) :
      Move C W s ({ s with slot := none }.proceed C t c (C.start op i))
  | connect {t op i} : Move C W s
      (({ s with lock := none, opened := s.opened + 1 }.setConnection s.opened .fresh).proceed
        C t s.opened (C.start op i))
  | execute {c t command queue reply} (hqueue : (s.connections c).queue = (t, command) :: queue) :
      Move C W s (s.setConnection c
        { queue := queue
          replies := (s.connections c).replies ++ [(t, command, reply)]
          watch := W.after t command reply (s.connections c).watch })
  | receive {t c command await sent reply replies i}
      (htask : s.tasks t = some (.awaiting c command await))
      (hreplies : (s.connections c).replies = (sent, reply) :: replies) :
      Move C W s ((s.setConnection c { s.connections c with replies := replies }).proceed C t c
        (C.resume await reply.2 i))
  | store {t c result} (htask : s.tasks t = some (.returning c result)) :
      Move C W s ({ s with slot := some c }.setTask t (.finished result))

/-- All that is on a connection is one command of task `t`, or the reply to it, and a watch of that
task. -/
structure Connection.OwnedBy (connection : Connection κ ρ) (t : ℕ) (command : κ) : Prop where
  single : connection.queue.length + connection.replies.length = 1
  queue : ∀ sent ∈ connection.queue, sent = (t, command)
  replies : ∀ answer ∈ connection.replies, answer.1 = t ∧ answer.2.1 = command
  watch : ∀ u, connection.watch = some u → u = t

/-- What a task relies on about its connection. -/
def Task.Sound (W : Watch κ ρ) (Waits : l → κ → Bool → Prop) (connections : ℕ → Connection κ ρ)
    (t : ℕ) : Task Ω l κ α → Prop
  | .awaiting c command await =>
    ∃ armed, Waits await command armed ∧ (connections c).Serves W t command armed
  | .returning c _ => connections c = .fresh
  | .taking _ | .connecting _ | .finished _ | .cancelled => True

/-- Every connection has one owner, which finds on it what it left there itself. -/
structure Inv (W : Watch κ ρ) (Waits : l → κ → Bool → Prop) (s : State Ω l κ ρ α) : Prop where
  unique : ∀ {o o' c}, s.owned o = some c → s.owned o' = some c → o = o'
  opened : ∀ {o c}, s.owned o = some c → c < s.opened
  slot : ∀ {c}, s.slot = some c → s.connections c = .fresh
  task : ∀ {t task}, s.tasks t = some task → task.Sound W Waits s.connections t

variable {C : Client Ω ι l κ ρ α} {W : Watch κ ρ} {Waits : l → κ → Bool → Prop}
  {s s' : State Ω l κ ρ α} {a : Action Ω ι ρ} {task : Task Ω l κ α} {t c : ℕ}

theorem step_move (h : step C W s a = some s') : Move C W s s' := by
  cases a with
  | call t op =>
    cases htask : s.tasks t with
    | none =>
      simp only [step, htask, Option.some.injEq] at h
      subst h
      refine .leave s.lock ?_
      cases C.prepare op <;> rfl
    | some task => simp [step, htask] at h
  | acquire t i =>
    simp only [step] at h
    split at h
    · split at h
      · obtain rfl := Option.some.inj h
        exact .take ‹_›
      · obtain rfl := Option.some.inj h
        exact .leave _ rfl
    · cases h
  | connect t i =>
    simp only [step] at h
    split at h
    · obtain rfl := Option.some.inj h
      exact .connect
    · cases h
  | refuse t =>
    simp only [step] at h
    split at h
    · obtain rfl := Option.some.inj h
      exact .leave _ rfl
    · cases h
  | execute c reply =>
    simp only [step] at h
    split at h
    · obtain rfl := Option.some.inj h
      exact .execute ‹_›
    · cases h
  | receive t i =>
    simp only [step] at h
    split at h
    · split at h
      · obtain rfl := Option.some.inj h
        exact .receive ‹_› ‹_›
      · cases h
    · cases h
  | fail t =>
    simp only [step] at h
    split at h
    · obtain rfl := Option.some.inj h
      exact .leave s.lock rfl
    · cases h
  | store t =>
    simp only [step] at h
    split at h
    · obtain rfl := Option.some.inj h
      exact .store ‹_›
    · cases h
  | cancel t =>
    simp only [step] at h
    split at h
    all_goals cases h
    · exact .leave none rfl
    all_goals exact .leave s.lock rfl

theorem clean_fresh : (Connection.fresh : Connection κ ρ).Clean := ⟨rfl, rfl, rfl⟩

theorem after_watchOf (t : ℕ) (command : κ) (reply : ρ) (armed : Bool) :
    W.after t command reply (watchOf t armed) = watchOf t (W.armed armed command reply) := by
  unfold Watch.after Watch.armed watchOf
  cases W.disarms command reply <;> cases W.arms command <;> simp

theorem tasks_setTask_self : (s.setTask t task).tasks t = some task := Function.update_self ..

theorem tasks_setTask_of_ne {u : ℕ} (h : u ≠ t) : (s.setTask t task).tasks u = s.tasks u :=
  Function.update_of_ne h ..

theorem owned_setConnection (connection : Connection κ ρ) :
    (s.setConnection c connection).owned = s.owned := by
  funext o
  cases o <;> rfl

theorem unowned_setConnection {d : ℕ} (h : s.Unowned c) (connection : Connection κ ρ) :
    (s.setConnection d connection).Unowned c := by
  intro o
  rw [owned_setConnection]
  exact h o

theorem owned_setTask_self : (s.setTask t task).owned (some t) = task.connection := by
  simp [State.owned, tasks_setTask_self]

theorem owned_setTask_of_ne {o : Option ℕ} (h : o ≠ some t) :
    (s.setTask t task).owned o = s.owned o := by
  cases o with
  | none => rfl
  | some u =>
    have hu : u ≠ t := fun e => h (congrArg some e)
    simp [State.owned, tasks_setTask_of_ne hu]

theorem owned_setTask_cases {o : Option ℕ} (h : (s.setTask t task).owned o = some c) :
    o = some t ∧ task.connection = some c ∨ o ≠ some t ∧ s.owned o = some c := by
  by_cases ho : o = some t
  · rw [ho, owned_setTask_self] at h
    exact .inl ⟨ho, h⟩
  · rw [owned_setTask_of_ne ho] at h
    exact .inr ⟨ho, h⟩

theorem tasks_setTask_cases {u : ℕ} {task' : Task Ω l κ α}
    (h : (s.setTask t task).tasks u = some task') :
    u = t ∧ task' = task ∨ u ≠ t ∧ s.tasks u = some task' := by
  by_cases hu : u = t
  · subst hu
    rw [tasks_setTask_self] at h
    exact .inl ⟨rfl, (Option.some.inj h).symm⟩
  · rw [tasks_setTask_of_ne hu] at h
    exact .inr ⟨hu, h⟩

theorem owned_of_task (h : s.tasks t = some task) : s.owned (some t) = task.connection := by
  simp [State.owned, h]

theorem Task.Sound.of_connection_eq_none (h : task.connection = none)
    (connections : ℕ → Connection κ ρ) : task.Sound W Waits connections t := by
  cases task with
  | awaiting | returning => exact absurd h (by simp [Task.connection])
  | taking | connecting | finished | cancelled => trivial

theorem Task.Sound.congr {connections connections' : ℕ → Connection κ ρ}
    (h : task.Sound W Waits connections t)
    (heq : ∀ c, task.connection = some c → connections' c = connections c) :
    task.Sound W Waits connections' t := by
  cases task with
  | awaiting c command await =>
    obtain ⟨armed, hwaits, hserves⟩ := h
    exact ⟨armed, hwaits, (heq c rfl).symm ▸ hserves⟩
  | returning c result => exact (heq c rfl).trans h
  | taking | connecting | finished | cancelled => trivial

theorem Connection.Serves.ownedBy {connection : Connection κ ρ} {command : κ} {armed : Bool}
    (h : connection.Serves W t command armed) : connection.OwnedBy t command := by
  have hwatch : ∀ {armed u}, watchOf t armed = some u → u = t := by
    intro armed u hu
    cases armed <;> cases hu
    rfl
  obtain rfl | ⟨reply, rfl⟩ := h
  · refine ⟨rfl, ?_, ?_, fun u => hwatch⟩
    · intro sent hsent
      exact List.mem_singleton.mp hsent
    · intro answer hanswer
      cases hanswer
  · refine ⟨rfl, ?_, ?_, fun u => hwatch⟩
    · intro sent hsent
      cases hsent
    · intro answer hanswer
      obtain rfl := List.mem_singleton.mp hanswer
      exact ⟨rfl, rfl⟩

/-! What the parts of a step do to the invariant. -/

namespace Inv

/-- Only the task that holds a connection notices what happens on it. -/
theorem alter {connection : Connection κ ρ} (h : Inv W Waits s) (hslot : s.slot ≠ some c)
    (hheld : ∀ {u task}, s.tasks u = some task → task.connection = some c →
      task.Sound W Waits (s.setConnection c connection).connections u) :
    Inv W Waits (s.setConnection c connection) := by
  refine ⟨?_, ?_, ?_, ?_⟩
  · intro o o' d hd hd'
    rw [owned_setConnection] at hd hd'
    exact h.unique hd hd'
  · intro o d hd
    rw [owned_setConnection] at hd
    exact h.opened hd
  · intro d hd
    have hne : d ≠ c := fun e => hslot (e ▸ hd)
    exact (Function.update_of_ne hne _ _).trans (h.slot hd)
  · intro u task hu
    by_cases hc : task.connection = some c
    · exact hheld hu hc
    · refine (h.task hu).congr fun d hd => ?_
      have hne : d ≠ c := fun e => hc (e ▸ hd)
      exact Function.update_of_ne hne _ _

theorem setConnection (h : Inv W Waits s) (hfree : s.Unowned c) (connection : Connection κ ρ) :
    Inv W Waits (s.setConnection c connection) := by
  refine h.alter (hfree none) ?_
  intro u task hu hc
  exact absurd ((owned_of_task hu).trans hc) (hfree (some u))

theorem leave (h : Inv W Waits s) (hnone : task.connection = none) :
    Inv W Waits (s.setTask t task) := by
  have hold : ∀ {o d}, (s.setTask t task).owned o = some d → s.owned o = some d := by
    intro o d hd
    obtain ⟨-, hd⟩ | ⟨-, hd⟩ := owned_setTask_cases hd
    · rw [hnone] at hd
      cases hd
    · exact hd
  refine ⟨?_, ?_, ?_, ?_⟩
  · intro o o' d hd hd'
    exact h.unique (hold hd) (hold hd')
  · intro o d hd
    exact h.opened (hold hd)
  · intro d hd
    exact h.slot hd
  · intro u task' hu
    obtain ⟨rfl, rfl⟩ | ⟨-, hu⟩ := tasks_setTask_cases hu
    · exact .of_connection_eq_none hnone _
    · exact h.task hu

theorem hold (h : Inv W Waits s) (hfree : s.Unowned c) (hlt : c < s.opened)
    (hc : task.connection = some c) (hsound : task.Sound W Waits s.connections t) :
    Inv W Waits (s.setTask t task) := by
  have hold : ∀ {o d}, (s.setTask t task).owned o = some d →
      o = some t ∧ d = c ∨ d ≠ c ∧ s.owned o = some d := by
    intro o d hd
    obtain ⟨ho, hd⟩ | ⟨-, hd⟩ := owned_setTask_cases hd
    · rw [hc] at hd
      exact .inl ⟨ho, (Option.some.inj hd).symm⟩
    · exact .inr ⟨fun e => hfree o (e ▸ hd), hd⟩
  refine ⟨?_, ?_, ?_, ?_⟩
  · intro o o' d hd hd'
    obtain ⟨rfl, rfl⟩ | ⟨hne, hd⟩ := hold hd
    · obtain ⟨rfl, -⟩ | ⟨hne, -⟩ := hold hd'
      · rfl
      · exact absurd rfl hne
    · obtain ⟨-, rfl⟩ | ⟨-, hd'⟩ := hold hd'
      · exact absurd rfl hne
      · exact h.unique hd hd'
  · intro o d hd
    obtain ⟨-, rfl⟩ | ⟨-, hd⟩ := hold hd
    · exact hlt
    · exact h.opened hd
  · intro d hd
    exact h.slot hd
  · intro u task' hu
    obtain ⟨rfl, rfl⟩ | ⟨-, hu⟩ := tasks_setTask_cases hu
    · exact hsound
    · exact h.task hu

/-- What a task does with a connection that carries at most its own watch. -/
theorem proceed {next : Next l κ α} {armed : Bool} (h : Inv W Waits s) (hfree : s.Unowned c)
    (hlt : c < s.opened) (hclean : s.connections c = ⟨[], [], watchOf t armed⟩)
    (hnext : Respects C Waits armed next) : Inv W Waits (s.proceed C t c next) := by
  cases next with
  | send command await =>
    refine (h.setConnection hfree _).hold (unowned_setConnection hfree _) hlt rfl
      ⟨armed, hnext, .inl ?_⟩
    rw [hclean]
    exact Function.update_self ..
  | stop result =>
    change Inv W Waits (s.setTask t (if C.keeps result then _ else _))
    by_cases hkeeps : C.keeps result = true
    · rw [if_pos hkeeps]
      refine h.hold hfree hlt rfl ?_
      rw [hnext hkeeps] at hclean
      exact hclean
    · rw [if_neg hkeeps]
      exact h.leave rfl

/-- The mutex protects no property of the connections. -/
theorem withLock (h : Inv W Waits s) (lock : Option ℕ) : Inv W Waits { s with lock := lock } :=
  ⟨h.unique, h.opened, h.slot, h.task⟩

theorem withoutSlot (h : Inv W Waits s) : Inv W Waits { s with slot := none } := by
  have hold : ∀ {o c}, ({ s with slot := none } : State Ω l κ ρ α).owned o = some c →
      s.owned o = some c := by
    intro o c hc
    cases o with
    | none => cases hc
    | some t => exact hc
  refine ⟨fun hc hc' => h.unique (hold hc) (hold hc'), fun hc => h.opened (hold hc), ?_, h.task⟩
  intro c hc
  cases hc

theorem fill (h : Inv W Waits s) (hfree : s.Unowned c) (hlt : c < s.opened)
    (hfresh : s.connections c = .fresh) : Inv W Waits { s with slot := some c } := by
  refine ⟨?_, ?_, ?_, h.task⟩
  · intro o o' d hd hd'
    cases o with
    | none =>
      obtain rfl : c = d := Option.some.inj hd
      cases o' with
      | none => rfl
      | some u => exact absurd hd' (hfree (some u))
    | some t =>
      cases o' with
      | none =>
        obtain rfl : c = d := Option.some.inj hd'
        exact absurd hd (hfree (some t))
      | some u => exact h.unique hd hd'
  · intro o d hd
    cases o with
    | none =>
      obtain rfl : c = d := Option.some.inj hd
      exact hlt
    | some t => exact h.opened (o := some t) hd
  · intro d hd
    obtain rfl : c = d := Option.some.inj hd
    exact hfresh

end Inv

theorem Inv.unowned_setTask (h : Inv W Waits s) (hc : s.owned (some t) = some c)
    (hnone : task.connection = none) : (s.setTask t task).Unowned c := by
  intro o ho
  obtain ⟨-, ho⟩ | ⟨hne, ho⟩ := owned_setTask_cases ho
  · rw [hnone] at ho
    cases ho
  · exact hne (h.unique ho hc)

/-- What a task does next does not depend on where it stood. -/
theorem proceed_setTask (task : Task Ω l κ α) (connection : Connection κ ρ) (next : Next l κ α) :
    ((s.setTask t task).setConnection c connection).proceed C t c next =
      (s.setConnection c connection).proceed C t c next := by
  cases next <;>
    simp [State.proceed, State.setTask, State.setConnection, Function.update_idem]

/-- The server executes what is queued on a connection. Only a task that awaits its reply can own
that connection. -/
theorem Inv.execute {command : κ} {queue : List (ℕ × κ)} (h : Inv W Waits s)
    (hqueue : (s.connections c).queue = (t, command) :: queue) (reply : ρ) :
    Inv W Waits (s.setConnection c
      { queue := queue
        replies := (s.connections c).replies ++ [(t, command, reply)]
        watch := W.after t command reply (s.connections c).watch }) := by
  have hdirty : s.connections c ≠ .fresh := by
    intro he
    rw [he] at hqueue
    cases hqueue
  refine h.alter (fun hslot => hdirty (h.slot hslot)) ?_
  intro u task hu hc
  have hsound := h.task hu
  cases task with
  | returning d result =>
    obtain rfl : d = c := Option.some.inj hc
    exact absurd hsound hdirty
  | awaiting d sent await =>
    obtain rfl : d = c := Option.some.inj hc
    obtain ⟨armed, hwaits, hd | ⟨reply', hd⟩⟩ := hsound
    · rw [hd] at hqueue
      obtain ⟨⟨rfl, rfl⟩, rfl⟩ : (u = t ∧ sent = command) ∧ [] = queue := by
        simpa using hqueue
      refine ⟨armed, hwaits, .inr ⟨reply, ?_⟩⟩
      rw [hd, ← after_watchOf]
      exact Function.update_self ..
    · rw [hd] at hqueue
      cases hqueue
  | taking | connecting | finished | cancelled => cases hc

/-- A task that awaits a reply receives the one to its own command. -/
theorem Inv.receive {command sent : κ} {sender : ℕ} {await : l} {reply : ρ}
    {replies : List (ℕ × κ × ρ)} (hC : Disciplined C W Waits) (h : Inv W Waits s)
    (htask : s.tasks t = some (.awaiting c command await))
    (hreplies : (s.connections c).replies = (sender, sent, reply) :: replies) (i : ι) :
    Inv W Waits ((s.setConnection c { s.connections c with replies := replies }).proceed C t c
      (C.resume await reply i)) := by
  have howned : s.owned (some t) = some c := owned_of_task htask
  have hfree : (s.setTask t .cancelled).Unowned c := h.unowned_setTask howned rfl
  obtain ⟨armed, hwaits, hc | ⟨reply', hc⟩⟩ := h.task htask
  · rw [hc] at hreplies
    cases hreplies
  · rw [hc] at hreplies
    obtain ⟨⟨rfl, rfl, rfl⟩, rfl⟩ :
        (t = sender ∧ command = sent ∧ reply' = reply) ∧ [] = replies := by
      simpa using hreplies
    rw [hc, ← proceed_setTask .cancelled]
    exact ((h.leave rfl).setConnection hfree _).proceed (unowned_setConnection hfree _)
      (h.opened howned) (Function.update_self ..) (hC.resume hwaits reply' i)

theorem Inv.move (hC : Disciplined C W Waits) (h : Inv W Waits s) (hm : Move C W s s') :
    Inv W Waits s' := by
  cases hm with
  | leave lock hnone => exact (h.withLock lock).leave hnone
  | @take t c op i hslot =>
    have howned : s.owned none = some c := hslot
    have hclean : s.connections c = ⟨[], [], watchOf t false⟩ := h.slot hslot
    refine h.withoutSlot.proceed ?_ (h.opened howned) hclean (hC.start op i)
    intro o ho
    cases o with
    | none => cases ho
    | some u =>
      have hu : s.owned (some u) = some c := ho
      cases h.unique howned hu
  | @connect t op i =>
    have hfree : s.Unowned s.opened := fun o ho => Nat.lt_irrefl _ (h.opened ho)
    have hgrown : Inv W Waits { s with lock := none, opened := s.opened + 1 } :=
      ⟨h.unique, fun ho => Nat.lt_succ_of_lt (h.opened ho), h.slot, h.task⟩
    have hclean : Function.update s.connections s.opened .fresh s.opened =
        ⟨[], [], watchOf t false⟩ := Function.update_self ..
    exact (hgrown.setConnection hfree .fresh).proceed
      (unowned_setConnection (d := s.opened) hfree .fresh) (Nat.lt_succ_self _) hclean
      (hC.start op i)
  | execute hqueue => exact h.execute hqueue _
  | receive htask hreplies => exact h.receive hC htask hreplies _
  | @store t c result htask =>
    have howned : s.owned (some t) = some c := owned_of_task htask
    exact (h.leave rfl).fill (h.unowned_setTask howned rfl) (h.opened howned) (h.task htask)

theorem inv_initial : Inv W Waits (initial : State Ω l κ ρ α) := by
  refine ⟨?_, ?_, fun _ => rfl, ?_⟩
  · intro o o' c hc hc'
    cases o with
    | some t => cases hc
    | none =>
      cases o' with
      | some t => cases hc'
      | none => rfl
  · intro o c hc
    cases o with
    | some t => cases hc
    | none => cases hc; exact Nat.zero_lt_one
  · intro t task ht
    cases ht

/-- The invariant holds whatever the tasks, the server and the network do. -/
theorem Inv.of_run (hC : Disciplined C W Waits) {actions : List (Action Ω ι ρ)}
    (h : Transition.run (step C W) initial actions = some s) : Inv W Waits s :=
  Transition.run_invariant (fun _ _ _ hi hs => hi.move hC (step_move hs)) inv_initial h

/-! Where a connection goes when its owner lets go of it. -/

theorem owned_proceed {d u : ℕ} {next : Next l κ α}
    (h : (s.proceed C t d next).owned (some u) = some c) :
    s.owned (some u) = some c ∨ u = t ∧ c = d := by
  cases next with
  | send command await =>
    obtain ⟨hu, hc⟩ | ⟨-, h⟩ := owned_setTask_cases h
    · exact .inr ⟨Option.some.inj hu, (Option.some.inj hc).symm⟩
    · rw [owned_setConnection] at h
      exact .inl h
  | stop result =>
    obtain ⟨hu, hc⟩ | ⟨-, h⟩ := owned_setTask_cases h
    · split_ifs at hc
      · exact .inr ⟨Option.some.inj hu, (Option.some.inj hc).symm⟩
      · cases hc
    · exact .inl h

theorem slot_proceed {d : ℕ} (next : Next l κ α) : (s.proceed C t d next).slot = s.slot := by
  cases next <;> rfl

theorem opened_proceed {d : ℕ} (next : Next l κ α) :
    (s.proceed C t d next).opened = s.opened := by
  cases next <;> rfl

theorem Move.opened_le (hm : Move C W s s') : s.opened ≤ s'.opened := by
  cases hm with
  | leave | execute | store => exact Nat.le_refl _
  | take | receive | connect => simp [opened_proceed, State.setConnection]

theorem Move.owned_task {u : ℕ} (hm : Move C W s s') (h : s'.owned (some u) = some c) :
    s.owned (some u) = some c ∨ s.slot = some c ∨ c = s.opened := by
  cases hm with
  | leave lock hnone =>
    obtain ⟨-, hc⟩ | ⟨-, h⟩ := owned_setTask_cases h
    · rw [hnone] at hc
      cases hc
    · exact .inl h
  | take hslot =>
    obtain h | ⟨-, rfl⟩ := owned_proceed h
    · exact .inl h
    · exact .inr (.inl hslot)
  | connect =>
    obtain h | ⟨-, rfl⟩ := owned_proceed h
    · rw [owned_setConnection] at h
      exact .inl h
    · exact .inr (.inr rfl)
  | execute =>
    rw [owned_setConnection] at h
    exact .inl h
  | receive htask hreplies =>
    obtain h | ⟨rfl, rfl⟩ := owned_proceed h
    · rw [owned_setConnection] at h
      exact .inl h
    · exact .inl (owned_of_task htask)
  | store htask =>
    obtain ⟨-, hc⟩ | ⟨-, h⟩ := owned_setTask_cases h
    · cases hc
    · exact .inl h

/-- The slot gets its connection from a task that returns it. -/
theorem Move.owned_slot (hm : Move C W s s') (h : s'.slot = some c) : ∃ o, s.owned o = some c := by
  cases hm with
  | leave | execute => exact ⟨none, h⟩
  | take hslot =>
    rw [slot_proceed] at h
    cases h
  | connect | receive =>
    rw [slot_proceed] at h
    exact ⟨none, h⟩
  | @store t d result htask =>
    obtain rfl : d = c := Option.some.inj h
    exact ⟨some t, owned_of_task htask⟩

theorem Move.dropped (hm : Move C W s s') (h : s.Dropped c) : s'.Dropped c := by
  refine ⟨Nat.lt_of_lt_of_le h.1 hm.opened_le, ?_⟩
  intro o ho
  cases o with
  | none =>
    obtain ⟨o, ho⟩ := hm.owned_slot ho
    exact h.2 o ho
  | some u =>
    obtain hu | hslot | rfl := hm.owned_task ho
    · exact h.2 (some u) hu
    · exact h.2 none hslot
    · exact Nat.lt_irrefl _ h.1

/-- A connection that was dropped is never used again. -/
theorem dropped_run {actions : List (Action Ω ι ρ)} (hd : s.Dropped c)
    (h : Transition.run (step C W) s actions = some s') : s'.Dropped c :=
  Transition.run_invariant (fun _ _ _ hi hs => (step_move hs).dropped hi) hd h

/-- A task that lets go of its connection has put it into the slot, or has dropped it. -/
theorem Inv.released (h : Inv W Waits s) (hm : Move C W s s') (hc : s.owned (some t) = some c) :
    s'.owned (some t) = some c ∨ s'.slot = some c ∨ s'.Dropped c := by
  have hlt : c < s'.opened := Nat.lt_of_lt_of_le (h.opened hc) hm.opened_le
  by_cases hslot : s'.slot = some c
  · exact .inr (.inl hslot)
  by_cases ht : s'.owned (some t) = some c
  · exact .inl ht
  refine .inr (.inr ⟨hlt, fun o ho => ?_⟩)
  cases o with
  | none => exact hslot ho
  | some u =>
    obtain hu | hnone | rfl := hm.owned_task ho
    · obtain rfl : u = t := Option.some.inj (h.unique hu hc)
      exact ht ho
    · have hnone : s.owned none = some c := hnone
      cases h.unique hnone hc
    · exact Nat.lt_irrefl _ (h.opened hc)

end Pool
end Session
