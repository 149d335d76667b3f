import ChpProxy.Lib.Transition

/-! One client of a shared server, command by command. A program suspends itself on every command
it sends. The server executes the command at some later moment, other clients act at any moment,
and the client may give up on a reply before or after the command was executed. -/
namespace Session

/-- What a program does when it is resumed. -/
inductive Next (l κ α : Type) where
  | send (command : κ) (await : l)
  | stop (result : α)

/-- `l` is what a suspended program remembers and `ι` what its surroundings supply when it runs;
`observe` tells what it makes use of. -/
structure Program (ι l κ ρ α β : Type) where
  start : ι → Next l κ α
  resume : l → ρ → ι → Next l κ α
  fail : l → α
  observe : l → ρ → ι → List β

structure Server (δ κ ρ ω : Type) where
  serve : κ → δ → δ × ρ
  /-- What the other clients do in one step. -/
  disturb : ω → δ → δ

inductive Phase (l α : Type) where
  | idle
  | awaiting (await : l)
  | returned (result : α)
  deriving DecidableEq

/-- `outstanding` is a command that the server has still to execute, `unanswered` one whose reply
the client has not received. -/
structure State (δ l κ ρ α : Type) where
  data : δ
  outstanding : Option κ
  unanswered : Option κ
  reply : Option ρ
  phase : Phase l α

inductive Action (ι ω : Type) where
  | disturb (w : ω)
  | start (i : ι)
  | execute
  | receive (i : ι)
  | fail

variable {δ ι l κ ρ ω α β ν : Type}

def initial (d : δ) : State δ l κ ρ α := ⟨d, none, none, none, .idle⟩

def State.proceed (s : State δ l κ ρ α) : Next l κ α → State δ l κ ρ α
  | .send command await => { s with
      outstanding := some command
      unanswered := some command
      reply := none
      phase := .awaiting await }
  | .stop result => { s with unanswered := none, reply := none, phase := .returned result }

/-- A client that gave up leaves its command and its reply behind. -/
def step (S : Server δ κ ρ ω) (P : Program ι l κ ρ α β) (s : State δ l κ ρ α) :
    Action ι ω → Option (State δ l κ ρ α)
  | .disturb w => some { s with data := S.disturb w s.data }
  | .start i => match s.phase with
    | .idle => some (s.proceed (P.start i))
    | .awaiting _ | .returned _ => none
  | .execute => match s.outstanding with
    | some command => some { s with
        data := (S.serve command s.data).1
        outstanding := none
        reply := some (S.serve command s.data).2 }
    | none => none
  | .receive i => match s.phase, s.reply with
    | .awaiting await, some reply => some (s.proceed (P.resume await reply i))
    | _, _ => none
  | .fail => match s.phase with
    | .awaiting await => some { s with phase := .returned (P.fail await) }
    | .idle | .returned _ => none

/-- What the client makes use of when it takes a step. -/
def observed (P : Program ι l κ ρ α β) (s : State δ l κ ρ α) : Action ι ω → List β
  | .receive i => match s.phase, s.reply with
    | .awaiting await, some reply => P.observe await reply i
    | _, _ => []
  | _ => []

def observations (S : Server δ κ ρ ω) (P : Program ι l κ ρ α β) (s : State δ l κ ρ α)
    (actions : List (Action ι ω)) : List β :=
  Transition.trace (step S P) (observed P) s actions

/-- A command of this client that alters what `view` shows. -/
def alters (S : Server δ κ ρ ω) (view : δ → ν) (s : State δ l κ ρ α) : Action ι ω → Prop
  | .execute => ∃ command, s.outstanding = some command ∧
      view (S.serve command s.data).1 ≠ view s.data
  | _ => False

def Silent (S : Server δ κ ρ ω) (P : Program ι l κ ρ α β) (view : δ → ν) (s : State δ l κ ρ α)
    (actions : List (Action ι ω)) : Prop :=
  Transition.Avoids (step S P) (alters S view) s actions

/-- The operation happens in one step, while the client waits, and nothing else that the client
does alters the server. -/
def TookEffect (S : Server δ κ ρ ω) (P : Program ι l κ ρ α β) (view : δ → ν)
    (Effect : List β → δ → δ → α → Prop) (s : State δ l κ ρ α) (actions : List (Action ι ω))
    (result : α) : Prop :=
  ∃ before after s₁ s₂ await, actions = before ++ .execute :: after ∧
    Transition.run (step S P) s before = some s₁ ∧ s₁.phase = .awaiting await ∧
    step S P s₁ .execute = some s₂ ∧
    Effect (observations S P s before) s₁.data s₂.data result ∧
    Silent S P view s before ∧ Silent S P view s₂ after

variable {S : Server δ κ ρ ω} {P : Program ι l κ ρ α β} {view : δ → ν}
  {Effect : List β → δ → δ → α → Prop} {s₀ s s' : State δ l κ ρ α}
  {actions : List (Action ι ω)} {a : Action ι ω} {result : α}

theorem observations_concat (hr : Transition.run (step S P) s₀ actions = some s) :
    observations S P s₀ (actions ++ [a]) = observations S P s₀ actions ++ observed P s a :=
  Transition.trace_concat (step S P) hr a

/-- Only a reply that is received adds to what the client has observed. -/
theorem observations_concat_of_nil (hr : Transition.run (step S P) s₀ actions = some s)
    (ha : observed P s a = []) :
    observations S P s₀ (actions ++ [a]) = observations S P s₀ actions := by
  rw [observations_concat hr, ha, List.append_nil]

theorem Silent.concat (h : Silent S P view s₀ actions)
    (hr : Transition.run (step S P) s₀ actions = some s) (ha : ¬alters S view s a) :
    Silent S P view s₀ (actions ++ [a]) :=
  Transition.avoids_concat hr h ha

/-- An effect stays the only one while the client alters nothing. -/
theorem TookEffect.concat (h : TookEffect S P view Effect s₀ actions result)
    (hr : Transition.run (step S P) s₀ actions = some s) (ha : ¬alters S view s a) :
    TookEffect S P view Effect s₀ (actions ++ [a]) result := by
  obtain ⟨before, after, s₁, s₂, await, rfl, hbefore, hphase, hstep, heffect, hsb, hsa⟩ := h
  have hafter : Transition.run (step S P) s₂ after = some s := by
    obtain ⟨t, ht, hrest⟩ := (Transition.run_append_eq_some_iff (step S P)).mp hr
    obtain rfl : s₁ = t := Option.some.inj (hbefore.symm.trans ht)
    obtain ⟨u, hu, hrest⟩ := (Transition.run_cons_eq_some_iff (step S P)).mp hrest
    obtain rfl : s₂ = u := Option.some.inj (hstep.symm.trans hu)
    exact hrest
  exact ⟨before, after ++ [a], s₁, s₂, await, by simp, hbefore, hphase, hstep, heffect, hsb,
    Silent.concat hsa hafter ha⟩

theorem TookEffect.of_execute {await : l} (hs : Silent S P view s₀ actions)
    (hr : Transition.run (step S P) s₀ actions = some s) (hphase : s.phase = .awaiting await)
    (hstep : step S P s .execute = some s')
    (heffect : Effect (observations S P s₀ actions) s.data s'.data result) :
    TookEffect S P view Effect s₀ (actions ++ [.execute]) result :=
  ⟨actions, [], s, s', await, rfl, hr, hphase, hstep, heffect, hs, trivial⟩

end Session
