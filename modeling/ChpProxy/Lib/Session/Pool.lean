import ChpProxy.Lib.Session.Machine
import Mathlib.Logic.Function.Basic

/-! Many tasks that share the connections to a server. A task takes the connection that is kept in
a slot, or opens one of its own, sends its commands over it, and in the end puts it into the slot
or drops it. A command may put a watch on its connection, which then outlives the command. -/
namespace Session

/-- The operations that tasks perform, once they hold a connection. -/
structure Client (Ω ι l κ ρ α : Type) where
  /-- The result of an operation that ends before it needs a connection. -/
  prepare : Ω → Option α
  /-- The result of an operation that gets no connection. -/
  unavailable : Ω → α
  start : Ω → ι → Next l κ α
  resume : l → ρ → ι → Next l κ α
  fail : l → α
  /-- The results with which an operation gives its connection back. -/
  keeps : α → Bool

/-- The commands that put a watch on their connection, and the replies that show it gone. -/
structure Watch (κ ρ : Type) where
  arms : κ → Bool
  disarms : κ → ρ → Bool

variable {Ω ι l κ ρ α : Type}

/-- The watch after task `t` had the command executed. -/
def Watch.after (W : Watch κ ρ) (t : ℕ) (command : κ) (reply : ρ) (watch : Option ℕ) : Option ℕ :=
  if W.disarms command reply then none else if W.arms command then some t else watch

namespace Pool

/-- Commands and replies are kept with the task that sent the command, and the watch with the task
that put it there. -/
structure Connection (κ ρ : Type) where
  queue : List (ℕ × κ)
  replies : List (ℕ × κ × ρ)
  watch : Option ℕ

def Connection.fresh : Connection κ ρ := ⟨[], [], none⟩

/-- No watch is in force and no reply is outstanding. -/
def Connection.Clean (connection : Connection κ ρ) : Prop :=
  connection.watch = none ∧ connection.queue = [] ∧ connection.replies = []

inductive Task (Ω l κ α : Type) where
  | taking (op : Ω)
  | connecting (op : Ω)
  | awaiting (connection : ℕ) (command : κ) (await : l)
  | returning (connection : ℕ) (result : α)
  | finished (result : α)
  | cancelled

def Task.connection : Task Ω l κ α → Option ℕ
  | .awaiting c _ _ | .returning c _ => some c
  | .taking _ | .connecting _ | .finished _ | .cancelled => none

/-- `lock` is the task that holds the mutex of the slot across an await, and `opened` counts the
connections ever opened. -/
structure State (Ω l κ ρ α : Type) where
  connections : ℕ → Connection κ ρ
  opened : ℕ
  slot : Option ℕ
  lock : Option ℕ
  tasks : ℕ → Option (Task Ω l κ α)

/-- One connection is opened ahead of every task. -/
def initial : State Ω l κ ρ α := ⟨fun _ => .fresh, 1, some 0, none, fun _ => none⟩

inductive Action (Ω ι ρ : Type) where
  | call (t : ℕ) (op : Ω)
  | acquire (t : ℕ) (i : ι)
  | connect (t : ℕ) (i : ι)
  | refuse (t : ℕ)
  | execute (c : ℕ) (reply : ρ)
  | receive (t : ℕ) (i : ι)
  | fail (t : ℕ)
  | store (t : ℕ)
  | cancel (t : ℕ)

namespace State

def setConnection (s : State Ω l κ ρ α) (c : ℕ) (connection : Connection κ ρ) :
    State Ω l κ ρ α :=
  { s with connections := Function.update s.connections c connection }

def setTask (s : State Ω l κ ρ α) (t : ℕ) (task : Task Ω l κ α) : State Ω l κ ρ α :=
  { s with tasks := Function.update s.tasks t (some task) }

/-- What a task that holds the connection `c` does until its next await. -/
def proceed (C : Client Ω ι l κ ρ α) (s : State Ω l κ ρ α) (t c : ℕ) :
    Next l κ α → State Ω l κ ρ α
  | .send command await =>
    let connection := s.connections c
    (s.setConnection c { connection with queue := connection.queue ++ [(t, command)] }).setTask t
      (.awaiting c command await)
  | .stop result => s.setTask t (if C.keeps result then .returning c result else .finished result)

/-- Who has a connection: a task, or the slot. -/
def owned (s : State Ω l κ ρ α) : Option ℕ → Option ℕ
  | none => s.slot
  | some t => (s.tasks t).bind Task.connection

def Unowned (s : State Ω l κ ρ α) (c : ℕ) : Prop := ∀ owner, s.owned owner ≠ some c

def Dropped (s : State Ω l κ ρ α) (c : ℕ) : Prop := c < s.opened ∧ s.Unowned c

end State

/-- The mutex is free again at the end of a statement, unless its task has to open a connection.
The server may give any reply, a task may give up at any await, and what it leaves behind on its
connection then stays there. -/
def step (C : Client Ω ι l κ ρ α) (W : Watch κ ρ) (s : State Ω l κ ρ α) :
    Action Ω ι ρ → Option (State Ω l κ ρ α)
  | .call t op => match s.tasks t with
    | none => some (s.setTask t ((C.prepare op).elim (.taking op) .finished))
    | some _ => none
  | .acquire t i => match s.tasks t, s.lock with
    | some (.taking op), none => match s.slot with
      | some c => some (({ s with slot := none }).proceed C t c (C.start op i))
      | none => some ({ s with lock := some t }.setTask t (.connecting op))
    | _, _ => none
  | .connect t i => match s.tasks t with
    | some (.connecting op) =>
      some (({ s with lock := none, opened := s.opened + 1 }.setConnection s.opened .fresh).proceed
        C t s.opened (C.start op i))
    | _ => none
  | .refuse t => match s.tasks t with
    | some (.connecting op) => some ({ s with lock := none }.setTask t (.finished (C.unavailable op)))
    | _ => none
  | .execute c reply => match (s.connections c).queue with
    | (t, command) :: queue => some (s.setConnection c
        { queue := queue
          replies := (s.connections c).replies ++ [(t, command, reply)]
          watch := W.after t command reply (s.connections c).watch })
    | [] => none
  | .receive t i => match s.tasks t with
    | some (.awaiting c _ await) => match (s.connections c).replies with
      | (_, _, reply) :: replies => some ((s.setConnection c
          { s.connections c with replies := replies }).proceed C t c (C.resume await reply i))
      | [] => none
    | _ => none
  | .fail t => match s.tasks t with
    | some (.awaiting _ _ await) => some (s.setTask t (.finished (C.fail await)))
    | _ => none
  | .store t => match s.tasks t, s.lock with
    | some (.returning c result), none =>
      some ({ s with slot := some c }.setTask t (.finished result))
    | _, _ => none
  | .cancel t => match s.tasks t with
    | some (.connecting _) => some ({ s with lock := none }.setTask t .cancelled)
    | some (.taking _) | some (.awaiting ..) | some (.returning ..) => some (s.setTask t .cancelled)
    | some (.finished _) | some .cancelled | none => none

end Pool
end Session
