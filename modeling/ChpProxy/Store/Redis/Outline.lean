import ChpProxy.Lib.Session.Outline
import ChpProxy.Store.Redis.Client

/-! What the operations on the route hash have in common: how they begin, how they end, and which
of their results tell that nothing was altered. -/
namespace ChpProxy.RedisStore

def Clean {α : Type} (result : Except StoreError α) : Prop :=
  ∃ e, result = .error e ∧ e.isOrdinary = true

def Unknown {α : Type} (result : Except StoreError α) : Prop :=
  ∃ operation, result = .error (.indeterminate operation)

/-- A program whose result tells what became of its operation, whatever the other clients do. -/
abbrev Accounts {l α : Type} (P : Program l α)
    (Effect : List (Option DateTime) → Redis → Redis → Except StoreError α → Prop) : Type :=
  Session.Outline server P Redis.hash Effect Clean Unknown (·.isMutating = false)

theorem serve_hash_of_not_mutating {command : Command} (h : command.isMutating = false)
    (redis : Redis) : (Redis.serve command redis).1.hash = redis.hash := by
  cases command with
  | watch | unwatch | hget => rfl
  | exec | eval => exact nomatch h

theorem clean_backend {α : Type} (operation : String) :
    Clean (.error (.backend operation) : Except StoreError α) :=
  ⟨_, rfl, rfl⟩

theorem not_clean_indeterminate {α : Type} {operation : String} :
    ¬Clean (.error (.indeterminate operation) : Except StoreError α) := by
  rintro ⟨e, he, hord⟩
  obtain rfl := Except.error.inj he
  exact nomatch hord

section Checks

variable {l α : Type} {operation : String} {i : Input} {next : Next l α}
  {command command' : Command} {await await' : l} {result : Except StoreError α}

theorem useRemainingTimeout_eq_send
    (h : useRemainingTimeout operation i (.send command await : Next l α) =
      .send command' await') : command = command' ∧ await = await' := by
  unfold useRemainingTimeout at h
  split_ifs at h
  · exact nomatch h
  · exact Session.Next.send.inj h

theorem useRemainingTimeout_eq_stop
    (h : useRemainingTimeout operation i (.send command await) = .stop result) :
    Clean result := by
  unfold useRemainingTimeout at h
  split_ifs at h
  rw [← Session.Next.stop.inj h]
  exact clean_backend operation

theorem begin_eq_send
    (h : takeConnection operation i (useRemainingTimeout operation i
      (.send command await : Next l α)) = .send command' await') :
    command = command' ∧ await = await' := by
  unfold takeConnection at h
  split_ifs at h
  · exact useRemainingTimeout_eq_send h
  · exact nomatch h

theorem begin_eq_stop
    (h : takeConnection operation i (useRemainingTimeout operation i
      (.send command await)) = .stop result) : Clean result := by
  unfold takeConnection at h
  split_ifs at h
  · exact useRemainingTimeout_eq_stop h
  · rw [← Session.Next.stop.inj h]
    exact clean_backend operation

end Checks

end ChpProxy.RedisStore
