import ChpProxy.Store.Redis.Outline
import ChpProxy.Store.Redis.Record

/-! The outline of a deletion. -/
namespace ChpProxy.RedisStore

variable (codec : Codec)

/-- A deletion returns the record that it removes. -/
def Deletes (key : RouteKey) (before after : Redis)
    (result : Except StoreError (Option RouteData)) : Prop :=
  (result = .ok none ∧ before.hash[key.asStr]? = none ∧ after.hash = before.hash) ∨
    ∃ current data, result = .ok (some data) ∧ before.hash[key.asStr]? = some current ∧
      decode codec "delete" key.asStr current = .ok data ∧
      after.hash = before.hash.erase key.asStr

section Delete

variable (key : RouteKey)

def DeleteSent (p : Session.Progress (Except StoreError (Option RouteData)))
    (await : DeleteAwait) (command : Command) : Prop :=
  p = .pending ∧ match await with
    | .hget => command = .hget key.asStr
    | .eval prior => prior = none ∧ command = .eval key.asStr "0" [] ∨
        ∃ current data, prior = some data ∧
          decode codec "delete" key.asStr current = .ok data ∧
          command = .eval key.asStr "1" current

def DeleteReplied (p : Session.Progress (Except StoreError (Option RouteData)))
    (await : DeleteAwait) (reply : Reply) : Prop :=
  match await with
  | .hget => p = .pending ∧ ∃ value, reply = .value value
  | .eval prior => ∃ code text, reply = .eval code text ∧
      (p = .committed (.ok prior) ∧ code = 1 ∨ p = .pending ∧ code = 0)

variable {codec key}

/-- The script refuses a field that appeared since it was read as absent. -/
theorem deleteScript_absent (hash : Hash) (field : String) :
    (deleteScript hash field "0" [] = (hash, 1, none) ∧ hash[field]? = none) ∨
      ∃ text, deleteScript hash field "0" [] = (hash, 0, some text) := by
  unfold deleteScript
  cases hprior : hash[field]? with
  | none => exact .inl ⟨rfl, rfl⟩
  | some text => exact .inr ⟨text, rfl⟩

/-- The script removes the text that was read, and no other. -/
theorem deleteScript_present (hash : Hash) (field : String) (current : List UInt8) :
    (deleteScript hash field "1" current = (hash.erase field, 1, some current) ∧
      hash[field]? = some current) ∨
      ∃ prior, deleteScript hash field "1" current = (hash, 0, prior) := by
  unfold deleteScript
  cases hprior : hash[field]? with
  | none => exact .inr ⟨none, rfl⟩
  | some text =>
    by_cases htext : text = current
    · left
      simp [htext]
    · right
      exact ⟨some text, by simp [htext]⟩

theorem delete_execute {p : Session.Progress (Except StoreError (Option RouteData))}
    {await : DeleteAwait} {command : Command} {redis : Redis}
    (h : DeleteSent codec key p await command) :
    ((Redis.serve command redis).1.hash = redis.hash ∧
      DeleteReplied p await (Redis.serve command redis).2) ∨
    p = .pending ∧ ∃ a, Deletes codec key redis (Redis.serve command redis).1 a ∧
      DeleteReplied (.committed a) await (Redis.serve command redis).2 := by
  obtain ⟨rfl, h⟩ := h
  cases await with
  | hget =>
    obtain rfl := h
    exact .inl ⟨rfl, rfl, _, rfl⟩
  | eval prior =>
    rcases h with ⟨rfl, rfl⟩ | ⟨current, data, rfl, hdecode, rfl⟩
    · rcases deleteScript_absent redis.hash key.asStr with ⟨hscript, habsent⟩ | ⟨text, hscript⟩
      · have hserve : Redis.serve (.eval key.asStr "0" []) redis = (redis, .eval 1 none) := by
          simp [Redis.serve, hscript]
        rw [hserve]
        exact .inr ⟨rfl, .ok none, .inl ⟨rfl, habsent, rfl⟩, 1, none, rfl, .inl ⟨rfl, rfl⟩⟩
      · have hserve : Redis.serve (.eval key.asStr "0" []) redis =
            (redis, .eval 0 (some text)) := by
          simp [Redis.serve, hscript]
        rw [hserve]
        exact .inl ⟨rfl, 0, some text, rfl, .inr ⟨rfl, rfl⟩⟩
    · rcases deleteScript_present redis.hash key.asStr current with
        ⟨hscript, hpresent⟩ | ⟨prior, hscript⟩
      · have hserve : Redis.serve (.eval key.asStr "1" current) redis =
            (redis.write (redis.hash.erase key.asStr), .eval 1 (some current)) := by
          simp [Redis.serve, hscript]
        rw [hserve]
        exact .inr ⟨rfl, .ok (some data), .inr ⟨current, data, rfl, hpresent, hdecode, rfl⟩,
          1, some current, rfl, .inl ⟨rfl, rfl⟩⟩
      · have hserve : Redis.serve (.eval key.asStr "1" current) redis =
            (redis, .eval 0 prior) := by
          simp [Redis.serve, hscript]
        rw [hserve]
        exact .inl ⟨rfl, 0, prior, rfl, .inr ⟨rfl, rfl⟩⟩

theorem delete_resume_send {p : Session.Progress (Except StoreError (Option RouteData))}
    {await next : DeleteAwait} {reply : Reply} {i : Input} {command : Command}
    (h : DeleteReplied p await reply)
    (hn : (delete codec key).resume await reply i = .send command next) :
    DeleteSent codec key p next command := by
  cases await with
  | hget =>
    obtain ⟨rfl, value, rfl⟩ := h
    cases value with
    | none =>
      obtain ⟨rfl, rfl⟩ := useRemainingTimeout_eq_send hn
      exact ⟨rfl, .inl ⟨rfl, rfl⟩⟩
    | some current =>
      simp only [delete] at hn
      split_ifs at hn
      · exact nomatch hn
      · split at hn
        · exact nomatch hn
        · next prior hdecode =>
          obtain ⟨rfl, rfl⟩ := useRemainingTimeout_eq_send hn
          exact ⟨rfl, .inr ⟨current, prior, rfl, hdecode, rfl⟩⟩
  | eval prior =>
    obtain ⟨code, text, rfl, ⟨rfl, rfl⟩ | ⟨rfl, rfl⟩⟩ := h
    · simp only [delete] at hn
      split_ifs at hn
      exact nomatch hn
    · simp only [delete] at hn
      split_ifs at hn
      · exact nomatch hn
      · obtain ⟨rfl, rfl⟩ := useRemainingTimeout_eq_send hn
        exact ⟨rfl, rfl⟩

theorem delete_resume_stop {p : Session.Progress (Except StoreError (Option RouteData))}
    {await : DeleteAwait} {reply : Reply} {i : Input}
    {result : Except StoreError (Option RouteData)} (h : DeleteReplied p await reply)
    (hn : (delete codec key).resume await reply i = .stop result) :
    Session.Settles Clean Unknown p result := by
  cases await with
  | hget =>
    obtain ⟨rfl, value, rfl⟩ := h
    left
    cases value with
    | none => exact useRemainingTimeout_eq_stop hn
    | some current =>
      simp only [delete] at hn
      split_ifs at hn
      · rw [← Session.Next.stop.inj hn]
        exact clean_backend _
      · split at hn
        · next e hdecode =>
          rw [← Session.Next.stop.inj hn]
          exact ⟨e, rfl, decode_eq_error hdecode⟩
        · exact useRemainingTimeout_eq_stop hn
  | eval prior =>
    obtain ⟨code, text, rfl, ⟨rfl, rfl⟩ | ⟨rfl, rfl⟩⟩ := h
    · simp only [delete] at hn
      split_ifs at hn
      · rw [← Session.Next.stop.inj hn]
        exact .inr ⟨_, rfl⟩
      · exact .inl (Session.Next.stop.inj hn).symm
    · simp only [delete] at hn
      split_ifs at hn
      · rw [← Session.Next.stop.inj hn]
        exact .inr ⟨_, rfl⟩
      · omega
      · exact .inl (useRemainingTimeout_eq_stop hn)

variable (codec key)

def deleteOutline : Accounts (delete codec key) (fun _ => Deletes codec key) where
  Sent _ p await command _ := DeleteSent codec key p await command
  Replied _ p await reply _ := DeleteReplied p await reply
  sent_disturb _ h := h
  replied_disturb _ h := h
  start_send _ h := by
    obtain ⟨rfl, rfl⟩ := begin_eq_send h
    exact ⟨rfl, rfl⟩
  start_stop h := begin_eq_stop h
  execute h := by
    rcases delete_execute h with hsame | ⟨hp, a, heffect, hreplied⟩
    · exact .inl hsame
    · exact .inr ⟨hp, a, heffect, .inl hreplied⟩
  resume_send := delete_resume_send
  resume_stop := delete_resume_stop
  fail_sent {_ p await _ _} h := by
    obtain ⟨rfl, -⟩ := h
    cases await with
    | hget => exact .inl (clean_backend _)
    | eval => exact .inr ⟨_, rfl⟩
  sent_harmless {_ p await _ _} h hclean := by
    cases await with
    | hget =>
      obtain ⟨-, rfl⟩ := h
      rfl
    | eval => exact absurd hclean not_clean_indeterminate
  harmless h redis := serve_hash_of_not_mutating h redis
  fail_replied {_ p await _ _} h := by
    cases await with
    | hget =>
      obtain ⟨rfl, -⟩ := h
      exact .inl (clean_backend _)
    | eval =>
      obtain ⟨code, text, -, ⟨rfl, -⟩ | ⟨rfl, -⟩⟩ := h
      · exact ⟨_, rfl⟩
      · exact .inr ⟨_, rfl⟩

end Delete

end ChpProxy.RedisStore
