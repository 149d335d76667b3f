import ChpProxy.Store.Redis.Outline
import ChpProxy.Store.Redis.Record

/-! The outline of an activity update. -/
namespace ChpProxy.RedisStore

variable (codec : Codec)

/-- An activity update rewrites the record that is present with another instant. Nothing is created
where the field is absent, and what is read from the new text has the same target and metadata. -/
def Updates (key : RouteKey) (at' : DateTime) (before after : Redis)
    (result : Except StoreError Unit) : Prop :=
  result = .ok () ∧
    ((before.hash[key.asStr]? = none ∧ after.hash = before.hash) ∨
      ∃ current data encoded, before.hash[key.asStr]? = some current ∧
        decode codec "update_activity" key.asStr current = .ok data ∧
        encode codec "update_activity" { data with lastActivity := at' } = .ok encoded ∧
        after.hash = before.hash.insert key.asStr encoded ∧
        (codec.ReadsBack (toObject codec { data with lastActivity := at' }).toList →
          ∀ operation written, decode codec operation key.asStr encoded = .ok written →
            written.payload = data.payload))

section Update

variable (key : RouteKey) (at' : DateTime)

/-- The watch is in force, and while nobody has written the field holds what was read. -/
def Watches (current : List UInt8) (redis : Redis) : Prop :=
  redis.watched = true ∧ (redis.dirty = false → redis.hash[key.asStr]? = some current)

def UpdateSent (p : Session.Progress (Except StoreError Unit)) (await : UpdateAwait)
    (command : Command) (redis : Redis) : Prop :=
  match await with
  | .watch => p = .pending ∧ command = .watch
  | .hget => p = .pending ∧ command = .hget key.asStr ∧ redis.watched = true
  | .unwatch => p = .observed (.ok ()) ∧ command = .unwatch
  | .exec => p = .pending ∧ ∃ current data encoded, Watches key current redis ∧
      decode codec "update_activity" key.asStr current = .ok data ∧
      encode codec "update_activity" { data with lastActivity := at' } = .ok encoded ∧
      command = .exec key.asStr encoded

def UpdateReplied (p : Session.Progress (Except StoreError Unit)) (await : UpdateAwait)
    (reply : Reply) (redis : Redis) : Prop :=
  match await with
  | .watch => p = .pending ∧ reply = .ok ∧ redis.watched = true
  | .hget => p = .observed (.ok ()) ∧ reply = .value none ∨
      p = .pending ∧ ∃ current, Watches key current redis ∧ reply = .value (some current)
  | .unwatch => p = .observed (.ok ()) ∧ reply = .ok
  | .exec => p = .committed (.ok ()) ∧ reply = .exec true ∨ p = .pending ∧ reply = .exec false

variable {codec key at'}

/-- A write by another client marks the watch, which is all that the outline relies on. -/
theorem Watches.write {current : List UInt8} {redis : Redis} (h : Watches key current redis)
    (hash : Hash) : Watches key current (redis.write hash) := by
  refine ⟨h.1, fun hclean => ?_⟩
  have hdirty : (redis.write hash).dirty = true := by simp [Redis.write, h.1]
  rw [hdirty] at hclean
  exact nomatch hclean

theorem update_sent_disturb {p : Session.Progress (Except StoreError Unit)} {await : UpdateAwait}
    {command : Command} {redis : Redis} (hash : Hash)
    (h : UpdateSent codec key at' p await command redis) :
    UpdateSent codec key at' p await command (redis.write hash) := by
  cases await with
  | watch | hget | unwatch => exact h
  | exec =>
    obtain ⟨hp, current, data, encoded, hwatch, hrest⟩ := h
    exact ⟨hp, current, data, encoded, hwatch.write hash, hrest⟩

theorem update_replied_disturb {p : Session.Progress (Except StoreError Unit)}
    {await : UpdateAwait} {reply : Reply} {redis : Redis} (hash : Hash)
    (h : UpdateReplied key p await reply redis) :
    UpdateReplied key p await reply (redis.write hash) := by
  cases await with
  | watch | unwatch | exec => exact h
  | hget =>
    rcases h with h | ⟨hp, current, hwatch, hreply⟩
    · exact .inl h
    · exact .inr ⟨hp, current, hwatch.write hash, hreply⟩

theorem update_execute {p : Session.Progress (Except StoreError Unit)} {await : UpdateAwait}
    {command : Command} {redis : Redis} (h : UpdateSent codec key at' p await command redis) :
    ((Redis.serve command redis).1.hash = redis.hash ∧
      UpdateReplied key p await (Redis.serve command redis).2 (Redis.serve command redis).1) ∨
    p = .pending ∧ ∃ a, Updates codec key at' redis (Redis.serve command redis).1 a ∧
      (UpdateReplied key (.committed a) await (Redis.serve command redis).2
          (Redis.serve command redis).1 ∨
        (Redis.serve command redis).1.hash = redis.hash ∧
          UpdateReplied key (.observed a) await (Redis.serve command redis).2
            (Redis.serve command redis).1) := by
  cases await with
  | watch =>
    obtain ⟨rfl, rfl⟩ := h
    exact .inl ⟨rfl, rfl, rfl, rfl⟩
  | hget =>
    obtain ⟨rfl, rfl, hwatched⟩ := h
    cases hcurrent : redis.hash[key.asStr]? with
    | none =>
      have hreply : Redis.serve (.hget key.asStr) redis = (redis, .value none) := by
        rw [← hcurrent]
        rfl
      rw [hreply]
      exact .inr ⟨rfl, .ok (), ⟨rfl, .inl ⟨hcurrent, rfl⟩⟩, .inr ⟨rfl, .inl ⟨rfl, rfl⟩⟩⟩
    | some current =>
      have hreply : Redis.serve (.hget key.asStr) redis = (redis, .value (some current)) := by
        rw [← hcurrent]
        rfl
      rw [hreply]
      exact .inl ⟨rfl, .inr ⟨rfl, current, ⟨hwatched, fun _ => hcurrent⟩, rfl⟩⟩
  | unwatch =>
    obtain ⟨rfl, rfl⟩ := h
    exact .inl ⟨rfl, rfl, rfl⟩
  | exec =>
    obtain ⟨rfl, current, data, encoded, hwatch, hdecode, hencode, rfl⟩ := h
    cases hdirty : redis.dirty with
    | true =>
      have hserve : Redis.serve (.exec key.asStr encoded) redis = (redis.forget, .exec false) := by
        simp [Redis.serve, hwatch.1, hdirty]
      rw [hserve]
      exact .inl ⟨rfl, .inr ⟨rfl, rfl⟩⟩
    | false =>
      have hserve : Redis.serve (.exec key.asStr encoded) redis =
          ({ redis.forget with hash := redis.hash.insert key.asStr encoded }, .exec true) := by
        simp [Redis.serve, hdirty]
      rw [hserve]
      have hpayload : codec.ReadsBack (toObject codec { data with lastActivity := at' }).toList →
          ∀ operation written, decode codec operation key.asStr encoded = .ok written →
            written.payload = data.payload := by
        intro hback operation written hwritten
        have hsame := payload_of_readsBack hencode hback hwritten fun k hk =>
          decode_extra_reserved hdecode hk
        exact hsame
      exact .inr ⟨rfl, .ok (), ⟨rfl, .inr ⟨current, data, encoded, hwatch.2 hdirty, hdecode,
        hencode, rfl, hpayload⟩⟩, .inl (.inl ⟨rfl, rfl⟩)⟩

theorem update_resume_send {p : Session.Progress (Except StoreError Unit)}
    {await next : UpdateAwait} {reply : Reply} {redis : Redis} {i : Input} {command : Command}
    (h : UpdateReplied key p await reply redis)
    (hn : (updateActivity codec key at').resume await reply i = .send command next) :
    UpdateSent codec key at' p next command redis := by
  cases await with
  | watch =>
    obtain ⟨rfl, rfl, hwatched⟩ := h
    obtain ⟨rfl, rfl⟩ := useRemainingTimeout_eq_send hn
    exact ⟨rfl, rfl, hwatched⟩
  | hget =>
    rcases h with ⟨rfl, rfl⟩ | ⟨rfl, current, hwatch, rfl⟩
    · obtain ⟨rfl, rfl⟩ := useRemainingTimeout_eq_send hn
      exact ⟨rfl, rfl⟩
    · simp only [updateActivity] at hn
      split_ifs at hn
      · exact nomatch hn
      · split at hn
        · exact nomatch hn
        · next data hdecode =>
          split at hn
          · exact nomatch hn
          · next encoded hencode =>
            obtain ⟨rfl, rfl⟩ := useRemainingTimeout_eq_send hn
            exact ⟨rfl, current, data, encoded, hwatch, hdecode, hencode, rfl⟩
  | unwatch =>
    obtain ⟨rfl, rfl⟩ := h
    exact nomatch hn
  | exec =>
    rcases h with ⟨rfl, rfl⟩ | ⟨rfl, rfl⟩
    · exact nomatch hn
    · obtain ⟨rfl, rfl⟩ := useRemainingTimeout_eq_send hn
      exact ⟨rfl, rfl⟩

theorem update_resume_stop {p : Session.Progress (Except StoreError Unit)} {await : UpdateAwait}
    {reply : Reply} {redis : Redis} {i : Input} {result : Except StoreError Unit}
    (h : UpdateReplied key p await reply redis)
    (hn : (updateActivity codec key at').resume await reply i = .stop result) :
    Session.Settles Clean Unknown p result := by
  cases await with
  | watch =>
    obtain ⟨rfl, rfl, -⟩ := h
    exact .inl (useRemainingTimeout_eq_stop hn)
  | hget =>
    rcases h with ⟨rfl, rfl⟩ | ⟨rfl, current, -, rfl⟩
    · exact .inr (.inl (useRemainingTimeout_eq_stop hn))
    · left
      simp only [updateActivity] at hn
      split_ifs at hn
      · rw [← Session.Next.stop.inj hn]
        exact clean_backend _
      · split at hn
        · next e hdecode =>
          rw [← Session.Next.stop.inj hn]
          exact ⟨e, rfl, decode_eq_error hdecode⟩
        · split at hn
          · next e hencode =>
            rw [← Session.Next.stop.inj hn]
            exact ⟨e, rfl, encode_eq_error hencode⟩
          · exact useRemainingTimeout_eq_stop hn
  | unwatch =>
    obtain ⟨rfl, rfl⟩ := h
    exact .inl (Session.Next.stop.inj hn).symm
  | exec =>
    rcases h with ⟨rfl, rfl⟩ | ⟨rfl, rfl⟩
    · exact .inl (Session.Next.stop.inj hn).symm
    · exact .inl (useRemainingTimeout_eq_stop hn)

variable (codec key at')

def updateActivityOutline :
    Accounts (updateActivity codec key at') (fun _ => Updates codec key at') where
  Sent _ := UpdateSent codec key at'
  Replied _ := UpdateReplied key
  sent_disturb := update_sent_disturb
  replied_disturb := update_replied_disturb
  start_send _ h := by
    obtain ⟨rfl, rfl⟩ := begin_eq_send h
    exact ⟨rfl, rfl⟩
  start_stop h := begin_eq_stop h
  execute := update_execute
  resume_send := update_resume_send
  resume_stop := update_resume_stop
  fail_sent {_ p await _ _} h := by
    cases await with
    | watch | hget | unwatch =>
      obtain ⟨rfl, -⟩ := h
      exact .inl (clean_backend _)
    | exec =>
      obtain ⟨rfl, -⟩ := h
      exact .inr ⟨_, rfl⟩
  sent_harmless {_ p await _ _} h hclean := by
    cases await with
    | watch | unwatch =>
      obtain ⟨-, rfl⟩ := h
      rfl
    | hget =>
      obtain ⟨-, rfl, -⟩ := h
      rfl
    | exec => exact absurd hclean not_clean_indeterminate
  harmless h redis := serve_hash_of_not_mutating h redis
  fail_replied {_ p await _ _} h := by
    cases await with
    | watch | unwatch =>
      obtain ⟨rfl, -⟩ := h
      exact .inl (clean_backend _)
    | hget =>
      rcases h with ⟨rfl, -⟩ | ⟨rfl, -⟩
      · exact .inl (clean_backend _)
      · exact .inl (clean_backend _)
    | exec =>
      rcases h with ⟨rfl, -⟩ | ⟨rfl, -⟩
      · exact ⟨_, rfl⟩
      · exact .inr ⟨_, rfl⟩

end Update

end ChpProxy.RedisStore
