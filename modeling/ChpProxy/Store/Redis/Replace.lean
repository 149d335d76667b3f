import ChpProxy.Store.Redis.Outline
import ChpProxy.Store.Redis.Record

/-! The outline of a replacement. -/
namespace ChpProxy.RedisStore

variable (codec : Codec)

/-- A replacement stores the requested record, raised to the floors that were sampled, and returns
what is read from it. -/
def Replaces (operation : String) (key : RouteKey) (data : RouteData)
    (floors : List (Option DateTime)) (before after : Redis)
    (result : Except StoreError RouteData) : Prop :=
  ∃ committed encoded, result = .ok committed ∧
    encode codec operation (floors.foldl raise data) = .ok encoded ∧
    decode codec operation key.asStr encoded = .ok committed ∧
    after.hash = before.hash.insert key.asStr encoded

section Replace

variable (operation : String) (key : RouteKey) (data : RouteData)

/-- A replacement needs nothing to be true of the hash. -/
def ReplaceSent (floors : List (Option DateTime))
    (p : Session.Progress (Except StoreError RouteData)) (await : ReplaceAwait)
    (command : Command) : Prop :=
  p = .pending ∧ match await with
    | .watch current => current = floors.foldl raise data ∧ command = .watch
    | .exec current committed => current = floors.foldl raise data ∧
      ∃ encoded, encode codec operation current = .ok encoded ∧
        decode codec operation key.asStr encoded = .ok committed ∧
        command = .exec key.asStr encoded

def ReplaceReplied (floors : List (Option DateTime))
    (p : Session.Progress (Except StoreError RouteData)) (await : ReplaceAwait)
    (reply : Reply) : Prop :=
  match await with
  | .watch current => p = .pending ∧ current = floors.foldl raise data ∧ reply = .ok
  | .exec current committed =>
    p = .committed (.ok committed) ∧ reply = .exec true ∨
      p = .pending ∧ current = floors.foldl raise data ∧ reply = .exec false

variable {codec operation key data} {floors : List (Option DateTime)}

theorem replace_execute {p : Session.Progress (Except StoreError RouteData)}
    {await : ReplaceAwait} {command : Command} {redis : Redis}
    (h : ReplaceSent codec operation key data floors p await command) :
    ((Redis.serve command redis).1.hash = redis.hash ∧
      ReplaceReplied data floors p await (Redis.serve command redis).2) ∨
    p = .pending ∧ ∃ a,
      Replaces codec operation key data floors redis (Redis.serve command redis).1 a ∧
      ReplaceReplied data floors (.committed a) await (Redis.serve command redis).2 := by
  obtain ⟨rfl, h⟩ := h
  cases await with
  | watch current =>
    obtain ⟨hraised, rfl⟩ := h
    exact .inl ⟨rfl, rfl, hraised, rfl⟩
  | exec current committed =>
    obtain ⟨hraised, encoded, hencode, hdecode, rfl⟩ := h
    simp only [Redis.serve]
    split_ifs with haborted
    · exact .inl ⟨rfl, .inr ⟨rfl, hraised, rfl⟩⟩
    · right
      subst hraised
      exact ⟨trivial, .ok committed, ⟨committed, encoded, rfl, hencode, hdecode, rfl⟩,
        .inl ⟨rfl, rfl⟩⟩

theorem replace_resume_send {p : Session.Progress (Except StoreError RouteData)}
    {await next : ReplaceAwait} {reply : Reply} {i : Input} {command : Command}
    (h : ReplaceReplied data floors p await reply)
    (hn : (atomicReplace codec operation key data).resume await reply i = .send command next) :
    ReplaceSent codec operation key data
      (floors ++ (atomicReplace codec operation key data).observe await reply i) p next
      command := by
  cases await with
  | watch current =>
    obtain ⟨rfl, hraised, rfl⟩ := h
    have hfloor : raise current i.floor = (floors ++ [i.floor]).foldl raise data := by
      rw [List.foldl_concat, hraised]
    simp only [atomicReplace] at hn
    split at hn
    · exact nomatch hn
    · next encoded hencode =>
      split at hn
      · exact nomatch hn
      · next committed hdecode =>
        obtain ⟨rfl, rfl⟩ := useRemainingTimeout_eq_send hn
        exact ⟨rfl, hfloor, encoded, hencode, hdecode, rfl⟩
  | exec current committed =>
    rcases h with ⟨rfl, rfl⟩ | ⟨rfl, hraised, rfl⟩
    · exact nomatch hn
    · obtain ⟨rfl, rfl⟩ := useRemainingTimeout_eq_send hn
      refine ⟨rfl, ?_, rfl⟩
      change current = (floors ++ []).foldl raise data
      rw [List.append_nil, hraised]

theorem replace_resume_stop {p : Session.Progress (Except StoreError RouteData)}
    {await : ReplaceAwait} {reply : Reply} {i : Input} {result : Except StoreError RouteData}
    (h : ReplaceReplied data floors p await reply)
    (hn : (atomicReplace codec operation key data).resume await reply i = .stop result) :
    Session.Settles Clean Unknown p result := by
  cases await with
  | watch current =>
    obtain ⟨rfl, hraised, rfl⟩ := h
    left
    simp only [atomicReplace] at hn
    split at hn
    · next e hencode =>
      rw [← Session.Next.stop.inj hn]
      exact ⟨e, rfl, encode_eq_error hencode⟩
    · split at hn
      · next e hdecode =>
        rw [← Session.Next.stop.inj hn]
        exact ⟨e, rfl, decode_eq_error hdecode⟩
      · exact useRemainingTimeout_eq_stop hn
  | exec current committed =>
    rcases h with ⟨rfl, rfl⟩ | ⟨rfl, hraised, rfl⟩
    · exact .inl (Session.Next.stop.inj hn).symm
    · exact .inl (useRemainingTimeout_eq_stop hn)

variable (codec operation key data)

def atomicReplaceOutline :
    Accounts (atomicReplace codec operation key data) (Replaces codec operation key data) where
  Sent floors p await command _ := ReplaceSent codec operation key data floors p await command
  Replied floors p await reply _ := ReplaceReplied data floors p await reply
  sent_disturb _ h := h
  replied_disturb _ h := h
  start_send _ h := by
    obtain ⟨rfl, rfl⟩ := begin_eq_send h
    exact ⟨rfl, rfl, rfl⟩
  start_stop h := begin_eq_stop h
  execute h := by
    rcases replace_execute h with hsame | ⟨hp, a, heffect, hreplied⟩
    · exact .inl hsame
    · exact .inr ⟨hp, a, heffect, .inl hreplied⟩
  resume_send := replace_resume_send
  resume_stop := replace_resume_stop
  fail_sent {_ p await _ _} h := by
    obtain ⟨rfl, h⟩ := h
    cases await with
    | watch => exact .inl (clean_backend operation)
    | exec => exact .inr ⟨operation, rfl⟩
  sent_harmless {_ p await _ _} h hclean := by
    cases await with
    | watch =>
      obtain ⟨-, -, rfl⟩ := h
      rfl
    | exec => exact absurd hclean not_clean_indeterminate
  harmless h redis := serve_hash_of_not_mutating h redis
  fail_replied {_ p await _ _} h := by
    cases await with
    | watch =>
      obtain ⟨rfl, -⟩ := h
      exact .inl (clean_backend operation)
    | exec =>
      rcases h with ⟨rfl, -⟩ | ⟨rfl, -⟩
      · exact ⟨operation, rfl⟩
      · exact .inr ⟨operation, rfl⟩

end Replace

end ChpProxy.RedisStore
