import ChpProxy.Store.JsonText
import ChpProxy.Store.Sidecar.Loop

/-! What the result of a sidecar mutation says about the attempts that were dispatched. -/
namespace ChpProxy.SidecarStore

variable {store : SidecarStore} {operation : String}

namespace Classified

variable {α γ : Type} {acknowledgment : MutationAcknowledgment} {Accepted : Response → α → Prop}
  {outcome : Outcome α}

theorem of_unsent {e : StoreError} (he : e.isOrdinary = true) :
    Classified store acknowledgment Accepted (Logged.lift (.error e)) where
  settled := ⟨[], [], rfl, Nat.zero_le 1, by simp⟩
  bounded := Nat.zero_le _
  kinds := by
    intro e' h
    obtain rfl := Except.error.inj h
    exact .inl he
  ordinary := by
    intro _ _ _ x hx
    cases hx
  accepted := by
    intro a
    refine iff_of_false (fun h => by cases h) ?_
    rintro ⟨x, r, hlast, -⟩
    cases hlast

theorem lift_bind {r : Except StoreError γ} {f : γ → Outcome α}
    (hr : ∀ e, r = .error e → e.isOrdinary = true)
    (hf : ∀ c, r = .ok c → Classified store acknowledgment Accepted (f c)) :
    Classified store acknowledgment Accepted (Logged.lift r >>= f) := by
  cases r with
  | error e =>
    rw [Logged.lift_error_bind]
    exact of_unsent (hr e rfl)
  | ok c =>
    rw [Logged.lift_ok_bind]
    exact hf c rfl

/-- What the caller makes of an accepted reply can only fail as indeterminate. -/
theorem bind_lift {Accepted' : Response → γ → Prop} {f : α → Except StoreError γ}
    (h : Classified store acknowledgment Accepted outcome)
    (herror : ∀ r a e, Accepted r a → f a = .error e → e.isIndeterminate = true)
    (hok : ∀ r c, (∃ a, Accepted r a ∧ f a = .ok c) ↔ Accepted' r c) :
    Classified store acknowledgment Accepted' (outcome >>= fun a => Logged.lift (f a)) := by
  have hlog := Logged.bind_lift_log outcome f
  have hresult := Logged.bind_lift_result outcome f
  refine ⟨?_, ?_, ?_, ?_, ?_⟩
  · rw [hlog]
    exact h.settled
  · rw [hlog]
    exact h.bounded
  · intro e he
    rw [hresult] at he
    rcases Result.bind_eq_error he with he | ⟨a, ha, he⟩
    · exact h.kinds e he
    · obtain ⟨x, r, -, -, hacc⟩ := (h.accepted a).mp ha
      exact .inr (herror r a e hacc he)
  · intro e he hord
    rw [hlog]
    rw [hresult] at he
    rcases Result.bind_eq_error he with he | ⟨a, ha, he⟩
    · exact h.ordinary e he hord
    · obtain ⟨x, r, -, -, hacc⟩ := (h.accepted a).mp ha
      rw [e.isOrdinary_of_isIndeterminate (herror r a e hacc he)] at hord
      cases hord
  · intro c
    rw [hresult, hlog]
    constructor
    · intro hc
      obtain ⟨a, ha, hc⟩ := Result.bind_eq_ok hc
      obtain ⟨x, r, hlast, hx, hacc⟩ := (h.accepted a).mp ha
      exact ⟨x, r, hlast, hx, (hok r c).mp ⟨a, hacc, hc⟩⟩
    · rintro ⟨x, r, hlast, hx, hacc⟩
      obtain ⟨a, hacc, hc⟩ := (hok r c).mpr hacc
      rw [(h.accepted a).mpr ⟨x, r, hlast, hx, hacc⟩]
      exact hc

end Classified

theorem routeEndpoint_eq_error {key : RouteKey} {suffix : String} {e : StoreError}
    (h : store.routeEndpoint key suffix = .error e) : e.isOrdinary = true := by
  rw [Result.elim_eq_error h]
  rfl

theorem encodeRoute_eq_error {data : RouteData} {e : StoreError}
    (h : store.encodeRoute operation data = .error e) : e.isOrdinary = true := by
  unfold encodeRoute at h
  split_ifs at h
  obtain rfl := Except.error.inj h
  rfl

theorem putAttempt_eq_error {protocolOperation : String} {route : Value}
    {activityFloor : Option (ℕ → Option DateTime)} {k : ℕ} {sentFloor : DateTime} {e : StoreError}
    (h : store.putAttempt operation protocolOperation route activityFloor k sentFloor = .error e) :
    e.isOrdinary = true := by
  unfold putAttempt at h
  dsimp only at h
  split at h
  · exact nomatch h
  · obtain rfl := Except.error.inj h
    rfl

theorem putEnvelope_classified (store : SidecarStore) (errorOperation protocolOperation : String)
    (key : RouteKey) (data : RouteData) (activityFloor : Option (ℕ → Option DateTime))
    (replies : ℕ → Reply) :
    Classified store .put
      (fun r committed => ∃ lastActivity, store.Committed r lastActivity ∧
        committed = { data with lastActivity := lastActivity })
      (store.putEnvelope errorOperation protocolOperation key data activityFloor replies) := by
  unfold putEnvelope
  refine .lift_bind (fun e => encodeRoute_eq_error) fun route _ => ?_
  refine .lift_bind (fun e => routeEndpoint_eq_error) fun url _ => ?_
  refine (mutationRequest_classified (fun _ _ _ => putAttempt_eq_error) _).bind_lift ?_ ?_
  · rintro r reply e ⟨lastActivity, -, rfl⟩ h
    cases h
  · intro r committed
    constructor
    · rintro ⟨reply, ⟨lastActivity, hcommitted, rfl⟩, h⟩
      exact ⟨lastActivity, hcommitted, (Except.ok.inj h).symm⟩
    · rintro ⟨lastActivity, hcommitted, rfl⟩
      exact ⟨_, ⟨lastActivity, hcommitted, rfl⟩, rfl⟩

theorem put_classified (store : SidecarStore) (key : RouteKey) (data : RouteData)
    (replies : ℕ → Reply) :
    Classified store .put (fun r _ => ∃ lastActivity, store.Committed r lastActivity)
      (store.put key data replies) := by
  unfold put
  refine (putEnvelope_classified store "put" "put" key data none replies).bind_lift ?_ ?_
  · intro r committed e _ h
    cases h
  · intro r c
    constructor
    · rintro ⟨committed, ⟨lastActivity, hcommitted, -⟩, -⟩
      exact ⟨lastActivity, hcommitted⟩
    · rintro ⟨lastActivity, hcommitted⟩
      exact ⟨_, ⟨lastActivity, hcommitted, rfl⟩, rfl⟩

theorem updateActivity_classified (store : SidecarStore) (key : RouteKey) (at' : DateTime)
    (replies : ℕ → Reply) :
    Classified store .empty (fun r _ => r.NoContent 204) (store.updateActivity key at' replies) := by
  unfold updateActivity
  refine .lift_bind ?_ fun body _ => ?_
  · intro e h
    split at h
    · cases h
    · obtain rfl := Except.error.inj h
      rfl
  · refine .lift_bind (fun e => routeEndpoint_eq_error) fun url _ => ?_
    refine (mutationRequest_classified ?_ _).bind_lift ?_ ?_
    · intro k captured e h
      cases h
    · intro r reply e _ h
      cases h
    · intro r c
      constructor
      · rintro ⟨reply, ⟨hempty, -⟩, -⟩
        exact hempty
      · intro hempty
        exact ⟨_, ⟨hempty, rfl⟩, rfl⟩

theorem delete_classified (store : SidecarStore) (key : RouteKey) (replies : ℕ → Reply) :
    Classified store .delete
      (fun r prior => r.NoContent 404 ∧ prior = none ∨
        ∃ data, store.Removed r data ∧ prior = some data)
      (store.delete key replies) := by
  unfold delete
  refine .lift_bind (fun e => routeEndpoint_eq_error) fun url _ => ?_
  refine (mutationRequest_classified ?_ _).bind_lift ?_ ?_
  · intro k captured e h
    cases h
  · intro r reply e _ h
    split_ifs at h
    · split at h
      · cases h
      · obtain rfl := Except.error.inj h
        rfl
    · obtain rfl := Except.error.inj h
      rfl
  · intro r prior
    constructor
    · rintro ⟨reply, ⟨hmissing, rfl⟩ | ⟨body, hcontent, rfl⟩, h⟩
      · exact .inl ⟨hmissing, (Except.ok.inj h).symm⟩
      · dsimp only at h
        rw [if_neg (by decide), if_pos rfl] at h
        split at h
        · next data hdecoded =>
          obtain ⟨members, hread, hroute⟩ := decodeRoute_eq_some_iff.mp hdecoded
          exact .inr ⟨data, ⟨body, members, hcontent, hread, hroute⟩, (Except.ok.inj h).symm⟩
        · cases h
    · rintro (⟨hmissing, rfl⟩ | ⟨data, ⟨body, members, hcontent, hread, hroute⟩, rfl⟩)
      · exact ⟨_, .inl ⟨hmissing, rfl⟩, rfl⟩
      · refine ⟨_, .inr ⟨body, hcontent, rfl⟩, ?_⟩
        dsimp only
        rw [if_neg (by decide), if_pos rfl, decodeRoute_eq_some_iff.mpr ⟨members, hread, hroute⟩]

theorem exec_classified (store : SidecarStore) (now : DateTime) (floors : ℕ → Option DateTime)
    (replies : ℕ → Reply) (m : Mutation) :
    Classified store m.acknowledgment (store.Acknowledged m) (store.exec now floors replies m) := by
  cases m with
  | add key target extra =>
    exact putEnvelope_classified store "add" "add" key ⟨target, now, extra⟩ (some floors) replies
  | put key data => exact put_classified store key data replies
  | putPreservingActivity key data =>
    exact putEnvelope_classified store "put" "put_preserving_activity" key data (some floors)
      replies
  | updateActivity key at' => exact updateActivity_classified store key at' replies
  | delete key => exact delete_classified store key replies

/-- For every retry limit and every sequence of replies, an ordinary error means that no attempt
can have committed, there is a value exactly if the last attempt got the documented acknowledgment
for it, and a mutation that may have committed without that acknowledgment is indeterminate. Nothing
is sent after an attempt that may have committed. -/
theorem mutation_outcome_classified (store : SidecarStore) (now : DateTime)
    (floors : ℕ → Option DateTime) (replies : ℕ → Reply) (m : Mutation) :
    let outcome := store.exec now floors replies m
    let uncertain := fun x : Exchange => MayHaveCommitted m.acknowledgment x.reply
    let Acknowledges := fun v : m.Output => ∃ x r, outcome.log.getLast? = some x ∧
      x.reply = .response r ∧ store.Acknowledged m r v
    (∀ e, outcome.result = .error e → e.isOrdinary = true → ∀ x ∈ outcome.log, ¬uncertain x) ∧
    (∀ v, outcome.result = .ok v ↔ Acknowledges v) ∧
    ((∃ x ∈ outcome.log, uncertain x) → (¬∃ v, Acknowledges v) →
      ∃ operation, outcome.result = .error (.indeterminate operation)) ∧
    (∀ e, outcome.result = .error e → e.isOrdinary = true ∨ e.isIndeterminate = true) ∧
    (∀ before x after, outcome.log = before ++ x :: after → uncertain x → after = []) ∧
    outcome.log.length ≤ store.maxAttempts := by
  have h := exec_classified store now floors replies m
  refine ⟨h.ordinary, h.accepted, ?_, h.kinds, ?_, h.bounded⟩
  · rintro ⟨x, hx, hmay⟩ hnone
    cases hresult : (store.exec now floors replies m).result with
    | ok v => exact absurd ⟨v, (h.accepted v).mp hresult⟩ hnone
    | error e =>
      have hkind := h.kinds e hresult
      cases e with
      | message => rcases hkind with hk | hk <;> cases hk
      | backend | corruptData => exact absurd hmay (h.ordinary _ hresult rfl x hx)
      | indeterminate operation => exact ⟨operation, rfl⟩
  · intro before x after hlog hmay
    obtain ⟨pre, last, hsplit, hlast, hpre⟩ := h.settled
    by_contra hafter
    -- an exchange with a successor lies before the last turn, and those were refused
    have hmem : x ∈ pre := Retry.mem_before_last (hsplit.symm.trans hlog) hlast hafter
    exact hpre x hmem hmay

def retryingSidecar : SidecarStore := ⟨.ascii, Json.text.codec .rfc3339, some, 2⟩

def replied (status : ℕ) (headers : List (HeaderName × HeaderValue)) (body : List UInt8) : Reply :=
  .response ⟨status, MultiMap.empty.appendAll (("x-store-protocol", Http.ofText "v1") :: headers),
    none, [body], false⟩

def removedRoute : List (String × Value) :=
  [("target", .string "http://127.0.0.1:9001"),
    ("last_activity", .string "1970-01-01T00:00:01.000000001Z")]

theorem fromSlice_removedRoute : retryingSidecar.codec.fromSlice
    (Json.text.print (.object removedRoute)) = some removedRoute := by
  dsimp only [retryingSidecar, Json.codec]
  rw [Json.text.fromSlice_print (by decide), if_pos (by decide)]
  rfl

/-- A DELETE is refused and sent again. The second attempt is acknowledged, or its reply is lost. -/
theorem mutation_outcome_classified_retried :
    let again := fun last k => if k = 0 then replied 503 [] [] else last
    let delete := fun last =>
      retryingSidecar.exec 0 (fun _ => none) (again last) (.delete (.parse "/a"))
    let acknowledged := delete (replied 200 [("content-type", Http.ofText "application/json")]
      (Json.text.print (.object removedRoute)))
    acknowledged.log.length = 2 ∧
    acknowledged.result = .ok (some ⟨"http://127.0.0.1:9001", 1000000001, ∅⟩) ∧
    (delete .lost).log.length = 2 ∧
    ∃ operation, (delete .lost).result = .error (.indeterminate operation) := by
  refine ⟨rfl, ?_, rfl, ?_⟩
  · refine ((mutation_outcome_classified _ _ _ _ _).2.1 _).mpr ⟨_, _, rfl, rfl, .inr ⟨_, ?_, rfl⟩⟩
    refine ⟨Json.text.print (.object removedRoute), removedRoute, ?_, fromSlice_removedRoute, ?_⟩
    · have hlength : (Json.text.print (.object removedRoute)).length = 83 := by decide +kernel
      exact ⟨⟨rfl, by decide, by decide, rfl⟩, rfl, rfl, List.append_nil _,
        by rw [hlength]; decide, by simp⟩
    · refine ⟨by decide, by decide, ⟨"1970-01-01T00:00:01.000000001Z", by decide, ?_⟩, fun k v => ?_⟩
      · exact ⟨by decide +kernel, by decide +kernel⟩
      · simp only [Std.ExtTreeMap.getElem?_empty, reduceCtorEq, removedRoute, List.mem_cons,
          Prod.mk.injEq, List.not_mem_nil, or_false, false_iff]
        rintro ⟨⟨htarget, hlast⟩, ⟨hk, -⟩ | ⟨hk, -⟩⟩
        · exact htarget hk
        · exact hlast hk
  · refine (mutation_outcome_classified _ _ _ _ _).2.2.1 ⟨_, List.mem_of_getLast? rfl, trivial⟩ ?_
    rintro ⟨v, x, r, hlast, hx, -⟩
    obtain rfl := Option.some.inj hlast
    cases hx

end ChpProxy.SidecarStore
