import Mathlib.Data.List.Perm.Basic
import Mathlib.Data.List.Range
import ChpProxy.Lib.Census
import ChpProxy.Lib.Transition

/-! `TlsTcpListener`: the TLS handshakes of accepted connections run as tasks beside the accept
loop. They survive a call of `accept` that is dropped, and end with the listener. -/
namespace ChpProxy

def maxConcurrentTlsHandshakes : ℕ := 64

/-- How the task of a handshake ends: with a stream, without one, or with a panic. -/
inductive HandshakeResult where
  | established
  | refused
  | panicked
  deriving DecidableEq

/-- A task of the `JoinSet`; `none` while it runs. -/
structure Handshake where
  connection : ℕ
  result : Option HandshakeResult
  deriving DecidableEq

/-- What a call of `accept` waits for. -/
inductive AcceptCall where
  | joining
  | selecting
  deriving DecidableEq

/-- Connections are numbered in the order in which the socket gives them. -/
structure TlsTcpListener where
  handshakes : List Handshake
  call : Option AcceptCall
  accepted : ℕ
  closed : Bool

/-- `cancel` drops a call of `accept` and `close` the listener, as `axum::serve` does at its end;
`handshake` and `join` name a task by its place in the set. -/
inductive TlsAction where
  | accept
  | cancel
  | connection
  | acceptFailed
  | handshake (i : ℕ) (result : HandshakeResult)
  | join (i : ℕ)
  | joinNone
  | close

inductive TlsEvent where
  | ended (connection : ℕ) (result : HandshakeResult)
  | returned (connection : ℕ)
  | discarded (connection : ℕ)
  | aborted (connection : ℕ)
  deriving DecidableEq

/-- Whether `accept` returns what `join_next` gave. -/
def completedTlsHandshake : Option HandshakeResult → Bool
  | some .established => true
  | some .refused | some .panicked | none => false

namespace TlsTcpListener

def start : TlsTcpListener := ⟨[], none, 0, false⟩

def loop (l : TlsTcpListener) : TlsTcpListener :=
  { l with
    call := some (if l.handshakes.length ≥ maxConcurrentTlsHandshakes then .joining
      else .selecting) }

def step (l : TlsTcpListener) : TlsAction → Option TlsTcpListener
  | .accept => match l.call with
    | none => if l.closed then none else some l.loop
    | some _ => none
  | .cancel => l.call.map fun _ => { l with call := none }
  | .connection => match l.call with
    | some .selecting => some (loop
      { l with handshakes := l.handshakes ++ [⟨l.accepted, none⟩], accepted := l.accepted + 1 })
    | _ => none
  | .acceptFailed => match l.call with
    | some .selecting => some l.loop
    | _ => none
  | .handshake i result => match l.handshakes[i]? with
    | some ⟨connection, none⟩ =>
      some { l with handshakes := l.handshakes.set i ⟨connection, some result⟩ }
    | _ => none
  | .join i => match l.call, l.handshakes[i]? with
    | some _, some ⟨_, some result⟩ =>
      let l := { l with handshakes := l.handshakes.eraseIdx i }
      if completedTlsHandshake (some result) then some { l with call := none } else some l.loop
    | _, _ => none
  -- `join_next` gives nothing at once if the set is empty; the select then leaves it out
  | .joinNone => match l.call with
    | some .joining =>
      if l.handshakes = [] then
        if completedTlsHandshake none then some { l with call := none } else some l.loop
      else none
    | _ => none
  -- dropping the `JoinSet` aborts its tasks and drops what they have returned
  | .close => match l.call with
    | none => if l.closed then none else some { l with handshakes := [], closed := true }
    | some _ => none

abbrev run : TlsTcpListener → List TlsAction → Option TlsTcpListener := Transition.run step

def events (l : TlsTcpListener) : TlsAction → List TlsEvent
  | .handshake i result => (l.handshakes[i]?).elim [] fun h => [.ended h.connection result]
  | .join i => (l.handshakes[i]?).elim [] fun h =>
    if completedTlsHandshake h.result then [.returned h.connection] else [.discarded h.connection]
  | .close => l.handshakes.map (.aborted ·.connection)
  | _ => []

end TlsTcpListener

def TlsEvent.settled? : TlsEvent → Option ℕ
  | .ended _ _ => none
  | .returned connection | .discarded connection | .aborted connection => some connection

/-- How a handshake with this result is settled. -/
def HandshakeResult.settles (connection : ℕ) : HandshakeResult → TlsEvent
  | .established => .returned connection
  | .refused | .panicked => .discarded connection

namespace TlsTcpListener

variable {l l' : TlsTcpListener} {a : TlsAction} {as : List TlsAction} {es : List TlsEvent}

/-- Every connection that the socket gave is in the set or settled, once, and settled as its
handshake ended unless the listener was closed before. -/
structure Inv (es : List TlsEvent) (l : TlsTcpListener) : Prop where
  bound : l.handshakes.length ≤ maxConcurrentTlsHandshakes
  waits : ∀ call, l.call = some call →
    (call = .selecting ↔ l.handshakes.length < maxConcurrentTlsHandshakes)
  once : (l.handshakes.map (·.connection) ++ es.filterMap TlsEvent.settled?).Perm
    (List.range l.accepted)
  ended : ∀ h ∈ l.handshakes, ∀ result, h.result = some result →
    .ended h.connection result ∈ es
  settled : ∀ connection result, .ended connection result ∈ es →
    ⟨connection, some result⟩ ∈ l.handshakes ∨ result.settles connection ∈ es ∨
      .aborted connection ∈ es
  closed : l.closed = true → l.call = none ∧ l.handshakes = []
  aborted : ∀ connection, .aborted connection ∈ es → l.closed = true
  returned : ∀ connection, .returned connection ∈ es → .ended connection .established ∈ es

theorem inv_start : Inv [] start where
  bound := Nat.zero_le _
  waits _ hc := by cases hc
  once := List.Perm.refl _
  ended _ hh := by cases hh
  settled _ _ he := by cases he
  closed hc := by cases hc
  aborted _ he := by cases he
  returned _ he := by cases he

theorem loop_waits (l : TlsTcpListener) (call : AcceptCall) (h : l.loop.call = some call) :
    call = .selecting ↔ l.loop.handshakes.length < maxConcurrentTlsHandshakes := by
  unfold loop at h ⊢
  dsimp only at h ⊢
  split_ifs at h with hfull <;> obtain rfl := Option.some.inj h
  · simpa using hfull
  · simpa using hfull

theorem Inv.keep (h : Inv es l) (hhandshakes : l'.handshakes = l.handshakes)
    (haccepted : l'.accepted = l.accepted) (hclosed : l'.closed = l.closed)
    (hopen : l'.call ≠ none → l.closed = false)
    (hwaits : ∀ call, l'.call = some call →
      (call = .selecting ↔ l'.handshakes.length < maxConcurrentTlsHandshakes)) : Inv es l' where
  bound := hhandshakes ▸ h.bound
  waits := hwaits
  once := by
    rw [hhandshakes, haccepted]
    exact h.once
  ended := hhandshakes ▸ h.ended
  settled := hhandshakes ▸ h.settled
  closed hc := by
    rw [hclosed] at hc
    refine ⟨by_contra fun hcall => ?_, hhandshakes.trans (h.closed hc).2⟩
    cases hc.symm.trans (hopen hcall)
  aborted connection he := hclosed.trans (h.aborted connection he)
  returned := h.returned

theorem Inv.open_of_call (h : Inv es l) {call : AcceptCall} (hcall : l.call = some call) :
    l.closed = false := by
  rw [← Bool.not_eq_true]
  intro hclosed
  cases (h.closed hclosed).1.symm.trans hcall

theorem Inv.connection (h : Inv es l) (hcall : l.call = some .selecting) :
    Inv es (loop { l with
      handshakes := l.handshakes ++ [⟨l.accepted, none⟩], accepted := l.accepted + 1 }) where
  bound := by
    have hroom := (h.waits _ hcall).mp rfl
    unfold loop
    simpa using Nat.succ_le_of_lt hroom
  waits := loop_waits _
  once := by
    unfold loop
    dsimp only
    rw [List.map_append, List.append_assoc, List.range_succ]
    refine (List.perm_append_comm.append_left _).trans ?_
    rw [← List.append_assoc]
    exact h.once.append_right _
  ended hh hmem result hresult := by
    rcases List.mem_append.mp hmem with hold | hnew
    · exact h.ended hh hold result hresult
    · obtain rfl := List.mem_singleton.mp hnew
      cases hresult
  settled connection result he :=
    (h.settled connection result he).imp_left (List.mem_append_left _)
  closed hc := by cases (h.open_of_call hcall).symm.trans hc
  aborted := h.aborted
  returned := h.returned

theorem Inv.handshake (h : Inv es l) {i connection : ℕ}
    (hi : l.handshakes[i]? = some ⟨connection, none⟩) (result : HandshakeResult) :
    Inv (es ++ [.ended connection result])
      { l with handshakes := l.handshakes.set i ⟨connection, some result⟩ } where
  bound := by
    rw [List.length_set]
    exact h.bound
  waits := by
    rw [List.length_set]
    exact h.waits
  once := by
    have hsame : (l.handshakes.set i ⟨connection, some result⟩).map (·.connection) =
        l.handshakes.map (·.connection) := by
      rw [List.map_set]
      exact Census.set_self (by rw [List.getElem?_map, hi]; rfl)
    have hnone : [TlsEvent.ended connection result].filterMap TlsEvent.settled? = [] := rfl
    rw [hsame, List.filterMap_append, hnone, List.append_nil]
    exact h.once
  ended x hx result' hresult := by
    rcases List.mem_or_eq_of_mem_set hx with hold | rfl
    · exact List.mem_append_left _ (h.ended x hold result' hresult)
    · obtain rfl := Option.some.inj hresult
      exact List.mem_append_right _ (List.mem_singleton_self _)
  settled connection' result' he := by
    rcases List.mem_append.mp he with hold | hnew
    · rcases h.settled connection' result' hold with hmem | hsettled
      · obtain ⟨j, hj⟩ := List.mem_iff_getElem?.mp hmem
        -- the task that ends now has had no result
        have hne : i ≠ j := by
          rintro rfl
          cases hi.symm.trans hj
        refine .inl (List.mem_of_getElem? (i := j) ?_)
        rw [List.getElem?_set_ne hne, hj]
      · exact .inr (hsettled.imp (List.mem_append_left _) (List.mem_append_left _))
    · obtain ⟨rfl, rfl⟩ := TlsEvent.ended.inj (List.mem_singleton.mp hnew)
      exact .inl (List.mem_set (List.getElem?_eq_some_iff.mp hi).1 _)
  closed hc := by
    rw [(h.closed hc).2] at hi
    cases hi
  aborted connection' he := by
    have hold : .aborted connection' ∈ es := by simpa using he
    exact h.aborted connection' hold
  returned connection' he := by
    have hold : .returned connection' ∈ es := by simpa using he
    exact List.mem_append_left _ (h.returned connection' hold)

theorem Inv.join (h : Inv es l) {i connection : ℕ} {result : HandshakeResult}
    (hi : l.handshakes[i]? = some ⟨connection, some result⟩)
    (hhandshakes : l'.handshakes = l.handshakes.eraseIdx i) (haccepted : l'.accepted = l.accepted)
    (hclosed : l'.closed = l.closed)
    (hwaits : ∀ call, l'.call = some call →
      (call = .selecting ↔ l'.handshakes.length < maxConcurrentTlsHandshakes)) :
    Inv (es ++ [result.settles connection]) l' := by
  obtain ⟨hlt, hget⟩ := List.getElem?_eq_some_iff.mp hi
  have hperm : (⟨connection, some result⟩ :: l.handshakes.eraseIdx i).Perm l.handshakes := by
    rw [← hget]
    exact List.getElem_cons_eraseIdx_perm hlt
  have hopen : l.closed = false := by
    rw [← Bool.not_eq_true]
    intro hc
    rw [(h.closed hc).2] at hi
    cases hi
  refine ⟨?_, hwaits, ?_, ?_, ?_, ?_, ?_, ?_⟩
  · rw [hhandshakes]
    exact (List.length_eraseIdx_le ..).trans h.bound
  · have hsettles : [result.settles connection].filterMap TlsEvent.settled? = [connection] := by
      cases result <;> rfl
    rw [hhandshakes, haccepted, List.filterMap_append, hsettles, ← List.append_assoc]
    refine List.perm_append_comm.trans (List.Perm.trans ?_ h.once)
    exact (hperm.map (·.connection)).append_right _
  · intro x hx result' hresult
    rw [hhandshakes] at hx
    exact List.mem_append_left _ (h.ended x (List.mem_of_mem_eraseIdx hx) result' hresult)
  · intro connection' result' he
    have hold : .ended connection' result' ∈ es := by
      cases result <;> simpa [HandshakeResult.settles] using he
    rcases h.settled connection' result' hold with hmem | hsettled
    · rcases List.mem_cons.mp (hperm.mem_iff.mpr hmem) with heq | hrest
      · cases heq
        exact .inr (.inl (List.mem_append_right _ (List.mem_singleton_self _)))
      · exact .inl (hhandshakes ▸ hrest)
    · exact .inr (hsettled.imp (List.mem_append_left _) (List.mem_append_left _))
  · intro hc
    cases hopen.symm.trans (hclosed.symm.trans hc)
  · intro connection' he
    have hold : .aborted connection' ∈ es := by
      cases result <;> simpa [HandshakeResult.settles] using he
    cases hopen.symm.trans (h.aborted connection' hold)
  · intro connection' he
    rcases List.mem_append.mp he with hold | hnew
    · exact List.mem_append_left _ (h.returned connection' hold)
    · have hended := h.ended _ (List.mem_of_getElem? hi) result rfl
      cases result with
      | established =>
        obtain rfl := TlsEvent.returned.inj (List.mem_singleton.mp hnew)
        exact List.mem_append_left _ hended
      | refused | panicked => cases List.mem_singleton.mp hnew

theorem Inv.close (h : Inv es l) (hcall : l.call = none) :
    Inv (es ++ l.handshakes.map (.aborted ·.connection))
      { l with handshakes := [], closed := true } where
  bound := Nat.zero_le _
  waits call hc := by cases hcall.symm.trans hc
  once := by
    have hsettled : (l.handshakes.map (TlsEvent.aborted ·.connection)).filterMap
        TlsEvent.settled? = l.handshakes.map (·.connection) := by
      rw [List.filterMap_map]
      exact congrFun List.filterMap_eq_map' _
    rw [List.filterMap_append, hsettled, List.map_nil, List.nil_append]
    exact List.perm_append_comm.trans h.once
  ended _ hh := by cases hh
  settled connection result he := by
    have hold : .ended connection result ∈ es := by simpa using he
    right
    rcases h.settled connection result hold with hmem | hsettled
    · exact .inr (List.mem_append_right _ (List.mem_map_of_mem hmem))
    · exact hsettled.imp (List.mem_append_left _) (List.mem_append_left _)
  closed _ := ⟨hcall, rfl⟩
  aborted _ _ := rfl
  returned connection he := by
    have hold : .returned connection ∈ es := by simpa using he
    exact List.mem_append_left _ (h.returned connection hold)

theorem inv_step (h : Inv es l) (hs : l.step a = some l') : Inv (es ++ l.events a) l' := by
  have hquiet : l.events a = [] → Inv es l' → Inv (es ++ l.events a) l' := by
    intro hnone hl
    rwa [hnone, List.append_nil]
  cases a with
  | accept =>
    simp only [step] at hs
    split at hs
    · split_ifs at hs with hclosed
      obtain rfl := Option.some.inj hs
      exact hquiet rfl (h.keep rfl rfl rfl (fun _ => by simpa using hclosed) (loop_waits l))
    · cases hs
  | cancel =>
    obtain ⟨call, -, rfl⟩ := Option.map_eq_some_iff.mp hs
    exact hquiet rfl (h.keep rfl rfl rfl (fun hc => absurd rfl hc) fun _ hc => by cases hc)
  | connection =>
    simp only [step] at hs
    split at hs
    · next hcall =>
      obtain rfl := Option.some.inj hs
      exact hquiet rfl (h.connection hcall)
    · cases hs
  | acceptFailed =>
    simp only [step] at hs
    split at hs
    · next hcall =>
      obtain rfl := Option.some.inj hs
      exact hquiet rfl (h.keep rfl rfl rfl (fun _ => h.open_of_call hcall) (loop_waits l))
    · cases hs
  | handshake i result =>
    simp only [step] at hs
    split at hs
    · next connection hi =>
      obtain rfl := Option.some.inj hs
      simp only [events, hi, Option.elim_some]
      exact h.handshake hi result
    · cases hs
  | join i =>
    simp only [step] at hs
    split at hs
    · next call connection result hcall hi =>
      have hevent : l.events (.join i) = [result.settles connection] := by
        simp only [events, hi, Option.elim_some]
        cases result <;> rfl
      rw [hevent]
      split_ifs at hs
      · obtain rfl := Option.some.inj hs
        exact h.join hi rfl rfl rfl fun _ hc => by cases hc
      · obtain rfl := Option.some.inj hs
        exact h.join hi rfl rfl rfl (loop_waits _)
    · cases hs
  | joinNone =>
    simp only [step] at hs
    split at hs
    · next hcall =>
      split_ifs at hs with hnil hnone
      · cases hnone
      · obtain rfl := Option.some.inj hs
        exact hquiet rfl (h.keep rfl rfl rfl (fun _ => h.open_of_call hcall) (loop_waits l))
    · cases hs
  | close =>
    simp only [step] at hs
    split at hs
    · next hcall =>
      split_ifs at hs
      obtain rfl := Option.some.inj hs
      exact h.close hcall
    · cases hs

theorem inv_run (h : run start as = some l) : Inv (Transition.trace step events start as) l :=
  Transition.trace_invariant (P := Inv) (fun _ _ _ _ hi hs => inv_step hi hs) inv_start h

theorem closed_of_step (hs : l.step a = some l') (hne : a ≠ .close) : l'.closed = l.closed := by
  cases a with
  | close => exact absurd rfl hne
  | cancel =>
    obtain ⟨_, -, rfl⟩ := Option.map_eq_some_iff.mp hs
    rfl
  | accept | connection | acceptFailed | handshake i result | join i | joinNone =>
    simp only [step] at hs
    repeat' split at hs
    all_goals cases hs
    all_goals rfl

theorem ends_of_closed (h : run start as = some l) (hclosed : l.closed = true) :
    ∃ bs, as = bs ++ [.close] := by
  rcases List.eq_nil_or_concat as with rfl | ⟨bs, a, rfl⟩
  · obtain rfl := Option.some.inj h
    cases hclosed
  · rw [List.concat_eq_append] at h ⊢
    obtain ⟨u, hu, hs⟩ := (Transition.run_concat_eq_some_iff _).mp h
    by_cases hlast : a = .close
    · exact ⟨bs, by rw [hlast]⟩
    · -- the listener was closed before, where it has neither a call nor a task
      have hdone : u.closed = true := (closed_of_step hs hlast).symm.trans hclosed
      obtain ⟨hcall, hnil⟩ := (inv_run hu).closed hdone
      cases a <;> simp [step, hcall, hnil, hdone] at hs

/-- Three handshakes are started and two are established, then the call is dropped. The next call
returns one of them, and the listener is dropped with the others. -/
def dropped : List TlsAction :=
  [.accept, .connection, .connection, .connection, .handshake 1 .established,
    .handshake 2 .established, .cancel, .accept, .join 1, .close]

end TlsTcpListener

end ChpProxy
