import ChpProxy.Lib.Result
import ChpProxy.Store.Sidecar.Protocol

/-! The checks of the client against the protocol: it takes a reply for an acknowledgment exactly if
the protocol does, and for a refusal only if the protocol does. -/
namespace ChpProxy.SidecarStore

variable {store : SidecarStore} {operation : String} {r : Response} {body : List UInt8}

theorem singleHeader_eq_some {headers : HeaderMap} {name : HeaderName} {text : String} :
    store.singleHeader headers name = some text ↔
      Http.Visible text ∧ headers.getAll name = [Http.ofText text] := by
  unfold singleHeader
  constructor
  · intro h
    split at h
    · cases h
    · next value values hall =>
      obtain ⟨text', hread, h⟩ := Option.bind_eq_some_iff.mp h
      split_ifs at h with hnone
      obtain rfl := Option.some.inj h
      have hvisible := store.http.visible_of_toStr hread
      rw [hall, List.isEmpty_iff.mp hnone, (store.http.toStr_eq_some hvisible).mp hread]
      exact ⟨hvisible, rfl⟩
  · rintro ⟨hvisible, hall⟩
    rw [hall]
    dsimp only
    rw [(store.http.toStr_eq_some hvisible).mpr rfl]
    rfl

theorem hasExactProtocolHeader_iff :
    store.hasExactProtocolHeader r.headers = true ↔ r.HasHeader "x-store-protocol" "v1" := by
  unfold hasExactProtocolHeader
  rw [decide_eq_true_eq, singleHeader_eq_some]
  exact and_iff_right (by decide)

theorem hasExactContentType_iff :
    store.hasExactContentType r.headers "application/json" = true ↔
      r.HasHeader "content-type" "application/json" := by
  unfold hasExactContentType
  rw [decide_eq_true_eq, singleHeader_eq_some]
  exact and_iff_right (by decide)

theorem headersWithinLimits_iff : headersWithinLimits r.headers = true ↔
    r.headers.iter.length ≤ 64 ∧
      (r.headers.iter.map fun p => p.1.utf8ByteSize + p.2.length).sum ≤ 32768 := by
  unfold headersWithinLimits
  split_ifs with hcount
  · have hgt : ¬r.headers.iter.length ≤ 64 := Nat.not_le_of_lt hcount
    simp [hgt]
  · have hle : r.headers.iter.length ≤ 64 := Nat.le_of_not_lt hcount
    rw [decide_eq_true_eq]
    exact (and_iff_right hle).symm

theorem headers_pass_iff : (!headersWithinLimits r.headers ||
    !store.hasExactProtocolHeader r.headers) = false ↔ r.Speaks r.status := by
  rw [Bool.or_eq_false_iff, Bool.not_eq_false', Bool.not_eq_false', headersWithinLimits_iff,
    hasExactProtocolHeader_iff]
  constructor
  · rintro ⟨⟨hlines, hsize⟩, hversion⟩
    exact ⟨hversion, hlines, hsize, rfl⟩
  · intro h
    exact ⟨⟨h.lines, h.size⟩, h.version⟩

theorem framing_eq_false_iff : hasNonemptyOrAmbiguousBodyFraming r.headers = false ↔
    r.headers.getAll "transfer-encoding" = [] ∧
      (r.headers.getAll "content-length" = [] ∨ r.HasHeader "content-length" "0") := by
  unfold hasNonemptyOrAmbiguousBodyFraming Response.HasHeader
  rw [MultiMap.contains_eq]
  cases hencoding : r.headers.getAll "transfer-encoding" with
  | cons value values => simp
  | nil =>
    simp only [List.isEmpty_nil, Bool.not_true, Bool.false_eq_true, if_false, true_and]
    split
    · next hnone => simp [hnone]
    · next length hone => simp [hone]
    · next hmany => simp [hmany]

theorem readChunks_eq_ok {truncated : Bool} {chunks : List (List UInt8)} {read : List UInt8} :
    readChunks truncated chunks read = .ok body ↔
      truncated = false ∧ read ++ chunks.flatten = body ∧
        (chunks = [] ∨ body.length ≤ maxResponseBytes) := by
  induction chunks generalizing read with
  | nil =>
    unfold readChunks
    cases truncated <;> simp
  | cons chunk chunks ih =>
    unfold readChunks
    split_ifs with hlarge
    · refine iff_of_false (by simp) ?_
      rintro ⟨-, rfl, hnil | hlength⟩
      · cases hnil
      · rw [List.length_append, List.flatten_cons, List.length_append] at hlength
        omega
    · rw [ih, List.flatten_cons, List.append_assoc]
      refine and_congr_right fun _ => and_congr_right fun hbody => ?_
      constructor
      · rintro (rfl | hlength)
        · right
          rw [← hbody]
          simp only [List.flatten_nil, List.append_nil, List.length_append]
          omega
        · exact .inr hlength
      · rintro (hnil | hlength)
        · cases hnil
        · exact .inr hlength

theorem boundedBody_eq_ok : boundedBody r = .ok body ↔ r.Delivers body := by
  unfold boundedBody
  split_ifs with hlarge
  · refine iff_of_false (by simp) fun h => ?_
    cases hlength : r.contentLength with
    | none =>
      rw [hlength] at hlarge
      cases hlarge
    | some n =>
      rw [hlength] at hlarge
      have hlt : 4194304 < n := of_decide_eq_true hlarge
      exact absurd (h.announced n hlength) (Nat.not_le_of_lt hlt)
  · have hannounced : ∀ n, r.contentLength = some n → n ≤ 4194304 := by
      intro n hn
      rw [hn, Option.any_some, decide_eq_true_eq] at hlarge
      exact Nat.le_of_not_lt hlarge
    rw [readChunks_eq_ok, List.nil_append]
    constructor
    · rintro ⟨hcomplete, hoctets, hnil | hlength⟩
      · refine ⟨hcomplete, hoctets, ?_, hannounced⟩
        rw [← hoctets, hnil]
        exact Nat.zero_le _
      · exact ⟨hcomplete, hoctets, hlength, hannounced⟩
    · intro h
      exact ⟨h.complete, h.octets, .inr h.length⟩

theorem parseTimestamp_eq_some_iff {text : String} {t : DateTime} :
    store.parseTimestamp text = some t ↔ Canonical store.codec text t := by
  unfold parseTimestamp chpTimestamp
  rw [Option.bind_eq_some_iff]
  constructor
  · rintro ⟨parsed, hread, h⟩
    split_ifs at h with hwritten
    obtain rfl := Option.some.inj h
    exact ⟨hread, hwritten⟩
  · intro h
    exact ⟨t, h.read, if_pos h.written⟩

theorem decodeRoute_eq_some_iff {data : RouteData} : store.decodeRoute body = some data ↔
    ∃ members, store.codec.fromSlice body = some members ∧
      RouteObject store.codec members data := by
  unfold decodeRoute
  rw [Option.bind_eq_some_iff]
  refine exists_congr fun members => and_congr_right fun _ => ?_
  rw [RouteData.visitMap_unique_iff]
  constructor
  · rintro ⟨hnodup, htarget, ⟨text, hmem, hparse⟩, hextra⟩
    refine ⟨hnodup, htarget, ⟨text, hmem, parseTimestamp_eq_some_iff.mp hparse⟩, fun k v => ?_⟩
    rw [hextra k v]
    simp [RouteData.isReserved]
  · rintro ⟨hnodup, htarget, ⟨text, hmem, hcanonical⟩, hextra⟩
    refine ⟨hnodup, htarget, ⟨text, hmem, parseTimestamp_eq_some_iff.mpr hcanonical⟩,
      fun k v => ?_⟩
    rw [hextra k v]
    simp [RouteData.isReserved]

theorem readMutationBody_eq_ok : readMutationBody r operation = .ok body ↔ r.Delivers body := by
  rw [← boundedBody_eq_ok]
  unfold readMutationBody
  cases boundedBody r with
  | error e => simp [Except.mapError]
  | ok bytes => simp [Except.mapError]

theorem readMutationBody_eq_error {e : StoreError} (h : readMutationBody r operation = .error e) :
    e = .indeterminate operation := by
  unfold readMutationBody at h
  cases hb : boundedBody r with
  | error e' => rw [hb] at h; exact (Except.error.inj h).symm
  | ok bytes => rw [hb] at h; exact nomatch h

theorem readEmptyBody_eq_ok :
    readEmptyBody r operation = .ok body ↔ r.Delivers [] ∧ body = [] := by
  unfold readEmptyBody
  constructor
  · intro h
    obtain ⟨bytes, hread, h⟩ := Result.bind_eq_ok h
    split_ifs at h with hempty
    obtain rfl : bytes = [] := by simpa using hempty
    exact ⟨readMutationBody_eq_ok.mp hread, (Except.ok.inj h).symm⟩
  · rintro ⟨hbody, rfl⟩
    rw [readMutationBody_eq_ok.mpr hbody]
    rfl

theorem readEmptyBody_eq_error {e : StoreError} (h : readEmptyBody r operation = .error e) :
    e = .indeterminate operation := by
  unfold readEmptyBody at h
  rcases Result.bind_eq_error h with h | ⟨bytes, -, h⟩
  · exact readMutationBody_eq_error h
  · split at h
    · exact (Except.error.inj h).symm
    · exact nomatch h

theorem readEmptyBody_bind_eq_ok {status : ℕ} {lastActivity : Option DateTime} {reply : HttpReply} :
    (do
      let body ← readEmptyBody r operation
      .ok ⟨status, body, lastActivity⟩ : Except StoreError HttpReply) = .ok reply ↔
      r.Delivers [] ∧ reply = ⟨status, [], lastActivity⟩ := by
  constructor
  · intro h
    obtain ⟨body, hread, h⟩ := Result.bind_eq_ok h
    obtain ⟨hbody, rfl⟩ := readEmptyBody_eq_ok.mp hread
    exact ⟨hbody, (Except.ok.inj h).symm⟩
  · rintro ⟨hbody, rfl⟩
    rw [readEmptyBody_eq_ok.mpr ⟨hbody, rfl⟩]
    rfl

theorem acknowledge_eq_error {acknowledgment : MutationAcknowledgment} {e : StoreError}
    (h : store.acknowledge operation acknowledgment r = .error e) :
    e = .indeterminate operation := by
  have hnone : ∀ {e' : StoreError}, Except.error (α := HttpReply) (.indeterminate operation) =
      .error e' → e' = .indeterminate operation := fun h => (Except.error.inj h).symm
  have hempty : ∀ lastActivity, (do
      let body ← readEmptyBody r operation
      .ok ⟨r.status, body, lastActivity⟩ : Except StoreError HttpReply) = .error e →
      e = .indeterminate operation := by
    intro lastActivity h
    rcases Result.bind_eq_error h with h | ⟨_, -, h⟩
    · exact readEmptyBody_eq_error h
    · exact nomatch h
  unfold acknowledge at h
  cases acknowledgment with
  | put =>
    dsimp only at h
    split_ifs at h
    · exact hnone h
    · split at h
      · exact hnone h
      · exact hempty _ h
    · exact hnone h
  | empty =>
    dsimp only at h
    split_ifs at h
    · exact hnone h
    · exact hempty _ h
    · exact hnone h
  | delete =>
    dsimp only at h
    split_ifs at h
    · exact hnone h
    · rcases Result.bind_eq_error h with h | ⟨_, -, h⟩
      · exact readMutationBody_eq_error h
      · exact nomatch h
    · exact hnone h
    · exact hempty _ h
    · exact hnone h

theorem noContent_iff {status : ℕ} (h : r.Speaks r.status) : r.NoContent status ↔
    r.status = status ∧ (r.headers.contains "content-type" ||
      hasNonemptyOrAmbiguousBodyFraming r.headers) = false ∧ r.Delivers [] := by
  rw [Bool.or_eq_false_iff, framing_eq_false_iff, MultiMap.contains_eq]
  constructor
  · intro hempty
    exact ⟨hempty.status_eq, ⟨by simp [hempty.untyped], hempty.unframed, hempty.lengths⟩,
      hempty.body⟩
  · rintro ⟨rfl, ⟨huntyped, hunframed, hlengths⟩, hbody⟩
    exact ⟨h, by simpa using huntyped, hunframed, hlengths, hbody⟩

theorem committed_iff {lastActivity : DateTime} : store.Committed r lastActivity ↔
    r.NoContent 204 ∧ (store.singleHeader r.headers lastActivityHeader).bind store.parseTimestamp =
      some lastActivity := by
  refine and_congr_right fun _ => ?_
  rw [Option.bind_eq_some_iff]
  refine exists_congr fun text => ?_
  rw [singleHeader_eq_some, parseTimestamp_eq_some_iff, and_assoc]
  rfl

/-- The branch of a reply that must not have content. -/
theorem bodiless_eq_ok {lastActivity : Option DateTime} {reply : HttpReply}
    (h : r.Speaks r.status) :
    (if !!(r.headers.contains "content-type" || hasNonemptyOrAmbiguousBodyFraming r.headers) then
      .error (.indeterminate operation)
    else do
      let body ← readEmptyBody r operation
      .ok ⟨r.status, body, lastActivity⟩ : Except StoreError HttpReply) = .ok reply ↔
      r.NoContent r.status ∧ reply = ⟨r.status, [], lastActivity⟩ := by
  rw [noContent_iff h]
  cases r.headers.contains "content-type" || hasNonemptyOrAmbiguousBodyFraming r.headers with
  | true => simp
  | false => simpa using readEmptyBody_bind_eq_ok

/-- Under the protocol's headers, the client takes exactly the documented acknowledgments. -/
theorem acknowledge_eq_ok {acknowledgment : MutationAcknowledgment} {reply : HttpReply}
    (h : r.Speaks r.status) : store.acknowledge operation acknowledgment r = .ok reply ↔
      store.Acknowledges r acknowledgment reply := by
  have hother : ∀ {n : ℕ}, r.status ≠ n → ¬r.NoContent n := fun hne hempty =>
    hne hempty.status_eq
  unfold acknowledge
  cases acknowledgment with
  | put =>
    simp only [Acknowledges, committed_iff]
    by_cases hstatus : r.status = 204
    · rw [if_pos hstatus, ← hstatus]
      cases htime : (store.singleHeader r.headers lastActivityHeader).bind store.parseTimestamp with
      | none => simp
      | some lastActivity =>
        refine (bodiless_eq_ok h).trans ⟨?_, ?_⟩
        · rintro ⟨hempty, rfl⟩
          exact ⟨lastActivity, ⟨hempty, rfl⟩, rfl⟩
        · rintro ⟨t, ⟨hempty, ht⟩, rfl⟩
          rw [Option.some.inj ht]
          exact ⟨hempty, rfl⟩
    · simp [hstatus, hother hstatus]
  | empty =>
    simp only [Acknowledges]
    by_cases hstatus : r.status = 204
    · rw [if_pos hstatus, ← hstatus]
      exact bodiless_eq_ok h
    · simp [hstatus, hother hstatus]
  | delete =>
    simp only [Acknowledges]
    by_cases hfound : r.status = 200
    · have hcontent : ∀ body, r.Content body ↔
          store.hasExactContentType r.headers "application/json" = true ∧ r.Delivers body := by
        intro body
        rw [hasExactContentType_iff]
        constructor
        · intro hc
          exact ⟨hc.typed, hc.body⟩
        · rintro ⟨htyped, hbody⟩
          exact ⟨hfound ▸ h, htyped, hbody⟩
      have hempty : ¬r.NoContent 404 := hother (by simp [hfound])
      rw [if_pos hfound, hfound]
      simp only [hcontent, hempty, false_and, false_or]
      cases store.hasExactContentType r.headers "application/json" with
      | false => simp
      | true =>
        simp only [Bool.not_true, Bool.false_eq_true, if_false, true_and]
        constructor
        · intro hok
          obtain ⟨body, hread, hok⟩ := Result.bind_eq_ok hok
          exact ⟨body, readMutationBody_eq_ok.mp hread, (Except.ok.inj hok).symm⟩
        · rintro ⟨body, hbody, rfl⟩
          rw [readMutationBody_eq_ok.mpr hbody]
          rfl
    · have hnone : ∀ body, ¬r.Content body := fun body hc => hfound hc.status_eq
      simp only [hfound, if_false, hnone, false_and, exists_false, or_false]
      by_cases hmissing : r.status = 404
      · rw [if_pos hmissing, ← hmissing]
        exact bodiless_eq_ok h
      · simp [hmissing, hother hmissing]

theorem refuses_iff {acknowledgment : MutationAcknowledgment}
    (h : r.HasHeader "x-store-protocol" "v1") : r.Refuses acknowledgment ↔
      isServerError r.status = true ∨ isRejection acknowledgment r.status = true := by
  simp only [Response.Refuses, h, true_and, isServerError, isRejection, isClientError,
    Bool.and_eq_true, decide_eq_true_eq, Bool.not_eq_true', Bool.and_eq_false_iff,
    decide_eq_false_iff_not]
  refine or_congr (and_congr_right fun _ => Nat.lt_succ_iff.symm) ?_
  rw [and_assoc, not_and_or]
  exact and_congr_right fun _ => and_congr_left fun _ => Nat.lt_succ_iff.symm

theorem Acknowledges.speaks {acknowledgment : MutationAcknowledgment} {reply : HttpReply}
    (h : store.Acknowledges r acknowledgment reply) :
    r.Speaks r.status ∧ ¬r.Refuses acknowledgment := by
  have hempty : ∀ {status : ℕ}, r.Speaks status → (status < 400 ∨ acknowledgment = .delete ∧
      status = 404) → r.Speaks r.status ∧ ¬r.Refuses acknowledgment := by
    intro status hs hlow
    refine ⟨hs.status_eq.symm ▸ hs, ?_⟩
    rintro ⟨-, hserver | ⟨hlo, hhi, hnot⟩⟩
    · rw [hs.status_eq] at hserver
      omega
    · rw [hs.status_eq] at hlo hhi hnot
      rcases hlow with hlt | hdelete
      · omega
      · exact hnot hdelete
  cases acknowledgment with
  | put =>
    obtain ⟨t, hcommitted, -⟩ := h
    exact hempty hcommitted.1.toSpeaks (.inl (by decide))
  | empty => exact hempty h.1.toSpeaks (.inl (by decide))
  | delete =>
    rcases h with ⟨hmissing, -⟩ | ⟨body, hcontent, -⟩
    · exact hempty hmissing.toSpeaks (.inr ⟨rfl, rfl⟩)
    · exact hempty hcontent.toSpeaks (.inl (by decide))

/-- The client takes a reply for an acknowledgment exactly if the protocol does. -/
theorem receive_eq_ok_some {acknowledgment : MutationAcknowledgment} {received : Reply}
    {reply : HttpReply} : store.receive operation acknowledgment received = .ok (some reply) ↔
      ∃ r, received = .response r ∧ store.Acknowledges r acknowledgment reply := by
  cases received with
  | lost => simp [receive]
  | response r =>
    have honly : (∃ r', Reply.response r = .response r' ∧
        store.Acknowledges r' acknowledgment reply) ↔
        store.Acknowledges r acknowledgment reply := by simp
    rw [honly]
    simp only [receive]
    by_cases hspeaks : r.Speaks r.status
    · have hrefuses : r.Refuses acknowledgment ↔ _ := refuses_iff hspeaks.version
      simp only [headers_pass_iff.mpr hspeaks, Bool.false_eq_true, if_false]
      split_ifs with hserver hrejected
      · exact iff_of_false (by simp) fun hack => hack.speaks.2 (hrefuses.mpr (.inl hserver))
      · exact iff_of_false (by simp) fun hack => hack.speaks.2 (hrefuses.mpr (.inr hrejected))
      · have hack : store.acknowledge operation acknowledgment r = .ok reply ↔ _ :=
          acknowledge_eq_ok hspeaks
        rw [← hack]
        cases store.acknowledge operation acknowledgment r with
        | error e => simp [Except.map]
        | ok reply' => simp [Except.map]
    · have hheaders : (!headersWithinLimits r.headers ||
          !store.hasExactProtocolHeader r.headers) = true := by
        rw [← Bool.not_eq_false, headers_pass_iff]
        exact hspeaks
      rw [if_pos hheaders]
      exact iff_of_false (by simp) fun hack => hspeaks hack.speaks.1

/-- Another attempt is made only after a refusal. -/
theorem receive_eq_ok_none {acknowledgment : MutationAcknowledgment} {received : Reply}
    (h : store.receive operation acknowledgment received = .ok none) :
    ¬MayHaveCommitted acknowledgment received := by
  cases received with
  | lost => cases h
  | response r =>
    simp only [receive] at h
    split_ifs at h with hheaders hserver hrejected
    · rw [Bool.not_eq_true, headers_pass_iff] at hheaders
      exact not_not.mpr ((refuses_iff hheaders.version).mpr (.inl hserver))
    · cases hack : store.acknowledge operation acknowledgment r with
      | error e => rw [hack] at h; cases h
      | ok reply => rw [hack] at h; cases h

/-- A failure is ordinary only after a refusal. -/
theorem receive_eq_error {acknowledgment : MutationAcknowledgment} {received : Reply}
    {e : StoreError} (h : store.receive operation acknowledgment received = .error e) :
    e = .indeterminate operation ∨
      e = .backend operation ∧ ¬MayHaveCommitted acknowledgment received := by
  cases received with
  | lost => exact .inl (Except.error.inj h).symm
  | response r =>
    simp only [receive] at h
    split_ifs at h with hheaders hserver hrejected
    · exact .inl (Except.error.inj h).symm
    · rw [Bool.not_eq_true, headers_pass_iff] at hheaders
      exact .inr ⟨(Except.error.inj h).symm,
        not_not.mpr ((refuses_iff hheaders.version).mpr (.inr hrejected))⟩
    · cases hack : store.acknowledge operation acknowledgment r with
      | error e' =>
        rw [hack] at h
        left
        rw [← Except.error.inj h, acknowledge_eq_error hack]
      | ok reply => rw [hack] at h; cases h

end ChpProxy.SidecarStore
