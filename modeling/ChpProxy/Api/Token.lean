import ChpProxy.Api.Octets
import Mathlib.Logic.Relation

/-! The token of the `Authorization` header is what the leftmost match of `/token\s+(\S+)/` captures.
The loops of `extract_token` are given with their indices: `none` is a slice out of range, or a loop
that does not end in time. -/
namespace ChpProxy.Api

variable {header : List UInt8} {i j n start fuel : ℕ} {token : List UInt8}

def sliceFrom (bytes : List UInt8) (start : ℕ) : Option (List UInt8) :=
  if start ≤ bytes.length then some (bytes.drop start) else none

def slice (bytes : List UInt8) (start stop : ℕ) : Option (List UInt8) :=
  if start ≤ stop ∧ stop ≤ bytes.length then some ((bytes.drop start).take (stop - start)) else none

def skipLoop (header : List UInt8) : (fuel : ℕ) → (start : ℕ) → Option ℕ
  | 0, _ => none
  | fuel + 1, start => do
    let rest ← sliceFrom header start
    match javascriptWhitespaceWidth rest with
    | some width => skipLoop header fuel (start + width)
    | none => some start

def endLoop (header : List UInt8) : (fuel : ℕ) → (stop : ℕ) → Option ℕ
  | 0, _ => none
  | fuel + 1, stop =>
    if stop < header.length then do
      let rest ← sliceFrom header stop
      if (javascriptWhitespaceWidth rest).isNone then endLoop header fuel (stop + 1) else some stop
    else some stop

/-- Search for the marker, from one failed match to the next. -/
def searchLoop (header : List UInt8) : (fuel : ℕ) → (offset : ℕ) → Option (Option (List UInt8))
  | 0, _ => none
  | fuel + 1, offset => do
    let rest ← sliceFrom header offset
    match Search.position marker rest with
    | none => some none
    | some found =>
      let afterMarker := offset + found + marker.length
      let start ← skipLoop header (fuel + 1) afterMarker
      if afterMarker < start then
        let stop ← endLoop header (fuel + 1) start
        if start < stop then (slice header start stop).map some
        else searchLoop header fuel afterMarker
      else searchLoop header fuel afterMarker

/-! What a match is. -/

def IsWhitespace (header : List UInt8) (i : ℕ) : Prop :=
  (javascriptWhitespaceWidth (header.drop i)).isSome = true

/-- One unit of whitespace, by its width. -/
def IsUnit (header : List UInt8) (i j : ℕ) : Prop :=
  ∃ width, javascriptWhitespaceWidth (header.drop i) = some width ∧ j = i + width

/-- The marker at `i`, some whitespace, and something else at `start`. -/
structure Occurs (header : List UInt8) (i start : ℕ) : Prop where
  marked : marker <+: header.drop i
  spaced : Relation.TransGen (IsUnit header) (i + marker.length) start
  inside : start < header.length
  visible : ¬IsWhitespace header start

/-- The longest run without whitespace from `start` on. -/
def IsRun (header : List UInt8) (start : ℕ) (token : List UInt8) : Prop :=
  ∃ stop, start ≤ stop ∧ stop ≤ header.length ∧
    (∀ p, start ≤ p → p < stop → ¬IsWhitespace header p) ∧
    (stop = header.length ∨ IsWhitespace header stop) ∧
    token = (header.drop start).take (stop - start)

/-- What the leftmost match captures. -/
def LeftmostMatch (header token : List UInt8) : Prop :=
  ∃ i start, Occurs header i start ∧ (∀ i' < i, ∀ start', ¬Occurs header i' start') ∧
    IsRun header start token

/-! The loops and the functions on lists. -/

theorem javascriptWhitespaceWidth_bounds {input : List UInt8} {width : ℕ}
    (h : javascriptWhitespaceWidth input = some width) : 1 ≤ width ∧ width ≤ input.length := by
  unfold javascriptWhitespaceWidth at h
  split at h
  · cases h
  · next first rest =>
    split_ifs at h
    · obtain rfl := Option.some.inj h
      exact ⟨le_refl 1, by simp⟩
    · split at h
      · next character text htext =>
        have hbytes : first :: rest = Utf8.encode (character :: text) :=
          Utf8.decode_eq_some_iff.mp htext
        dsimp only at h
        split_ifs at h
        obtain rfl := Option.some.inj h
        refine ⟨character.utf8Size_pos, ?_⟩
        rw [hbytes, Utf8.encode_cons, List.length_append, String.length_utf8EncodeChar]
        exact Nat.le_add_right _ _
      · cases h

theorem not_isWhitespace_iff :
    ¬IsWhitespace header i ↔ javascriptWhitespaceWidth (header.drop i) = none := by
  unfold IsWhitespace
  rw [Option.not_isSome_iff_eq_none]

theorem IsUnit.bounds (h : IsUnit header i j) : i < j ∧ j ≤ header.length := by
  obtain ⟨width, hwidth, rfl⟩ := h
  obtain ⟨hpos, hle⟩ := javascriptWhitespaceWidth_bounds hwidth
  rw [List.length_drop] at hle
  omega

theorem IsUnit.isWhitespace (h : IsUnit header i j) : IsWhitespace header i := by
  obtain ⟨width, hwidth, -⟩ := h
  rw [IsWhitespace, hwidth]
  rfl

theorem sliceFrom_of_le (h : i ≤ header.length) : sliceFrom header i = some (header.drop i) :=
  if_pos h

theorem skipWhitespace_skip (skip : ℕ) (input : List UInt8) :
    skipWhitespace skip input = skipWhitespace 0 (input.drop skip) := by
  induction skip generalizing input with
  | zero => rfl
  | succ skip ih =>
    cases input with
    | nil => rfl
    | cons first rest => exact ih rest

theorem skipWhitespace_of_none {input : List UInt8} (h : javascriptWhitespaceWidth input = none) :
    skipWhitespace 0 input = input := by
  cases input with
  | nil => rfl
  | cons first rest => rw [skipWhitespace, h]

theorem skipWhitespace_of_some {input : List UInt8} {width : ℕ}
    (h : javascriptWhitespaceWidth input = some width) :
    skipWhitespace 0 input = skipWhitespace 0 (input.drop width) := by
  obtain ⟨hpos, -⟩ := javascriptWhitespaceWidth_bounds h
  cases input with
  | nil => cases h
  | cons first rest =>
    obtain ⟨width, rfl⟩ := Nat.exists_eq_add_of_le' hpos
    rw [skipWhitespace, h]
    exact skipWhitespace_skip width rest

theorem skipLoop_spec (hi : i ≤ header.length) (hfuel : header.length - i < fuel) :
    ∃ n, skipLoop header fuel i = some n ∧ i ≤ n ∧ n ≤ header.length ∧
      Relation.ReflTransGen (IsUnit header) i n ∧ ¬IsWhitespace header n ∧
      skipWhitespace 0 (header.drop i) = header.drop n := by
  induction fuel generalizing i with
  | zero => exact absurd hfuel (Nat.not_lt_zero _)
  | succ fuel ih =>
    rw [skipLoop, sliceFrom_of_le hi]
    simp only [Option.bind_eq_bind, Option.bind_some]
    cases hwidth : javascriptWhitespaceWidth (header.drop i) with
    | none =>
      exact ⟨i, rfl, le_refl i, hi, .refl, not_isWhitespace_iff.mpr hwidth,
        skipWhitespace_of_none hwidth⟩
    | some width =>
      have hunit : IsUnit header i (i + width) := ⟨width, hwidth, rfl⟩
      have hbounds := hunit.bounds
      obtain ⟨n, hloop, hge, hn, hunits, hend, hskip⟩ := ih hbounds.2 (by omega)
      refine ⟨n, hloop, by omega, hn, hunits.head hunit, hend, ?_⟩
      rw [skipWhitespace_of_some hwidth, List.drop_drop, hskip]

theorem endLoop_spec (hi : i ≤ header.length) (hfuel : header.length - i < fuel) :
    ∃ stop, endLoop header fuel i = some stop ∧ i ≤ stop ∧ stop ≤ header.length ∧
      (∀ p, i ≤ p → p < stop → ¬IsWhitespace header p) ∧
      (stop = header.length ∨ IsWhitespace header stop) ∧
      untilWhitespace (header.drop i) = (header.drop i).take (stop - i) := by
  induction fuel generalizing i with
  | zero => exact absurd hfuel (Nat.not_lt_zero _)
  | succ fuel ih =>
    rw [endLoop]
    split_ifs with hlt
    · rw [sliceFrom_of_le hi]
      simp only [Option.bind_eq_bind, Option.bind_some]
      have hcons : header.drop i = header[i] :: header.drop (i + 1) :=
        List.drop_eq_getElem_cons hlt
      cases hwidth : javascriptWhitespaceWidth (header.drop i) with
      | some width =>
        have hwhite : IsWhitespace header i := by
          rw [IsWhitespace, hwidth]
          rfl
        refine ⟨i, rfl, le_refl i, hi, fun p hp hlt' => by omega, .inr hwhite, ?_⟩
        rw [hcons] at hwidth ⊢
        rw [untilWhitespace, hwidth, Nat.sub_self]
        rfl
      | none =>
        obtain ⟨stop, hloop, hle, hstop, hrun, hend, htaken⟩ := ih (i := i + 1) (by omega) (by omega)
        refine ⟨stop, hloop, by omega, hstop, fun p hp hlt' => ?_, hend, ?_⟩
        · rcases Nat.eq_or_lt_of_le hp with rfl | hgt
          · exact not_isWhitespace_iff.mpr hwidth
          · exact hrun p hgt hlt'
        · have hsub : stop - i = (stop - (i + 1)) + 1 := by omega
          rw [hcons] at hwidth ⊢
          rw [untilWhitespace, hwidth, hsub, List.take_succ_cons, htaken]
          rfl
    · have heq : i = header.length := by omega
      refine ⟨i, rfl, le_refl i, hi, fun p hp hlt' => by omega, .inl heq, ?_⟩
      rw [List.drop_eq_nil_of_le (by omega), Nat.sub_self]
      rfl

theorem extractTokenFrom_skip (skip : ℕ) (input : List UInt8) :
    extractTokenFrom skip input = extractTokenFrom 0 (input.drop skip) := by
  induction skip generalizing input with
  | zero => rfl
  | succ skip ih =>
    cases input with
    | nil => rfl
    | cons first rest => exact ih rest

theorem extractTokenFrom_of_marker {input : List UInt8} (h : marker <+: input) :
    extractTokenFrom 0 input = (tokenAfter (input.drop marker.length)).or
      (extractTokenFrom 0 (input.drop marker.length)) := by
  cases input with
  | nil => exact absurd (List.prefix_nil.mp h) (by decide)
  | cons first rest =>
    rw [extractTokenFrom, if_pos (List.isPrefixOf_iff_prefix.mpr h)]
    cases tokenAfter ((first :: rest).drop marker.length) with
    | none => exact extractTokenFrom_skip _ rest
    | some token => rfl

theorem extractTokenFrom_of_not_marker {first : UInt8} {rest : List UInt8}
    (h : ¬marker <+: first :: rest) :
    extractTokenFrom 0 (first :: rest) = extractTokenFrom 0 rest := by
  rw [extractTokenFrom, if_neg fun hp => h (List.isPrefixOf_iff_prefix.mp hp)]

theorem extractTokenFrom_of_position (input : List UInt8) :
    extractTokenFrom 0 input =
      (Search.position marker input).bind fun found => extractTokenFrom 0 (input.drop found) := by
  induction input with
  | nil => rfl
  | cons first rest ih =>
    rw [Search.position]
    split_ifs with hmarker
    · rfl
    · rw [extractTokenFrom_of_not_marker hmarker, ih]
      cases Search.position marker rest with
      | none => rfl
      | some found => rfl

/-- What the two inner loops find after a marker that ends at `i`: the token would lie between `n`
and `stop`. -/
structure Scan (header : List UInt8) (i n stop : ℕ) : Prop where
  ordered : i ≤ n ∧ n ≤ stop ∧ stop ≤ header.length
  units : Relation.ReflTransGen (IsUnit header) i n
  visible : ¬IsWhitespace header n
  run : ∀ p, n ≤ p → p < stop → ¬IsWhitespace header p
  ended : stop = header.length ∨ IsWhitespace header stop
  skipped : skipWhitespace 0 (header.drop i) = header.drop n
  taken : untilWhitespace (header.drop n) = (header.drop n).take (stop - n)

theorem exists_scan (hi : i ≤ header.length) (hfuel : header.length - i < fuel) :
    ∃ n stop, Scan header i n stop ∧ skipLoop header fuel i = some n ∧
      endLoop header fuel n = some stop := by
  obtain ⟨n, hskip, hge, hn, hunits, hvisible, hskipped⟩ := skipLoop_spec hi hfuel
  have hfuel' : header.length - n < fuel := by omega
  obtain ⟨stop, hend, hle, hstop, hrun, hended, htaken⟩ := endLoop_spec hn hfuel'
  exact ⟨n, stop, ⟨⟨hge, hle, hstop⟩, hunits, hvisible, hrun, hended, hskipped, htaken⟩, hskip, hend⟩

theorem Scan.lt_iff (h : Scan header i n j) : n < j ↔ n < header.length := by
  have hordered := h.ordered
  constructor
  · intro hlt
    omega
  · intro hlt
    rcases h.ended with hend | hwhite
    · omega
    · rcases Nat.eq_or_lt_of_le hordered.2.1 with rfl | hlt
      · exact absurd hwhite h.visible
      · exact hlt

theorem Scan.tokenAfter_eq (h : Scan header i n j) : tokenAfter (header.drop i) =
    if i < n ∧ n < j then some ((header.drop n).take (j - n)) else none := by
  have hordered := h.ordered
  unfold tokenAfter
  dsimp only
  rw [h.skipped, h.taken]
  have hshorter : (header.drop n).length < (header.drop i).length ↔ i < n ∧ i < header.length := by
    rw [List.length_drop, List.length_drop]
    omega
  have hempty : ((header.drop n).take (j - n)).isEmpty = false ↔ n < j := by
    rw [List.isEmpty_eq_false_iff, ← List.length_pos_iff, List.length_take, List.length_drop]
    omega
  refine if_congr ?_ rfl rfl
  rw [Bool.and_eq_true, decide_eq_true_eq, Bool.not_eq_true', hshorter, hempty]
  omega

/-- The loops find what the functions on lists do. -/
theorem searchLoop_eq (hi : i ≤ header.length) (hfuel : header.length - i < fuel) :
    searchLoop header fuel i = some (extractTokenFrom 0 (header.drop i)) := by
  induction fuel generalizing i with
  | zero => exact absurd hfuel (Nat.not_lt_zero _)
  | succ fuel ih =>
    rw [searchLoop, sliceFrom_of_le hi, extractTokenFrom_of_position]
    simp only [Option.bind_eq_bind, Option.bind_some]
    cases hfound : Search.position marker (header.drop i) with
    | none => rfl
    | some found =>
      have hmarker := ((Search.position_eq_some_iff (by decide)).mp hfound).1
      have hle := Search.le_length_of_position (by decide) hfound
      rw [List.length_drop] at hle
      have hlength : marker.length = 5 := rfl
      have hafter : i + found + marker.length ≤ header.length := by omega
      have hfuel' : header.length - (i + found + marker.length) < fuel + 1 := by omega
      obtain ⟨n, stop, hscan, hskip, hstop⟩ := exists_scan hafter hfuel'
      have hordered := hscan.ordered
      have hrest := ih hafter (by omega)
      simp only [Option.bind_some]
      rw [extractTokenFrom_of_marker hmarker, List.drop_drop, List.drop_drop, ← Nat.add_assoc, hskip,
        hscan.tokenAfter_eq]
      simp only [Option.bind_some, hstop, hrest]
      by_cases hspaced : i + found + marker.length < n
      · by_cases htoken : n < stop
        · rw [if_pos hspaced, if_pos htoken, if_pos ⟨hspaced, htoken⟩, slice,
            if_pos ⟨hordered.2.1, hordered.2.2⟩]
          rfl
        · rw [if_pos hspaced, if_neg htoken, if_neg fun h => htoken h.2]
          rfl
      · rw [if_neg hspaced, if_neg fun h => hspaced h.1]
        rfl

/-! The leftmost match. -/

theorem eq_of_units (hi : Relation.ReflTransGen (IsUnit header) i n)
    (hj : Relation.ReflTransGen (IsUnit header) i j) (hn : ¬IsWhitespace header n)
    (hend : ¬IsWhitespace header j) : n = j := by
  have hunique : Relator.RightUnique (IsUnit header) := by
    rintro a b c ⟨width, hwidth, rfl⟩ ⟨width', hwidth', rfl⟩
    rw [Option.some.inj (hwidth.symm.trans hwidth')]
  rcases Relation.ReflTransGen.total_of_right_unique hunique hi hj with hnj | hjn
  · rcases Relation.ReflTransGen.cases_head hnj with rfl | ⟨m, hunit, -⟩
    · rfl
    · exact absurd hunit.isWhitespace hn
  · rcases Relation.ReflTransGen.cases_head hjn with rfl | ⟨m, hunit, -⟩
    · rfl
    · exact absurd hunit.isWhitespace hend

theorem lt_of_units (h : Relation.TransGen (IsUnit header) i j) : i < j := by
  induction h with
  | single hunit => exact hunit.bounds.1
  | tail _ hunit ih => exact ih.trans hunit.bounds.1

/-- Two markers do not overlap. -/
theorem not_marker_within (h : marker <+: header.drop i) (hlt : i < j)
    (hj : j < i + marker.length) : ¬marker <+: header.drop j := by
  intro hmarker
  obtain ⟨k, rfl⟩ := Nat.exists_eq_add_of_lt hlt
  have hlength : marker.length = 5 := rfl
  have hk : k + 1 < marker.length := by omega
  have hfirst := (List.prefix_iff_getElem?.mp hmarker) 0 (by decide)
  have hwithin := (List.prefix_iff_getElem?.mp h) (k + 1) hk
  rw [List.getElem?_drop] at hfirst hwithin
  rw [Nat.add_zero, Nat.add_assoc, hwithin] at hfirst
  have hletter : marker[k + 1] = marker[0] := Option.some.inj hfirst
  have hmem : marker[k + 1] ∈ marker.tail := by
    rw [← List.getElem_tail (by rw [List.length_tail]; omega)]
    exact List.getElem_mem _
  rw [hletter] at hmem
  have hnot : (0x74 : UInt8) ∉ marker.tail := by decide
  exact hnot hmem

theorem Scan.occurs_iff (h : Scan header (i + marker.length) n j)
    (hmarker : marker <+: header.drop i) :
    Occurs header i start ↔ start = n ∧ i + marker.length < n ∧ n < j := by
  constructor
  · rintro ⟨-, hspaced, hinside, hvisible⟩
    have heq := eq_of_units hspaced.to_reflTransGen h.units hvisible h.visible
    subst heq
    exact ⟨rfl, lt_of_units hspaced, h.lt_iff.mpr hinside⟩
  · rintro ⟨rfl, hlt, htoken⟩
    refine ⟨hmarker, ?_, h.lt_iff.mp htoken, h.visible⟩
    rcases Relation.reflTransGen_iff_eq_or_transGen.mp h.units with heq | hunits
    · omega
    · exact hunits

/-- From where no match begins further left, the search finds the leftmost match, if there is a match
at all. -/
theorem extractTokenFrom_spec (hi : i ≤ header.length)
    (hbefore : ∀ i' < i, ∀ start, ¬Occurs header i' start) :
    (∃ token, extractTokenFrom 0 (header.drop i) = some token ∧ LeftmostMatch header token) ∨
    (extractTokenFrom 0 (header.drop i) = none ∧ ∀ i' start, ¬Occurs header i' start) := by
  induction hk : header.length - i using Nat.strong_induction_on generalizing i with
  | _ k ih =>
    subst hk
    rcases Nat.eq_or_lt_of_le hi with rfl | hlt
    · right
      rw [List.drop_length]
      refine ⟨rfl, fun i' start hoccurs => ?_⟩
      by_cases hi' : i' < header.length
      · exact hbefore i' hi' start hoccurs
      · have hmarked := hoccurs.marked
        rw [List.drop_eq_nil_of_le (by omega), List.prefix_nil] at hmarked
        exact absurd hmarked (by decide)
    · by_cases hmarker : marker <+: header.drop i
      · have hlength : marker.length = 5 := rfl
        have hle := hmarker.length_le
        rw [List.length_drop] at hle
        have hafter : i + marker.length ≤ header.length := by omega
        obtain ⟨n, stop, hscan, -⟩ := exists_scan hafter (Nat.lt_succ_self _)
        rw [extractTokenFrom_of_marker hmarker, List.drop_drop, hscan.tokenAfter_eq]
        by_cases htoken : i + marker.length < n ∧ n < stop
        · left
          rw [if_pos htoken]
          refine ⟨_, rfl, i, n, (hscan.occurs_iff hmarker).mpr ⟨rfl, htoken⟩, hbefore, stop, ?_⟩
          exact ⟨hscan.ordered.2.1, hscan.ordered.2.2, hscan.run, hscan.ended, rfl⟩
        · rw [if_neg htoken]
          refine ih (header.length - (i + marker.length)) (by omega) hafter ?_ rfl
          intro i' hi' start hoccurs
          rcases Nat.lt_trichotomy i' i with hless | rfl | hgreater
          · exact hbefore i' hless start hoccurs
          · exact htoken ((hscan.occurs_iff hmarker).mp hoccurs).2
          · exact not_marker_within hmarker hgreater hi' hoccurs.marked
      · have hcons : header.drop i = header[i] :: header.drop (i + 1) :=
          List.drop_eq_getElem_cons hlt
        have hstep : extractTokenFrom 0 (header.drop i) =
            extractTokenFrom 0 (header.drop (i + 1)) := by
          rw [hcons] at hmarker ⊢
          exact extractTokenFrom_of_not_marker hmarker
        rw [hstep]
        refine ih (header.length - (i + 1)) (by omega) hlt ?_ rfl
        intro i' hi' start hoccurs
        rcases Nat.eq_or_lt_of_le (Nat.le_of_lt_succ hi') with rfl | hless
        · exact hmarker hoccurs.marked
        · exact hbefore i' hless start hoccurs

theorem IsRun.eq {token' : List UInt8} (h : IsRun header start token)
    (h' : IsRun header start token') : token = token' := by
  obtain ⟨stop, hle, hlength, hrun, hended, rfl⟩ := h
  obtain ⟨stop', hle', hlength', hrun', hended', rfl⟩ := h'
  have heq : stop = stop' := by
    rcases Nat.lt_trichotomy stop stop' with hlt | heq | hgt
    · rcases hended with hend | hwhite
      · omega
      · exact absurd hwhite (hrun' stop hle hlt)
    · exact heq
    · rcases hended' with hend | hwhite
      · omega
      · exact absurd hwhite (hrun stop' hle' hgt)
  rw [heq]

theorem LeftmostMatch.eq {token' : List UInt8} (h : LeftmostMatch header token)
    (h' : LeftmostMatch header token') : token = token' := by
  obtain ⟨i, start, hoccurs, hfirst, hrun⟩ := h
  obtain ⟨i', start', hoccurs', hfirst', hrun'⟩ := h'
  have hi : i = i' := by
    rcases Nat.lt_trichotomy i i' with hlt | heq | hgt
    · exact absurd hoccurs (hfirst' i hlt start)
    · exact heq
    · exact absurd hoccurs' (hfirst i' hgt start')
  subst hi
  have hstart := eq_of_units hoccurs.spaced.to_reflTransGen hoccurs'.spaced.to_reflTransGen
    hoccurs.visible hoccurs'.visible
  rw [hstart] at hrun
  exact hrun.eq hrun'

theorem authorized_iff {expected : List UInt8} {headers : HeaderMap} :
    authorized ⟨some expected⟩ headers = true ↔
      ∃ header, headers.get? "authorization" = some header ∧ extractToken header = some expected := by
  unfold authorized
  dsimp only
  rw [← Option.bind_eq_some_iff]
  cases (headers.get? "authorization").bind extractToken with
  | none => simp
  | some candidate =>
    simp only [constantTimeEq, Bool.and_eq_true, decide_eq_true_eq, Option.some.injEq]
    constructor
    · rintro ⟨hlength, heq⟩
      rwa [if_pos hlength] at heq
    · rintro rfl
      exact ⟨rfl, if_pos rfl⟩

/-- The loops of `extract_token` end without a slice out of range. They return the token of the
leftmost match, and nothing if and only if there is no match. So a configured token admits exactly
the requests whose first match is that token. -/
theorem token_is_leftmost_match :
    (∀ header fuel, header.length < fuel →
      searchLoop header fuel 0 = some (extractToken header)) ∧
    (∀ header token, extractToken header = some token ↔ LeftmostMatch header token) ∧
    (∀ header, (∃ token, extractToken header = some token) ↔ ∃ i start, Occurs header i start) ∧
    ∀ expected headers, authorized ⟨some expected⟩ headers = true ↔
      ∃ header, headers.get? "authorization" = some header ∧ LeftmostMatch header expected := by
  have hspec : ∀ header, (∃ token, extractToken header = some token ∧
      LeftmostMatch header token) ∨ (extractToken header = none ∧
        ∀ i' start, ¬Occurs header i' start) := fun header =>
    extractTokenFrom_spec (Nat.zero_le _) fun i' hi' => absurd hi' (Nat.not_lt_zero _)
  have hmatch : ∀ header token, extractToken header = some token ↔ LeftmostMatch header token := by
    intro header token
    rcases hspec header with ⟨found, hfound, hleft⟩ | ⟨hnone, hno⟩
    · rw [hfound, Option.some.injEq]
      constructor
      · rintro rfl
        exact hleft
      · exact hleft.eq
    · rw [hnone]
      constructor
      · intro h
        cases h
      · rintro ⟨i, start, hoccurs, -⟩
        exact absurd hoccurs (hno i start)
  refine ⟨fun header fuel hfuel => searchLoop_eq (Nat.zero_le _) hfuel, hmatch, fun header => ?_,
    fun expected headers => ?_⟩
  · rcases hspec header with ⟨found, hfound, hleft⟩ | ⟨hnone, hno⟩
    · obtain ⟨i, start, hoccurs, -⟩ := hleft
      exact iff_of_true ⟨found, hfound⟩ ⟨i, start, hoccurs⟩
    · refine iff_of_false ?_ ?_
      · rw [hnone]
        rintro ⟨token, htoken⟩
        cases htoken
      · rintro ⟨i, start, hoccurs⟩
        exact hno i start hoccurs
  · rw [authorized_iff]
    constructor
    · rintro ⟨header, hget, htoken⟩
      exact ⟨header, hget, (hmatch header expected).mp htoken⟩
    · rintro ⟨header, hget, hleft⟩
      exact ⟨header, hget, (hmatch header expected).mpr hleft⟩

end ChpProxy.Api
