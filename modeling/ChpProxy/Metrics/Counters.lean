import Mathlib.Algebra.Group.Nat.Defs
import Mathlib.Data.List.Induction
import Mathlib.Data.List.Sort
import ChpProxy.Lib.Rounding
import ChpProxy.Lib.TreeMap

/-! The counters and summaries of `metrics.rs`, and what they hold after a history of recordings. A
summary keeps its last observations, and every quantile is one of them. -/
namespace ChpProxy

def summaryWindowCapacity : ℕ := 4096

/-- The values of `SUMMARY_QUANTILES`, each with the text it is printed as. -/
def summaryQuantiles : List (String × ℚ) :=
  [("0.01", 1 / 100), ("0.05", 5 / 100), ("0.5", 1 / 2), ("0.9", 9 / 10), ("0.95", 95 / 100),
    ("0.99", 99 / 100), ("0.999", 999 / 1000)]

/-- `F` stands for `f64` with the order of `total_cmp`; the sum is rounded in an unspecified way. -/
structure Summary (F : Type) where
  count : ℕ
  sum : F
  recent : List F

namespace Summary

variable {F : Type}

def new [Zero F] : Summary F := ⟨0, 0, []⟩

def observe [Add F] (s : Summary F) (value : F) : Summary F where
  count := min (s.count + 1) (2 ^ 64 - 1)
  sum := s.sum + value
  recent := (if s.recent.length = summaryWindowCapacity then s.recent.tail else s.recent) ++ [value]

def sort [LinearOrder F] (s : Summary F) : List F := s.recent.mergeSort (· ≤ ·)

/-- `SummarySnapshot::quantile`; an index out of range panics. The quantile's literal and the product
are rounded. -/
def quantile [LinearOrder F] [Zero F] (R : Rounding (2 ^ 53)) (s : Summary F) (q : ℚ) : Option F :=
  if s.sort = [] then some 0 else s.sort[R.index (s.sort.length - 1) (R.round q)]?

section

variable [Zero F] [Add F]

omit [Zero F] in
theorem recent_observe (s : Summary F) (value : F) : (s.observe value).recent =
    (if s.recent.length = summaryWindowCapacity then s.recent.tail else s.recent) ++ [value] := rfl

omit [Zero F] in
theorem count_observe (s : Summary F) (value : F) :
    (s.observe value).count = min (s.count + 1) (2 ^ 64 - 1) := rfl

theorem recent_observed (values : List F) : (values.foldl observe new).recent =
    values.drop (values.length - summaryWindowCapacity) := by
  induction values using List.reverseRecOn with
  | nil => exact List.drop_nil.symm
  | append_singleton values value ih =>
    rw [List.foldl_concat, recent_observe, ih, List.length_drop, List.length_append,
      List.length_singleton]
    have hpos : 0 < summaryWindowCapacity := by decide
    split_ifs with hfull
    · have hlength : values.length + 1 - summaryWindowCapacity =
          values.length - summaryWindowCapacity + 1 := by omega
      have hle : values.length - summaryWindowCapacity + 1 ≤ values.length := by omega
      rw [hlength, List.tail_drop, List.drop_append_of_le_length hle]
    · have hnone : values.length - summaryWindowCapacity = 0 := by omega
      have hnone' : values.length + 1 - summaryWindowCapacity = 0 := by omega
      rw [hnone, hnone']
      rfl

theorem sum_observed (values : List F) :
    (values.foldl observe new).sum = values.foldl (· + ·) 0 := by
  induction values using List.reverseRecOn with
  | nil => rfl
  | append_singleton values value ih =>
    rw [List.foldl_concat, List.foldl_concat, ← ih]
    rfl

theorem count_observed (values : List F) :
    (values.foldl observe new).count = min values.length (2 ^ 64 - 1) := by
  induction values using List.reverseRecOn with
  | nil => rfl
  | append_singleton values value ih =>
    rw [List.foldl_concat, count_observe, ih, List.length_append, List.length_singleton]
    omega

end

end Summary

/-- The value at a fraction `q` of the way through the values in order, or zero if there are none. -/
def rank {F : Type} [LinearOrder F] [Zero F] (R : Rounding (2 ^ 53)) (values : List F) (q : ℚ) : F :=
  (values.mergeSort (· ≤ ·)).getD (R.index (values.length - 1) (R.round q)) 0

/-- No quantile of a window is out of range. -/
theorem Summary.quantile_eq_rank {F : Type} [LinearOrder F] [Zero F] (R : Rounding (2 ^ 53))
    {s : Summary F} (hs : s.recent.length ≤ summaryWindowCapacity) {q : ℚ} (hq : q ≤ 1) :
    s.quantile R q = some (rank R s.recent q) := by
  have hlength : s.sort.length = s.recent.length := List.length_mergeSort _
  unfold quantile rank
  rw [hlength]
  split_ifs with hempty
  · change s.sort = [] at hempty
    change some 0 = some (s.sort.getD _ 0)
    rw [hempty, List.getD_nil]
  · have hround : R.round q ≤ 1 := by
      have hone := R.natCast 1 (by norm_num)
      rw [Nat.cast_one] at hone
      exact (R.mono hq).trans hone.le
    have hpos : 0 < s.sort.length := List.length_pos_iff.mpr hempty
    have hindex : R.index (s.recent.length - 1) (R.round q) ≤ s.recent.length - 1 :=
      R.index_le hround (by unfold summaryWindowCapacity at hs; omega)
    have hlt : R.index (s.recent.length - 1) (R.round q) < s.sort.length := by omega
    change s.sort[_]? = some (s.sort.getD _ 0)
    rw [List.getD_eq_getElem?_getD, List.getElem?_eq_getElem hlt, Option.getD_some]

/-- The value at a fraction of a window: the one whose place in order is the nearest to that fraction
of the last place, where the fraction and the product are rounded. An empty window has zero. -/
def Quantile {F : Type} [LinearOrder F] [Zero F] (R : Rounding (2 ^ 53)) (window : List F) (q : ℚ)
    (value : F) : Prop :=
  window = [] ∧ value = 0 ∨ ∃ (ordered : List F) (i : ℕ), ordered.Perm window ∧
    ordered.Pairwise (· ≤ ·) ∧ ordered[i]? = some value ∧
    (i : ℚ) ≤ R.round ((window.length - 1 : ℕ) * R.round q) + 1 / 2 ∧
    R.round ((window.length - 1 : ℕ) * R.round q) + 1 / 2 < i + 1

theorem quantile_iff {F : Type} [LinearOrder F] [Zero F] {R : Rounding (2 ^ 53)} {window : List F}
    (hwindow : window.length ≤ summaryWindowCapacity) {q : ℚ} (hq : 0 ≤ q) (hq' : q ≤ 1)
    {value : F} : Quantile R window q value ↔ rank R window q = value := by
  have hround : 0 ≤ R.round q ∧ R.round q ≤ 1 := by
    have hzero := R.natCast 0 (Nat.zero_le _)
    have hone := R.natCast 1 (by norm_num)
    rw [Nat.cast_zero] at hzero
    rw [Nat.cast_one] at hone
    exact ⟨hzero.ge.trans (R.mono hq), (R.mono hq').trans hone.le⟩
  have hlength : (window.mergeSort (· ≤ ·)).length = window.length := List.length_mergeSort _
  unfold rank
  rcases window.eq_nil_or_concat with rfl | ⟨front, last, hwindow'⟩
  · rw [List.mergeSort_nil, List.getD_nil]
    constructor
    · rintro (⟨-, rfl⟩ | ⟨ordered, i, hperm, -, hi, -⟩)
      · rfl
      · rw [hperm.eq_nil] at hi
        cases hi
    · exact fun hvalue => .inl ⟨rfl, hvalue.symm⟩
  · have hpos : 0 < window.length := by simp [hwindow']
    have hindex : R.index (window.length - 1) (R.round q) ≤ window.length - 1 :=
      R.index_le hround.2 (by unfold summaryWindowCapacity at hwindow; omega)
    have hlt : R.index (window.length - 1) (R.round q) < (window.mergeSort (· ≤ ·)).length := by
      omega
    have hplace := List.getElem?_eq_getElem hlt
    rw [List.getD_eq_getElem?_getD, hplace, Option.getD_some]
    have hsorted := List.pairwise_mergeSort' (· ≤ ·) window
    constructor
    · rintro (⟨hnil, -⟩ | ⟨ordered, i, hperm, hordered, hi, hnear⟩)
      · simp [hnil] at hpos
      · obtain rfl : ordered = window.mergeSort (· ≤ ·) :=
          List.Perm.eq_of_pairwise (fun _ _ _ _ hle hge => le_antisymm hle hge) hordered hsorted
            (hperm.trans (List.mergeSort_perm window _).symm)
        obtain rfl := (R.index_eq_iff hround.1).mpr hnear
        exact Option.some.inj (hplace.symm.trans hi)
    · rintro rfl
      exact .inr ⟨_, _, List.mergeSort_perm window _, hsorted, hplace,
        (R.index_eq_iff hround.1).mp rfl⟩

inductive CounterName where
  | apiRouteGet
  | apiRouteAdd
  | apiRouteDelete
  | requestsWs
  | requestsWeb
  | activityPersistenceFailures
  | activityDropped
  deriving DecidableEq

inductive StatusName where
  | requestsApi
  | requestsProxy
  deriving DecidableEq

inductive SummaryName where
  | findTargetForReq
  | lastActivityUpdating
  deriving DecidableEq

/-- The fields of `Metrics`, each behind a lock or an atomic of its own. -/
structure Metrics (F : Type) where
  requestsApi : Std.ExtTreeMap ℕ UInt64
  requestsProxy : Std.ExtTreeMap ℕ UInt64
  apiRouteGet : UInt64
  apiRouteAdd : UInt64
  apiRouteDelete : UInt64
  findTargetForReq : Summary F
  lastActivityUpdating : Summary F
  requestsWs : UInt64
  requestsWeb : UInt64
  activityPersistenceFailures : UInt64
  activityDropped : UInt64

inductive Recording (F : Type) where
  | apiRequest (status : ℕ)
  | apiRouteGet
  | apiRouteAdd
  | apiRouteDelete
  | findTarget (seconds : F)
  | lastActivityUpdate (seconds : F)
  | wsRequest
  | webRequest
  | proxyRequest (status : ℕ)
  | activityPersistenceFailure
  | activityDrop

namespace Metrics

variable {F : Type} [Zero F] [Add F]

def new : Metrics F := ⟨∅, ∅, 0, 0, 0, .new, .new, 0, 0, 0, 0⟩

/-- `*counts.entry(status).or_default() += 1`, which wraps around in a release build. -/
def increment (counts : Std.ExtTreeMap ℕ UInt64) (status : ℕ) : Std.ExtTreeMap ℕ UInt64 :=
  counts.insert status ((counts[status]?).getD 0 + 1)

def record (m : Metrics F) : Recording F → Metrics F
  | .apiRequest status => { m with requestsApi := increment m.requestsApi status }
  | .apiRouteGet => { m with apiRouteGet := m.apiRouteGet + 1 }
  | .apiRouteAdd => { m with apiRouteAdd := m.apiRouteAdd + 1 }
  | .apiRouteDelete => { m with apiRouteDelete := m.apiRouteDelete + 1 }
  | .findTarget seconds => { m with findTargetForReq := m.findTargetForReq.observe seconds }
  | .lastActivityUpdate seconds =>
    { m with lastActivityUpdating := m.lastActivityUpdating.observe seconds }
  | .wsRequest => { m with requestsWs := m.requestsWs + 1 }
  | .webRequest => { m with requestsWeb := m.requestsWeb + 1 }
  | .proxyRequest status => { m with requestsProxy := increment m.requestsProxy status }
  | .activityPersistenceFailure =>
    { m with activityPersistenceFailures := m.activityPersistenceFailures + 1 }
  | .activityDrop => { m with activityDropped := m.activityDropped + 1 }

def counter (m : Metrics F) : CounterName → UInt64
  | .apiRouteGet => m.apiRouteGet
  | .apiRouteAdd => m.apiRouteAdd
  | .apiRouteDelete => m.apiRouteDelete
  | .requestsWs => m.requestsWs
  | .requestsWeb => m.requestsWeb
  | .activityPersistenceFailures => m.activityPersistenceFailures
  | .activityDropped => m.activityDropped

def statuses (m : Metrics F) : StatusName → Std.ExtTreeMap ℕ UInt64
  | .requestsApi => m.requestsApi
  | .requestsProxy => m.requestsProxy

def summary (m : Metrics F) : SummaryName → Summary F
  | .findTargetForReq => m.findTargetForReq
  | .lastActivityUpdating => m.lastActivityUpdating

end Metrics

namespace Recording

variable {F : Type}

def counter? : Recording F → Option CounterName
  | .apiRouteGet => some .apiRouteGet
  | .apiRouteAdd => some .apiRouteAdd
  | .apiRouteDelete => some .apiRouteDelete
  | .wsRequest => some .requestsWs
  | .webRequest => some .requestsWeb
  | .activityPersistenceFailure => some .activityPersistenceFailures
  | .activityDrop => some .activityDropped
  | _ => none

def outcome? : Recording F → Option (StatusName × ℕ)
  | .apiRequest status => some (.requestsApi, status)
  | .proxyRequest status => some (.requestsProxy, status)
  | _ => none

def observation? : Recording F → Option (SummaryName × F)
  | .findTarget seconds => some (.findTargetForReq, seconds)
  | .lastActivityUpdate seconds => some (.lastActivityUpdating, seconds)
  | _ => none

end Recording

section History

variable {F : Type} (history : List (Recording F))

def occurrences (name : CounterName) : ℕ := history.countP (·.counter? = some name)

def outcomes (name : StatusName) (status : ℕ) : ℕ :=
  history.countP (·.outcome? = some (name, status))

def observations (name : SummaryName) : List F :=
  (history.filterMap Recording.observation?).filterMap fun o => if o.1 = name then some o.2 else none

end History

namespace Metrics

variable {F : Type} [Zero F] [Add F]

def after (history : List (Recording F)) : Metrics F := history.foldl record new

theorem after_concat (history : List (Recording F)) (r : Recording F) :
    after (history ++ [r]) = (after history).record r := List.foldl_concat ..

omit [Zero F] in
theorem counter_record (m : Metrics F) (r : Recording F) (name : CounterName) :
    (m.record r).counter name = m.counter name + if r.counter? = some name then 1 else 0 := by
  cases r <;> cases name <;> simp [record, counter, Recording.counter?]

omit [Zero F] in
theorem statuses_record (m : Metrics F) (r : Recording F) (name : StatusName) (status : ℕ) :
    ((m.record r).statuses name)[status]? = if r.outcome? = some (name, status) then
      some (((m.statuses name)[status]?).getD 0 + 1) else (m.statuses name)[status]? := by
  cases r <;> cases name <;>
    simp +contextual [record, statuses, Recording.outcome?, increment, TreeMap.getElem?_insert_eq]

omit [Zero F] in
theorem summary_record (m : Metrics F) (r : Recording F) (name : SummaryName) :
    (m.record r).summary name =
      ((observations [r] name).foldl Summary.observe (m.summary name)) := by
  cases r <;> cases name <;> rfl

theorem counter_after (history : List (Recording F)) (name : CounterName) :
    (after history).counter name = UInt64.ofNat (occurrences history name) := by
  induction history using List.reverseRecOn with
  | nil => cases name <;> rfl
  | append_singleton history r ih =>
    unfold occurrences at ih ⊢
    rw [after_concat, counter_record, ih, List.countP_append, UInt64.ofNat_add]
    simp [List.countP_singleton, apply_ite UInt64.ofNat]

theorem statuses_after (history : List (Recording F)) (name : StatusName) (status : ℕ) :
    ((after history).statuses name)[status]? = if outcomes history name status = 0 then none
      else some (UInt64.ofNat (outcomes history name status)) := by
  induction history using List.reverseRecOn with
  | nil => cases name <;> rfl
  | append_singleton history r ih =>
    have hcount : outcomes (history ++ [r]) name status =
        outcomes history name status + if r.outcome? = some (name, status) then 1 else 0 := by
      simp [outcomes, List.countP_append, List.countP_singleton]
    rw [after_concat, statuses_record, ih, hcount]
    by_cases hr : r.outcome? = some (name, status)
    · rw [if_pos hr, if_pos hr, if_neg (Nat.succ_ne_zero _), UInt64.ofNat_add]
      split_ifs with hnone
      · rw [hnone]
        rfl
      · rfl
    · rw [if_neg hr, if_neg hr, Nat.add_zero]

theorem summary_after (history : List (Recording F)) (name : SummaryName) :
    (after history).summary name = (observations history name).foldl Summary.observe .new := by
  induction history using List.reverseRecOn with
  | nil => cases name <;> rfl
  | append_singleton history r ih =>
    have happend : observations (history ++ [r]) name =
        observations history name ++ observations [r] name := by
      simp [observations, List.filterMap_append]
    rw [after_concat, summary_record, ih, happend, List.foldl_append]

end Metrics

end ChpProxy
