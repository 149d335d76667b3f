import ChpProxy.Lib.Interaction
import Mathlib.Data.List.DropRight
import ChpProxy.Metrics.Rendering

/-! A scrape of `/metrics` while other threads record. Every field is read at a moment of its own,
and the text that comes out has the samples of these moments in it. -/
namespace ChpProxy

/-- The fields of `Metrics`. A counter is loaded, and a map or a summary is copied under its lock. -/
inductive MetricsField where
  | counter (name : CounterName)
  | statuses (name : StatusName)
  | summary (name : SummaryName)

def MetricsField.Reply (F : Type) : MetricsField → Type
  | .counter _ => UInt64
  | .statuses _ => Std.ExtTreeMap ℕ UInt64
  | .summary _ => Summary F

abbrev Scraper (F : Type) := Interaction.Program MetricsField (MetricsField.Reply F)

namespace Metrics

variable {F : Type} [Zero F] [Add F]

def read (m : Metrics F) : (field : MetricsField) → field.Reply F
  | .counter name => m.counter name
  | .statuses name => m.statuses name
  | .summary name => m.summary name

def component : Interaction.Component (Metrics F) (Recording F) MetricsField (MetricsField.Reply F)
    Empty where
  step m r := some (m.record r)
  begin m field := (m, .inr (m.read field))
  poll _ _ ticket := ticket.elim

def load (field : MetricsField) : Scraper F (field.Reply F) := .call field .done

def snapshot : Scraper F MetricsSnapshot := do
  let requestsApi ← load (.statuses .requestsApi)
  let requestsProxy ← load (.statuses .requestsProxy)
  let apiRouteGet ← load (.counter .apiRouteGet)
  let apiRouteAdd ← load (.counter .apiRouteAdd)
  let apiRouteDelete ← load (.counter .apiRouteDelete)
  let requestsWs ← load (.counter .requestsWs)
  let requestsWeb ← load (.counter .requestsWeb)
  let activityPersistenceFailures ← load (.counter .activityPersistenceFailures)
  let activityDropped ← load (.counter .activityDropped)
  return ⟨requestsApi, requestsProxy, apiRouteGet, apiRouteAdd, apiRouteDelete, requestsWs,
    requestsWeb, activityPersistenceFailures, activityDropped⟩

/-- There is no text if a quantile panics. -/
def renderPrometheus [LinearOrder F] (R : Rounding (2 ^ 53)) (display : F → String) :
    Scraper F (Option String) := do
  let snapshot ← snapshot
  let findTarget ← load (.summary .findTargetForReq)
  let lastActivity ← load (.summary .lastActivityUpdating)
  return renderBody R display snapshot findTarget lastActivity

end Metrics

/-! What a reader of the text is to find in it. -/

def CounterName.label? : CounterName → Option String
  | .apiRouteGet => some "api_route_get"
  | .apiRouteAdd => some "api_route_add"
  | .apiRouteDelete => some "api_route_delete"
  | .requestsWs => some "requests_ws"
  | .requestsWeb => some "requests_web"
  | .activityPersistenceFailures | .activityDropped => none

def StatusName.label : StatusName → String
  | .requestsApi => "requests_api"
  | .requestsProxy => "requests_proxy"

def SummaryName.label : SummaryName → String
  | .findTargetForReq => "find_target_for_req"
  | .lastActivityUpdating => "last_activity_updating"

section Samples

variable {F : Type} [LinearOrder F] [Zero F] [Add F]

/-- A sample of a field after a history of recordings. Counters wrap around, the status codes are
those that occurred, and the quantiles are those of the last 4096 observations. -/
inductive Shows (R : Rounding (2 ^ 53)) (display : F → String) (history : List (Recording F)) :
    MetricsField → List Char × List Char → Prop
  | counter {name : CounterName} {label : String} (h : name.label? = some label) :
    Shows R display history (.counter name)
      (label.toList, (Nat.repr (occurrences history name % 2 ^ 64)).toList)
  | status {name : StatusName} {status : ℕ} (h : outcomes history name status ≠ 0) :
    Shows R display history (.statuses name) ((statusSeries name.label status).toList,
      (Nat.repr (outcomes history name status % 2 ^ 64)).toList)
  | quantile {name : SummaryName} {label : String} {q : ℚ} {value : F}
      (hq : (label, q) ∈ summaryQuantiles)
      (hvalue : Quantile R ((observations history name).rtake 4096) q value) :
    Shows R display history (.summary name)
      ((quantileSeries name.label label).toList, (display value).toList)
  | sum {name : SummaryName} :
    Shows R display history (.summary name) (name.label.toList ++ "_sum".toList,
      (display ((observations history name).foldl (· + ·) 0)).toList)
  | count {name : SummaryName} :
    Shows R display history (.summary name) (name.label.toList ++ "_count".toList,
      (Nat.repr (min (observations history name).length (2 ^ 64 - 1))).toList)

variable {R : Rounding (2 ^ 53)} {display : F → String} {history : List (Recording F)}
  {sample : List Char × List Char}

omit [LinearOrder F] in
theorem toNat_counter_after (history : List (Recording F)) (name : CounterName) :
    ((Metrics.after history).counter name).toNat = occurrences history name % 2 ^ 64 := by
  rw [Metrics.counter_after, UInt64.toNat_ofNat']

theorem mem_counterFamily {name : CounterName} {label : String} (hlabel : name.label? = some label)
    (help : String) :
    sample ∈ (counterFamily label help ((Metrics.after history).counter name)).samples ↔
      Shows R display history (.counter name) sample := by
  have hsample : sample ∈ (counterFamily label help
      ((Metrics.after history).counter name)).samples ↔
      sample = (label.toList, (Nat.repr (occurrences history name % 2 ^ 64)).toList) := by
    unfold counterFamily
    rw [List.mem_singleton, toNat_counter_after]
  rw [hsample]
  constructor
  · rintro rfl
    exact .counter hlabel
  · intro h
    cases h with
    | counter h =>
      obtain rfl := Option.some.inj (hlabel.symm.trans h)
      rfl

theorem mem_statusFamily (name : StatusName) (help : String) :
    sample ∈ (statusFamily name.label help ((Metrics.after history).statuses name)).samples ↔
      Shows R display history (.statuses name) sample := by
  have hentry : ∀ status value, (status, value) ∈ ((Metrics.after history).statuses name).toList ↔
      outcomes history name status ≠ 0 ∧ value = UInt64.ofNat (outcomes history name status) := by
    intro status value
    rw [Std.ExtTreeMap.mem_toList_iff_getElem?_eq_some, Metrics.statuses_after]
    split_ifs with hnone
    · simp [hnone]
    · simp [hnone, eq_comm]
  unfold statusFamily
  rw [List.mem_map]
  constructor
  · rintro ⟨⟨status, value⟩, hmem, rfl⟩
    obtain ⟨hne, rfl⟩ := (hentry status value).mp hmem
    dsimp only
    rw [UInt64.toNat_ofNat']
    exact .status hne
  · intro h
    cases h with
    | @status _ status h =>
      refine ⟨(status, UInt64.ofNat _), (hentry status _).mpr ⟨h, rfl⟩, ?_⟩
      dsimp only
      rw [UInt64.toNat_ofNat']

omit [LinearOrder F] in
theorem recent_after (history : List (Recording F)) (name : SummaryName) :
    ((Metrics.after history).summary name).recent = (observations history name).rtake 4096 := by
  rw [Metrics.summary_after, Summary.recent_observed]
  rfl

omit [LinearOrder F] in
theorem length_recent_after (history : List (Recording F)) (name : SummaryName) :
    ((Metrics.after history).summary name).recent.length ≤ summaryWindowCapacity := by
  rw [recent_after, List.rtake, List.length_drop]
  unfold summaryWindowCapacity
  omega

theorem mem_summaryFamily (name : SummaryName) (help : String) :
    sample ∈ (summaryFamily R display name.label help
      ((Metrics.after history).summary name)).samples ↔
      Shows R display history (.summary name) sample := by
  have hsummary := Metrics.summary_after history name
  have hrecent := recent_after history name
  have hbounds : ∀ q ∈ summaryQuantiles, 0 ≤ q.2 ∧ q.2 ≤ 1 := by
    unfold summaryQuantiles
    norm_num
  have hrank : ∀ q ∈ summaryQuantiles, ∀ value,
      Quantile R ((observations history name).rtake 4096) q.2 value ↔
        rank R ((observations history name).rtake 4096) q.2 = value := by
    intro q hq value
    refine quantile_iff ?_ (hbounds q hq).1 (hbounds q hq).2
    rw [← hrecent]
    exact length_recent_after history name
  have hending : ∀ ending : String, (toString name.label ++ toString ending).toList =
      name.label.toList ++ ending.toList := fun _ => String.toList_append
  have hsum : ((Metrics.after history).summary name).sum =
      (observations history name).foldl (· + ·) 0 := by
    rw [hsummary, Summary.sum_observed]
  have hcount : ((Metrics.after history).summary name).count =
      min (observations history name).length (2 ^ 64 - 1) := by
    rw [hsummary, Summary.count_observed]
  unfold summaryFamily
  rw [List.mem_append, List.mem_map, hrecent, hsum, hcount]
  simp only [List.mem_cons, List.not_mem_nil, or_false, hending]
  constructor
  · rintro (⟨q, hq, rfl⟩ | rfl | rfl)
    · exact .quantile hq ((hrank q hq _).mpr rfl)
    · exact .sum
    · exact .count
  · intro h
    cases h with
    | quantile hq hvalue => exact .inl ⟨_, hq, by rw [(hrank _ hq _).mp hvalue]⟩
    | sum => exact .inr (.inl rfl)
    | count => exact .inr (.inr rfl)

end Samples

namespace Metrics

variable {F : Type} [LinearOrder F] [Zero F] [Add F] {R : Rounding (2 ^ 53)} {display : F → String}
  {history : List (Recording F)} {as : List (Interaction.Act (Recording F))}

def recordings (as : List (Interaction.Act (Recording F))) : List (Recording F) :=
  as.filterMap Interaction.Act.others?

omit [LinearOrder F] in
theorem state_of_run {α : Type} {p : Scraper F α}
    {v : Metrics F × Interaction.Client MetricsField (MetricsField.Reply F) Empty α}
    (h : Interaction.run component (after history, .running p) as = some v) :
    v.1 = after (history ++ recordings as) := by
  refine Transition.run_history (P := fun as v => v.1 = after (history ++ recordings as)) ?_ ?_ h
  · rw [recordings, List.filterMap_nil, List.append_nil]
  · intro bs u a u' _ hu hs
    cases a with
    | others r =>
      obtain rfl := Option.some.inj hs
      have hnew : recordings (bs ++ [.others r]) = recordings bs ++ [r] := List.filterMap_append
      rw [hnew, ← List.append_assoc, after_concat, ← hu]
    | own =>
      have hsame : recordings (bs ++ [.own]) = recordings bs := by
        rw [recordings, List.filterMap_append]
        exact List.append_nil _
      rw [hsame, ← hu]
      simp only [Interaction.step] at hs
      split at hs
      · cases hs
      · obtain rfl := Option.some.inj hs
        rfl
      · next ticket _ _ => exact ticket.elim

/-- A field has the value of a moment of the scrape. -/
def Loaded (history : List (Recording F)) (as : List (Interaction.Act (Recording F)))
    (field : MetricsField) (reply : field.Reply F) : Prop :=
  ∃ before, before <+: recordings as ∧ reply = (after (history ++ before)).read field

omit [LinearOrder F] in
theorem explained {α : Type} {p : Scraper F α} {a : α}
    {v : Metrics F × Interaction.Client MetricsField (MetricsField.Reply F) Empty α}
    (h : Interaction.run component (after history, .running p) as = some v)
    (ha : v.2.result = some a) : p.Explained (Loaded history as) a := by
  have hexplained := Interaction.explained_of_run
    (J := fun H field reply => ∃ u ∈ H, reply = read u field) ?_ ?_ h ha
  · refine hexplained.mono fun field reply hreply => ?_
    obtain ⟨u, hu, rfl⟩ := hreply
    obtain ⟨bs, client, hbs, hrun⟩ := Interaction.exists_run_of_mem_moments hu
    exact ⟨recordings bs, hbs.filterMap _, by rw [← state_of_run hrun]⟩
  · intro H H' hsub field reply hreply
    obtain ⟨u, hu, hreply⟩ := hreply
    exact ⟨u, hsub.subset hu, hreply⟩
  · intro field next s as reply u cs hanswered
    obtain ⟨bs, rfl, hrun⟩ := hanswered.run next
    refine ⟨u, Interaction.mem_moments hrun cs, ?_⟩
    cases hanswered with
    | atOnce _ _ _ _ hb =>
      obtain ⟨rfl, hreply⟩ := Prod.mk.inj hb
      exact (Sum.inr.inj hreply).symm
    | later _ _ _ _ ticket => exact ticket.elim

def part (snapshot : MetricsSnapshot) (findTarget lastActivity : Summary F) :
    (field : MetricsField) → field.Reply F
  | .counter .apiRouteGet => snapshot.apiRouteGet
  | .counter .apiRouteAdd => snapshot.apiRouteAdd
  | .counter .apiRouteDelete => snapshot.apiRouteDelete
  | .counter .requestsWs => snapshot.requestsWs
  | .counter .requestsWeb => snapshot.requestsWeb
  | .counter .activityPersistenceFailures => snapshot.activityPersistenceFailures
  | .counter .activityDropped => snapshot.activityDropped
  | .statuses .requestsApi => snapshot.requestsApi
  | .statuses .requestsProxy => snapshot.requestsProxy
  | .summary .findTargetForReq => findTarget
  | .summary .lastActivityUpdating => lastActivity

theorem explained_renderPrometheus {result : Option String}
    (h : (renderPrometheus R display).Explained (Loaded history as) result) :
    ∃ snapshot findTarget lastActivity,
      result = renderBody R display snapshot findTarget lastActivity ∧
      ∀ field, Loaded history as field (part snapshot findTarget lastActivity field) := by
  obtain ⟨requestsApi, hapi, requestsProxy, hproxy, apiRouteGet, hget, apiRouteAdd, hadd,
    apiRouteDelete, hdelete, requestsWs, hws, requestsWeb, hweb, failures, hfailures, dropped,
    hdropped, findTarget, hfind, lastActivity, hlast, rfl⟩ := h
  refine ⟨⟨requestsApi, requestsProxy, apiRouteGet, apiRouteAdd, apiRouteDelete, requestsWs,
    requestsWeb, failures, dropped⟩, findTarget, lastActivity, rfl, fun field => ?_⟩
  cases field with
  | counter name => cases name <;> assumption
  | statuses name => cases name <;> assumption
  | summary name => cases name <;> assumption

def printed : List (MetricsField × String) :=
  [(.counter .apiRouteGet, "Count of API route get requests"),
    (.counter .apiRouteAdd, "Count of API route add requests"),
    (.counter .apiRouteDelete, "Count of API route delete requests"),
    (.summary .findTargetForReq, "Summary of find target requests"),
    (.summary .lastActivityUpdating, "Summary of last activity updating requests"),
    (.counter .requestsWs, "Count of websocket requests"),
    (.counter .requestsWeb, "Count of web requests"),
    (.statuses .requestsProxy, "Count of proxy requests"),
    (.statuses .requestsApi, "Count of API requests")]

def family (R : Rounding (2 ^ 53)) (display : F → String)
    (values : (field : MetricsField) → field.Reply F) :
    MetricsField × String → Exposition.Family
  | (.counter name, help) => counterFamily (name.label?.getD "") help (values (.counter name))
  | (.statuses name, help) => statusFamily name.label help (values (.statuses name))
  | (.summary name, help) => summaryFamily R display name.label help (values (.summary name))

theorem mem_family {values : (field : MetricsField) → field.Reply F}
    {seen : MetricsField → List (Recording F)}
    (hvalues : ∀ field, values field = (after (seen field)).read field)
    {sample : List Char × List Char} {entry : MetricsField × String} (hentry : entry ∈ printed) :
    sample ∈ (family R display values entry).samples ↔
      Shows R display (seen entry.1) entry.1 sample := by
  obtain ⟨field, help⟩ := entry
  cases field with
  | counter name =>
    obtain ⟨label, hlabel⟩ : ∃ label, name.label? = some label := by
      simp only [printed, List.mem_cons, Prod.mk.injEq, MetricsField.counter.injEq] at hentry
      cases name <;> simp [CounterName.label?] at hentry ⊢
    dsimp only [family]
    rw [hlabel, Option.getD_some, hvalues]
    exact mem_counterFamily hlabel help
  | statuses name =>
    dsimp only [family]
    rw [hvalues]
    exact mem_statusFamily name help
  | summary name =>
    dsimp only [family]
    rw [hvalues]
    exact mem_summaryFamily name help

theorem exists_printed {field : MetricsField} {sample : List Char × List Char}
    (h : Shows R display history field sample) : ∃ help, (field, help) ∈ printed := by
  cases h with
  | @counter name label h => cases name <;> simp [printed, CounterName.label?] at h ⊢
  | @status name => cases name <;> simp [printed]
  | @quantile name => cases name <;> simp [printed]
  | @sum name => cases name <;> simp [printed]
  | @count name => cases name <;> simp [printed]

/-- However the other threads record meanwhile, a scrape is done after eleven steps of its own and
never panics. A reader finds no series twice in the text, and finds exactly the samples that every
field had at a moment of the scrape, which is one moment for all samples of the field. -/
theorem scrape_reads_back
    (hdisplay : ∀ x, ' ' ∉ (display x).toList ∧ '\n' ∉ (display x).toList)
    {v : Metrics F × Interaction.Client MetricsField (MetricsField.Reply F) Empty (Option String)}
    (h : Interaction.run component (after history, .running (renderPrometheus R display)) as =
      some v) :
    (as.countP Interaction.Act.isOwn = 11 → v.2.result ≠ none) ∧
    ∀ result, v.2.result = some result → ∃ text, result = some text ∧
      ((Exposition.read text.toList).map Prod.fst).Nodup ∧
      ∃ seen : MetricsField → List (Recording F),
        (∀ field, ∃ before, before <+: recordings as ∧ seen field = history ++ before) ∧
        ∀ sample, sample ∈ Exposition.read text.toList ↔
          ∃ field, Shows R display (seen field) field sample := by
  refine ⟨fun hn => ?_, fun result hresult => ?_⟩
  · refine Interaction.result_of_calls (fun _ _ => rfl) ?_ h hn
    exact fun _ _ _ _ _ _ _ _ _ _ _ => trivial
  · obtain ⟨snapshot, findTarget, lastActivity, rfl, hloaded⟩ :=
      explained_renderPrometheus (explained h hresult)
    choose before hbefore hvalues using hloaded
    have hrecent : ∀ name, (part snapshot findTarget lastActivity (.summary name)).recent.length ≤
        summaryWindowCapacity := by
      intro name
      rw [hvalues]
      exact length_recent_after _ name
    obtain ⟨text, htext, hlines⟩ := renderBody_eq R display snapshot (hrecent .findTargetForReq)
      (hrecent .lastActivityUpdating)
    have hplain := families_plain hdisplay (R := R) snapshot findTarget lastActivity
    have hread : Exposition.read text.toList =
        (families R display snapshot findTarget lastActivity).flatMap Exposition.Family.samples := by
      rw [hlines]
      exact Exposition.read_families hplain
    have hfamilies : families R display snapshot findTarget lastActivity =
        printed.map (family R display (part snapshot findTarget lastActivity)) := rfl
    refine ⟨text, htext, ?_, fun field => history ++ before field,
      fun field => ⟨before field, hbefore field, rfl⟩, fun sample => ?_⟩
    · rw [hread]
      exact Exposition.nodup_series hplain
        (families_names R display snapshot findTarget lastActivity)
    · rw [hread, hfamilies, List.flatMap_map, List.mem_flatMap]
      constructor
      · rintro ⟨entry, hentry, hsample⟩
        exact ⟨entry.1, (mem_family hvalues hentry).mp hsample⟩
      · rintro ⟨field, hshows⟩
        obtain ⟨help, hentry⟩ := exists_printed hshows
        exact ⟨(field, help), hentry, (mem_family hvalues hentry).mpr hshows⟩

/-- Arithmetic on whole seconds is exact. -/
def wholeSeconds : Rounding (2 ^ 53) := ⟨id, monotone_id, fun _ _ => rfl⟩

def recorded : List (Recording ℕ) := [.webRequest, .findTarget 2, .proxyRequest 200]

/-- A route is added between the fourth and the fifth step of the scrape. -/
def scraping : List (Interaction.Act (Recording ℕ)) :=
  List.replicate 4 .own ++ .others .apiRouteAdd :: List.replicate 7 .own

theorem scrape_reads_back_adding : ∃ v text,
    Interaction.run component (after recorded, .running (renderPrometheus wholeSeconds Nat.repr))
      scraping = some v ∧ v.2.result = some (some text) ∧
    ((Exposition.read text.toList).map Prod.fst).Nodup ∧
    ("requests_web".toList, "1".toList) ∈ Exposition.read text.toList ∧
    ("find_target_for_req_sum".toList, "2".toList) ∈ Exposition.read text.toList := by
  obtain ⟨v, hrun⟩ : ∃ v, Interaction.run component
      (after recorded, .running (renderPrometheus wholeSeconds Nat.repr)) scraping = some v :=
    ⟨_, rfl⟩
  obtain ⟨hdone, hresults⟩ := scrape_reads_back repr_plain hrun
  obtain ⟨result, hresult⟩ := Option.ne_none_iff_exists'.mp (hdone rfl)
  obtain ⟨text, rfl, hnodup, seen, hseen, hsamples⟩ := hresults result hresult
  have hmoment : ∀ field, seen field = recorded ∨ seen field = recorded ++ [.apiRouteAdd] := by
    intro field
    obtain ⟨before, hbefore, heq⟩ := hseen field
    rw [heq]
    cases before with
    | nil => exact .inl (List.append_nil _)
    | cons r rest =>
      obtain ⟨rfl, hrest⟩ := List.cons_prefix_cons.mp hbefore
      obtain rfl := List.prefix_nil.mp hrest
      exact .inr rfl
  refine ⟨v, text, hrun, hresult, hnodup, (hsamples _).mpr ⟨.counter .requestsWeb, ?_⟩,
    (hsamples _).mpr ⟨.summary .findTargetForReq, ?_⟩⟩
  · rcases hmoment (.counter .requestsWeb) with heq | heq <;> rw [heq] <;> exact .counter rfl
  · rcases hmoment (.summary .findTargetForReq) with heq | heq <;> rw [heq] <;> exact .sum

end Metrics

end ChpProxy
