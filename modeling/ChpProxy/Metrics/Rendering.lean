import ChpProxy.Lib.Exposition
import ChpProxy.Lib.Radix
import ChpProxy.Metrics.Counters

/-! How `metrics.rs` prints what it has read, and that the text has nine families of samples in it
which a reader gets back. -/
namespace ChpProxy

structure MetricsSnapshot where
  requestsApi : Std.ExtTreeMap ℕ UInt64
  requestsProxy : Std.ExtTreeMap ℕ UInt64
  apiRouteGet : UInt64
  apiRouteAdd : UInt64
  apiRouteDelete : UInt64
  requestsWs : UInt64
  requestsWeb : UInt64
  activityPersistenceFailures : UInt64
  activityDropped : UInt64

def renderCounter (body name help : String) (value : UInt64) : String :=
  body ++ s!"# HELP {name} {help}\n# TYPE {name} counter\n{name} {value}\n\n"

def renderStatusCounter (body name help : String) (values : Std.ExtTreeMap ℕ UInt64) : String :=
  let body := body ++ s!"# HELP {name} {help}\n# TYPE {name} counter\n"
  let body := values.toList.foldl (fun body entry =>
    let (status, value) := entry
    body ++ s!"{name}\x7bstatus=\"{status}\"\x7d {value}\n") body
  body.push '\n'

section Rendering

variable {F : Type} [LinearOrder F] [Zero F] (R : Rounding (2 ^ 53)) (display : F → String)

/-- The loop body of `render_summary`; there is no text if a quantile panics. -/
def renderQuantile (name : String) (summary : Summary F) (body : String) (quantile : String × ℚ) :
    Option String := do
  let label := quantile.1
  let value := display (← summary.quantile R quantile.2)
  return body ++ s!"{name}\x7bquantile=\"{label}\"\x7d {value}\n"

def renderSummary (body name help : String) (summary : Summary F) : Option String := do
  let body := body ++ s!"# HELP {name} {help}\n# TYPE {name} summary\n"
  let body ← summaryQuantiles.foldlM (renderQuantile R display name summary) body
  let sum := display summary.sum
  let count := summary.count
  return body ++ s!"{name}_sum {sum}\n{name}_count {count}\n\n"

def renderBody (snapshot : MetricsSnapshot) (findTarget lastActivity : Summary F) :
    Option String := do
  let body := ""
  let body := renderCounter body "api_route_get" "Count of API route get requests"
    snapshot.apiRouteGet
  let body := renderCounter body "api_route_add" "Count of API route add requests"
    snapshot.apiRouteAdd
  let body := renderCounter body "api_route_delete" "Count of API route delete requests"
    snapshot.apiRouteDelete
  let body ← renderSummary R display body "find_target_for_req" "Summary of find target requests"
    findTarget
  let body ← renderSummary R display body "last_activity_updating"
    "Summary of last activity updating requests" lastActivity
  let body := renderCounter body "requests_ws" "Count of websocket requests" snapshot.requestsWs
  let body := renderCounter body "requests_web" "Count of web requests" snapshot.requestsWeb
  let body := renderStatusCounter body "requests_proxy" "Count of proxy requests"
    snapshot.requestsProxy
  return renderStatusCounter body "requests_api" "Count of API requests" snapshot.requestsApi

end Rendering

def counterFamily (name help : String) (value : UInt64) : Exposition.Family :=
  ⟨name.toList, help.toList, "counter".toList, [(name.toList, value.toNat.repr.toList)]⟩

def statusSeries (name : String) (status : ℕ) : String := s!"{name}\x7bstatus=\"{status}\"\x7d"

def quantileSeries (name label : String) : String := s!"{name}\x7bquantile=\"{label}\"\x7d"

def statusFamily (name help : String) (values : Std.ExtTreeMap ℕ UInt64) : Exposition.Family :=
  ⟨name.toList, help.toList, "counter".toList, values.toList.map fun entry =>
    ((statusSeries name entry.1).toList, entry.2.toNat.repr.toList)⟩

def summaryFamily {F : Type} [LinearOrder F] [Zero F] (R : Rounding (2 ^ 53)) (display : F → String)
    (name help : String) (summary : Summary F) : Exposition.Family :=
  ⟨name.toList, help.toList, "summary".toList,
    summaryQuantiles.map (fun quantile => ((quantileSeries name quantile.1).toList,
      (display (rank R summary.recent quantile.2)).toList)) ++
    [(s!"{name}_sum".toList, (display summary.sum).toList),
      (s!"{name}_count".toList, summary.count.repr.toList)]⟩

theorem renderCounter_eq (body name help : String) (value : UInt64) :
    (renderCounter body name help value).toList =
      body.toList ++ Exposition.render (counterFamily name help value).lines := by
  rw [Exposition.Family.render_lines]
  simp [renderCounter, counterFamily, toString]

theorem renderStatusCounter_eq (body name help : String) (values : Std.ExtTreeMap ℕ UInt64) :
    (renderStatusCounter body name help values).toList =
      body.toList ++ Exposition.render (statusFamily name help values).lines := by
  rw [Exposition.Family.render_lines]
  unfold renderStatusCounter
  simp only [String.toList_push, Text.toList_foldl_append]
  simp [statusFamily, statusSeries, toString, List.flatMap_map]

section

variable {F : Type} [LinearOrder F] [Zero F] (R : Rounding (2 ^ 53)) (display : F → String)

theorem foldlM_renderQuantile (name : String) {summary : Summary F}
    (hrecent : summary.recent.length ≤ summaryWindowCapacity) {quantiles : List (String × ℚ)}
    (hone : ∀ q ∈ quantiles, q.2 ≤ 1) (body : String) :
    quantiles.foldlM (renderQuantile R display name summary) body =
      some (quantiles.foldl (fun body quantile => body ++ (quantileSeries name quantile.1 ++ " " ++
        display (rank R summary.recent quantile.2) ++ "\n")) body) := by
  induction quantiles generalizing body with
  | nil => rfl
  | cons quantile quantiles ih =>
    obtain ⟨hq, hrest⟩ := List.forall_mem_cons.mp hone
    have hbody : renderQuantile R display name summary body quantile =
        some (body ++ (quantileSeries name quantile.1 ++ " " ++
          display (rank R summary.recent quantile.2) ++ "\n")) := by
      unfold renderQuantile
      rw [summary.quantile_eq_rank R hrecent hq]
      simp [quantileSeries, toString, String.append_assoc]
    rw [List.foldlM_cons, hbody]
    exact ih hrest _

theorem renderSummary_eq (body name help : String) {summary : Summary F}
    (hrecent : summary.recent.length ≤ summaryWindowCapacity) :
    ∃ text, renderSummary R display body name help summary = some text ∧
      text.toList = body.toList ++
        Exposition.render (summaryFamily R display name help summary).lines := by
  have hone : ∀ q ∈ summaryQuantiles, q.2 ≤ 1 := by
    unfold summaryQuantiles
    norm_num
  unfold renderSummary
  dsimp only
  rw [foldlM_renderQuantile R display name hrecent hone]
  refine ⟨_, rfl, ?_⟩
  rw [Exposition.Family.render_lines]
  simp only [String.toList_append, Text.toList_foldl_append]
  simp [summaryFamily, toString, List.flatMap_map]

def families (snapshot : MetricsSnapshot) (findTarget lastActivity : Summary F) :
    List Exposition.Family :=
  [counterFamily "api_route_get" "Count of API route get requests" snapshot.apiRouteGet,
    counterFamily "api_route_add" "Count of API route add requests" snapshot.apiRouteAdd,
    counterFamily "api_route_delete" "Count of API route delete requests" snapshot.apiRouteDelete,
    summaryFamily R display "find_target_for_req" "Summary of find target requests" findTarget,
    summaryFamily R display "last_activity_updating" "Summary of last activity updating requests"
      lastActivity,
    counterFamily "requests_ws" "Count of websocket requests" snapshot.requestsWs,
    counterFamily "requests_web" "Count of web requests" snapshot.requestsWeb,
    statusFamily "requests_proxy" "Count of proxy requests" snapshot.requestsProxy,
    statusFamily "requests_api" "Count of API requests" snapshot.requestsApi]

theorem renderBody_eq (snapshot : MetricsSnapshot) {findTarget lastActivity : Summary F}
    (hfind : findTarget.recent.length ≤ summaryWindowCapacity)
    (hlast : lastActivity.recent.length ≤ summaryWindowCapacity) :
    ∃ text, renderBody R display snapshot findTarget lastActivity = some text ∧
      text.toList = Exposition.render
        ((families R display snapshot findTarget lastActivity).flatMap Exposition.Family.lines) := by
  unfold renderBody
  dsimp only
  obtain ⟨first, hfirst, hfirst'⟩ := renderSummary_eq R display
    (renderCounter (renderCounter (renderCounter "" "api_route_get"
      "Count of API route get requests" snapshot.apiRouteGet) "api_route_add"
      "Count of API route add requests" snapshot.apiRouteAdd) "api_route_delete"
      "Count of API route delete requests" snapshot.apiRouteDelete)
    "find_target_for_req" "Summary of find target requests" hfind
  obtain ⟨second, hsecond, hsecond'⟩ := renderSummary_eq R display first "last_activity_updating"
    "Summary of last activity updating requests" hlast
  rw [hfirst, Option.bind_eq_bind, Option.bind_some, hsecond, Option.bind_some]
  refine ⟨_, rfl, ?_⟩
  rw [Exposition.render_families]
  simp [renderCounter_eq, renderStatusCounter_eq, hsecond', hfirst', families]

end

/-- A name and a help text that can stand in the exposition. -/
def Nameable (name help : String) : Prop :=
  name.toList ≠ [] ∧ name.toList.head? ≠ some '#' ∧ '\n' ∉ name.toList ∧ '\n' ∉ help.toList

instance (name help : String) : Decidable (Nameable name help) := by
  unfold Nameable
  infer_instance

theorem repr_plain (n : ℕ) : ' ' ∉ n.repr.toList ∧ '\n' ∉ n.repr.toList :=
  ⟨Text.not_mem_repr (by decide) n, Text.not_mem_repr (by decide) n⟩

theorem counterFamily_plain {name help : String} (h : Nameable name help) (value : UInt64) :
    (counterFamily name help value).Plain := by
  obtain ⟨hne, hhash, hname, hhelp⟩ := h
  have hkind : '\n' ∉ "counter".toList := by decide
  refine ⟨hne, hhash, hname, hhelp, hkind, ?_, ?_, List.nodup_singleton _⟩
  · intro s hs
    obtain rfl := List.mem_singleton.mp hs
    exact ⟨List.prefix_rfl, hname⟩
  · intro s hs
    obtain rfl := List.mem_singleton.mp hs
    exact repr_plain _

theorem statusSeries_injective (name : String) :
    Function.Injective fun status => (statusSeries name status).toList := by
  intro status status' h
  simp only [statusSeries, String.toList_append, List.append_assoc, List.append_cancel_left_eq,
    List.append_cancel_right_eq, toString] at h
  exact Radix.repr_inj h

theorem statusFamily_plain {name help : String} (h : Nameable name help)
    (values : Std.ExtTreeMap ℕ UInt64) : (statusFamily name help values).Plain := by
  obtain ⟨hne, hhash, hname, hhelp⟩ := h
  have hkind : '\n' ∉ "counter".toList := by decide
  refine ⟨hne, hhash, hname, hhelp, hkind, ?_, ?_, ?_⟩
  · intro s hs
    obtain ⟨entry, -, rfl⟩ := List.mem_map.mp hs
    have hrepr := (repr_plain entry.1).2
    exact ⟨by simp [statusFamily, statusSeries, toString], by
      simp [statusSeries, toString, hname] at hrepr ⊢
      exact hrepr⟩
  · intro s hs
    obtain ⟨entry, -, rfl⟩ := List.mem_map.mp hs
    exact repr_plain _
  · have hkeys : (statusFamily name help values).samples.map Prod.fst =
        values.keys.map fun status => (statusSeries name status).toList := by
      rw [← Std.ExtTreeMap.map_fst_toList_eq_keys, List.map_map]
      exact List.map_map ..
    rw [hkeys]
    exact Std.ExtTreeMap.nodup_keys.map (statusSeries_injective name)

theorem summaryFamily_plain {F : Type} [LinearOrder F] [Zero F] {R : Rounding (2 ^ 53)}
    {display : F → String} (hdisplay : ∀ x, ' ' ∉ (display x).toList ∧ '\n' ∉ (display x).toList)
    {name help : String} (h : Nameable name help) (summary : Summary F) :
    (summaryFamily R display name help summary).Plain := by
  obtain ⟨hne, hhash, hname, hhelp⟩ := h
  have hkind : '\n' ∉ "summary".toList := by decide
  -- the series are the name with one of nine endings
  have hseries : (summaryFamily R display name help summary).samples.map Prod.fst =
      (summaryQuantiles.map (fun q => "\x7bquantile=\"".toList ++ q.1.toList ++ "\"\x7d".toList) ++
        ["_sum".toList, "_count".toList]).map (name.toList ++ ·) := by
    simp [summaryFamily, quantileSeries, summaryQuantiles, toString]
  refine ⟨hne, hhash, hname, hhelp, hkind, ?_, ?_, ?_⟩
  · intro s hs
    have hmem := List.mem_map_of_mem (f := Prod.fst) hs
    rw [hseries] at hmem
    obtain ⟨ending, hending, heq⟩ := List.mem_map.mp hmem
    rw [← heq]
    refine ⟨List.prefix_append _ _, ?_⟩
    have hplain : ∀ ending ∈ summaryQuantiles.map (fun q => "\x7bquantile=\"".toList ++
        q.1.toList ++ "\"\x7d".toList) ++ ["_sum".toList, "_count".toList], '\n' ∉ ending := by
      decide
    simp [hname, hplain ending hending]
  · intro s hs
    rcases List.mem_append.mp hs with hs | hs
    · obtain ⟨q, -, rfl⟩ := List.mem_map.mp hs
      exact hdisplay _
    · simp only [List.mem_cons, List.not_mem_nil, or_false] at hs
      rcases hs with rfl | rfl
      · exact hdisplay _
      · exact repr_plain _
  · rw [hseries]
    exact List.Nodup.map (List.append_right_injective _) (by decide)

theorem families_plain {F : Type} [LinearOrder F] [Zero F] {R : Rounding (2 ^ 53)}
    {display : F → String} (hdisplay : ∀ x, ' ' ∉ (display x).toList ∧ '\n' ∉ (display x).toList)
    (snapshot : MetricsSnapshot) (findTarget lastActivity : Summary F) :
    ∀ f ∈ families R display snapshot findTarget lastActivity, f.Plain := by
  simp only [families, List.forall_mem_cons, List.not_mem_nil, false_imp_iff, implies_true, and_true]
  exact ⟨counterFamily_plain (by decide) _, counterFamily_plain (by decide) _,
    counterFamily_plain (by decide) _, summaryFamily_plain hdisplay (by decide) _,
    summaryFamily_plain hdisplay (by decide) _, counterFamily_plain (by decide) _,
    counterFamily_plain (by decide) _, statusFamily_plain (by decide) _,
    statusFamily_plain (by decide) _⟩

theorem families_names {F : Type} [LinearOrder F] [Zero F] (R : Rounding (2 ^ 53))
    (display : F → String) (snapshot : MetricsSnapshot) (findTarget lastActivity : Summary F) :
    (families R display snapshot findTarget lastActivity).Pairwise fun f g =>
      ¬f.name <+: g.name ∧ ¬g.name <+: f.name := by
  refine List.pairwise_map (f := Exposition.Family.name) (R := fun f g => ¬f <+: g ∧ ¬g <+: f)
    |>.mp ?_
  change (["api_route_get", "api_route_add", "api_route_delete", "find_target_for_req",
    "last_activity_updating", "requests_ws", "requests_web", "requests_proxy",
    "requests_api"].map String.toList).Pairwise fun f g => ¬f <+: g ∧ ¬g <+: f
  decide

end ChpProxy
