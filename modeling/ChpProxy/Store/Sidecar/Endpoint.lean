import ChpProxy.Api.Percent
import ChpProxy.Lib.Whatwg
import ChpProxy.Store.Sidecar.Wire

/-! The endpoints of a route: its key is one segment of the path, which says what the key is. -/
namespace ChpProxy.SidecarStore

/-- The characters of a segment that stand for themselves. -/
def isSegmentLiteral (c : Char) : Bool := c.isAlphanum || "-._~".toList.contains c

theorem plain_isUnreserved : Percent.Plain isUnreserved :=
  Percent.plain_of_forall (by decide +kernel)

theorem toList_encodeSegment (raw : String) :
    (encodeSegment raw).toList = Percent.encode isUnreserved (Api.asBytes raw) := by
  rw [encodeSegment, String.toList_ofList]
  rfl

theorem percentDecode_encodeSegment (raw : String) :
    Api.percentDecode (encodeSegment raw).toList = some raw := by
  rw [toList_encodeSegment]
  exact Api.percentDecode_encode plain_isUnreserved raw

theorem encodeSegment_injective : Function.Injective encodeSegment := by
  intro raw raw' h
  have hdecoded := percentDecode_encodeSegment raw
  rw [h, percentDecode_encodeSegment] at hdecoded
  exact (Option.some.inj hdecoded).symm

theorem spelled_encodeSegment (raw : String) :
    Percent.Spelled isSegmentLiteral (encodeSegment raw).toList := by
  rw [toList_encodeSegment]
  exact Percent.spelled_encode (fun _ h => h) _

theorem slash_not_mem_encodeSegment (raw : String) : '/' ∉ (encodeSegment raw).toList := by
  intro hmem
  have hne := (spelled_encodeSegment raw).forall_mem (P := (· ≠ '/')) ?_ (by decide) _ hmem
  · exact absurd hne (by decide)
  · intro c hc
    rw [decide_eq_true_eq]
    rintro rfl
    exact absurd hc (by decide)

theorem encodeSegment_key (key : RouteKey) :
    ∃ rest, (encodeSegment key.asStr).toList = '%' :: '2' :: 'F' :: rest := by
  obtain ⟨rest, hrest⟩ := List.head?_eq_some_iff.mp key.rooted
  refine ⟨Percent.encode isUnreserved (Utf8.encode rest), ?_⟩
  rw [toList_encodeSegment, Api.asBytes_eq_encode]
  change Percent.encode isUnreserved (Utf8.encode key.text.toList) = _
  rw [hrest, Utf8.encode_cons]
  rfl

/-- A key begins with a slash, so its segment is not made of dots. -/
theorem isDot_encodeSegment (key : RouteKey) :
    Whatwg.isDot (encodeSegment key.asStr).toList = false := by
  obtain ⟨rest, hrest⟩ := encodeSegment_key key
  rw [hrest]
  have hlower : ('%' :: '2' :: 'F' :: rest).map Char.toLower =
      '%' :: '2' :: 'f' :: rest.map Char.toLower := rfl
  simp [Whatwg.isDot, Whatwg.isSingleDot, Whatwg.isDoubleDot, hlower]

/-! Paths. -/

def routeSuffixes : List String := ["", "/activity"]

def routePath (key : RouteKey) (suffix : String) : String :=
  "v1/routes/" ++ encodeSegment key.asStr ++ suffix

def routeSegments (key : RouteKey) (suffix : String) : List (List Char) :=
  ["v1".toList, "routes".toList, (encodeSegment key.asStr).toList] ++
    if suffix = "" then [] else ["activity".toList]

theorem toList_routePath (key : RouteKey) {suffix : String} (h : suffix ∈ routeSuffixes) :
    (routePath key suffix).toList = ['/'].intercalate (routeSegments key suffix) := by
  rw [routePath, String.toList_append, String.toList_append]
  rcases List.mem_pair.mp h with rfl | rfl
  · simp [routeSegments, List.intercalate]
  · simp [routeSegments, List.intercalate]

theorem forall_routeSegments {key : RouteKey} {suffix : String} {P : List Char → Prop}
    (hfixed : ∀ segment ∈ ["v1".toList, "routes".toList, "activity".toList], P segment)
    (hkey : P (encodeSegment key.asStr).toList) : ∀ segment ∈ routeSegments key suffix, P segment := by
  intro segment hsegment
  rw [routeSegments, List.mem_append] at hsegment
  rcases hsegment with hsegment | hsegment
  · rcases List.mem_cons.mp hsegment with rfl | hsegment
    · exact hfixed _ (by decide)
    rcases List.mem_pair.mp hsegment with rfl | rfl
    · exact hfixed _ (by decide)
    · exact hkey
  · split_ifs at hsegment
    · cases hsegment
    · rw [List.mem_singleton.mp hsegment]
      exact hfixed _ (by decide)

/-- The key is exactly one segment of the path. -/
theorem splitOn_routePath (key : RouteKey) {suffix : String} (h : suffix ∈ routeSuffixes) :
    (routePath key suffix).toList.splitOn '/' = routeSegments key suffix := by
  rw [toList_routePath key h]
  apply List.splitOn_intercalate
  · exact forall_routeSegments (by decide) (slash_not_mem_encodeSegment key.asStr)
  · exact List.cons_ne_nil _ _

theorem routePath_injective {key key' : RouteKey} {suffix suffix' : String}
    (hsuffix : suffix ∈ routeSuffixes) (hsuffix' : suffix' ∈ routeSuffixes)
    (h : routePath key suffix = routePath key' suffix') : key = key' ∧ suffix = suffix' := by
  have hsegments : routeSegments key suffix = routeSegments key' suffix' := by
    rw [← splitOn_routePath key hsuffix, ← splitOn_routePath key' hsuffix', h]
  obtain ⟨hkey, hrest⟩ := List.append_inj hsegments rfl
  constructor
  · have htext : (encodeSegment key.asStr).toList = (encodeSegment key'.asStr).toList := by
      simpa using hkey
    have hkeys := encodeSegment_injective (String.toList_injective htext)
    cases key
    cases key'
    congr
  · rcases List.mem_pair.mp hsuffix with rfl | rfl
    · rcases List.mem_pair.mp hsuffix' with rfl | rfl
      · rfl
      · cases hrest
    · rcases List.mem_pair.mp hsuffix' with rfl | rfl
      · cases hrest
      · rfl

/-- `Url::join` appends a path of plain segments to a base that ends in its root. -/
def JoinsTo (join : String → Option String) (base : String) : Prop :=
  ∀ relative : String, (∀ segment ∈ relative.toList.splitOn '/', segment ≠ [] ∧
    Percent.Spelled isSegmentLiteral segment ∧ Whatwg.isDot segment = false) →
    join relative = some (base ++ relative)

theorem spelled_of_all {text : List Char} (h : text.all isSegmentLiteral = true) :
    Percent.Spelled isSegmentLiteral text := by
  induction text with
  | nil => exact .nil
  | cons c text ih =>
    rw [List.all_cons, Bool.and_eq_true] at h
    exact .literal h.1 (ih h.2)

theorem routeEndpoint_eq {store : SidecarStore} {base : String} (hjoin : JoinsTo store.join base)
    (key : RouteKey) {suffix : String} (hsuffix : suffix ∈ routeSuffixes) :
    store.routeEndpoint key suffix = .ok (base ++ routePath key suffix) := by
  have hplain : ∀ segment ∈ (routePath key suffix).toList.splitOn '/', segment ≠ [] ∧
      Percent.Spelled isSegmentLiteral segment ∧ Whatwg.isDot segment = false := by
    rw [splitOn_routePath key hsuffix]
    apply forall_routeSegments
    · have hfixed : ∀ segment ∈ ["v1".toList, "routes".toList, "activity".toList], segment ≠ [] ∧
          segment.all isSegmentLiteral = true ∧ Whatwg.isDot segment = false := by
        decide
      intro segment hsegment
      obtain ⟨hne, hall, hdot⟩ := hfixed segment hsegment
      exact ⟨hne, spelled_of_all hall, hdot⟩
    · obtain ⟨rest, hrest⟩ := encodeSegment_key key
      refine ⟨?_, spelled_encodeSegment _, isDot_encodeSegment key⟩
      rw [hrest]
      exact List.cons_ne_nil _ _
  change (store.join (routePath key suffix)).elim _ _ = _
  rw [hjoin _ hplain]
  rfl

end ChpProxy.SidecarStore
