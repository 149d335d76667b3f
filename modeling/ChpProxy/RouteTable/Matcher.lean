import ChpProxy.Lib.PrefixTree
import ChpProxy.RouteTable.Ordered

/-! Immutable, segment-indexed route matching. The matcher is a prefix tree rebuilt from the
ordered routes; its meaning is a linear scan for the longest matching key. -/
namespace ChpProxy

def trimMatches (path : List Char) : List Char :=
  ((path.dropWhile (· = '/')).reverse.dropWhile (· = '/')).reverse

/-- Interior empty segments are kept; an all-slash path has no segments. -/
def segments (path : String) : List String :=
  let path := trimMatches path.toList
  if path.isEmpty then [] else (path.splitOn '/').map String.ofList

example : segments "//a//b/" = ["a", "", "b"] ∧ segments "//" = [] := by decide

structure RouteMatch where
  key : RouteKey
  data : RouteData
  deriving DecidableEq

abbrev Node := PrefixTree.Node String RouteMatch

structure RouteSnapshot where
  root : Node
  routes : OrderedRoutes

namespace RouteSnapshot

/-- Keys are inserted in mutation order, so aliases overwrite each other. A key without a
record would trip the source's `debug_assert` and is skipped. -/
def fromOrderedRoutes (routes : OrderedRoutes) : RouteSnapshot where
  root := routes.mutationOrder.foldl
    (fun root key =>
      match routes.byKey[key]? with
      | some data => root.insert (segments key.asStr) ⟨key, data⟩
      | none => root)
    .empty
  routes := routes

def fromRoutes (routes : RouteMap) : RouteSnapshot :=
  fromOrderedRoutes (OrderedRoutes.fromSorted routes)

/-- Clone the routes, edit the clone and rebuild the matcher. -/
def edited (s : RouteSnapshot) (e : RouteEdit) : RouteSnapshot :=
  fromOrderedRoutes (e.apply s.routes)

def resolve (s : RouteSnapshot) (requestPath : String) : Option RouteMatch :=
  s.root.deepest (segments requestPath)

/-- The tree holds what inserting the stored records one by one would give. -/
theorem root_fromOrderedRoutes (r : OrderedRoutes) :
    (fromOrderedRoutes r).root = PrefixTree.Node.build (r.mutationOrder.filterMap fun key =>
      (r.byKey[key]?).map fun data => (segments key.asStr, RouteMatch.mk key data)) := by
  rw [PrefixTree.Node.build, List.foldl_filterMap]
  change List.foldl _ _ _ = _
  congr 1
  funext root key
  cases r.byKey[key]? <;> rfl

/-- `key` is the latest key of `order` that has a record and the given segments. -/
def LatestAt (order : List RouteKey) (byKey : RouteMap) (path : List String)
    (m : RouteMatch) : Prop :=
  m.key ∈ order ∧ byKey[m.key]? = some m.data ∧ segments m.key.asStr = path ∧
    ∀ k ∈ order, k ∈ byKey → segments k.asStr = path → order.idxOf k ≤ order.idxOf m.key

private theorem latestAt_append_of_not {l : List RouteKey} {key : RouteKey}
    {byKey : RouteMap} {path : List String} (hnot : key ∈ byKey → segments key.asStr ≠ path)
    (m : RouteMatch) : LatestAt (l ++ [key]) byKey path m ↔ LatestAt l byKey path m := by
  have hfront : ∀ k ∈ l, (l ++ [key]).idxOf k = l.idxOf k := fun k hk =>
    List.idxOf_append_of_mem hk
  constructor
  · rintro ⟨hm, hd, hs, hmax⟩
    have hmem : m.key ∈ l := by
      rcases List.mem_append.mp hm with h | h
      · exact h
      · rw [List.mem_singleton.mp h] at hd hs
        exact absurd hs (hnot (by simp [Std.ExtTreeMap.mem_iff_isSome_getElem?, hd]))
    refine ⟨hmem, hd, hs, fun k hk hkb hks => ?_⟩
    have h := hmax k (List.mem_append_left _ hk) hkb hks
    rwa [hfront k hk, hfront _ hmem] at h
  · rintro ⟨hm, hd, hs, hmax⟩
    refine ⟨List.mem_append_left _ hm, hd, hs, fun k hk hkb hks => ?_⟩
    rcases List.mem_append.mp hk with h | h
    · rw [hfront k h, hfront _ hm]
      exact hmax k h hkb hks
    · rw [List.mem_singleton.mp h] at hkb hks
      exact absurd hks (hnot hkb)

private theorem latestAt_append_self {l : List RouteKey} {key : RouteKey} (hkey : key ∉ l)
    {byKey : RouteMap} {data : RouteData} (hd : byKey[key]? = some data) (m : RouteMatch) :
    LatestAt (l ++ [key]) byKey (segments key.asStr) m ↔ m = ⟨key, data⟩ := by
  have hend : (l ++ [key]).idxOf key = l.length := by
    rw [List.idxOf_append_of_notMem hkey]
    simp
  constructor
  · rintro ⟨hm, hmd, hs, hmax⟩
    have hle := hmax key (by simp) (by simp [Std.ExtTreeMap.mem_iff_isSome_getElem?, hd]) rfl
    rcases List.mem_append.mp hm with h | h
    · have hlt := List.idxOf_lt_length_of_mem h
      rw [hend, List.idxOf_append_of_mem h] at hle
      omega
    · have hk := List.mem_singleton.mp h
      rw [hk, hd] at hmd
      cases m
      simp_all
  · rintro rfl
    refine ⟨by simp, hd, rfl, fun k hk _ _ => ?_⟩
    have hlt := List.idxOf_lt_length_of_mem hk
    simp only [List.length_append, List.length_singleton] at hlt
    change _ ≤ (l ++ [key]).idxOf key
    omega

private theorem lookup_entries_iff (byKey : RouteMap) (path : List String) (m : RouteMatch)
    (order : List RouteKey) (hn : order.Nodup) :
    (order.filterMap fun key => (byKey[key]?).map fun data =>
      (segments key.asStr, RouteMatch.mk key data)).reverse.lookup path = some m ↔
      LatestAt order byKey path m := by
  induction order using List.reverseRecOn with
  | nil => simp [LatestAt]
  | append_singleton l key ih =>
    have hkey : key ∉ l := by
      intro h
      exact (List.nodup_append.mp hn).2.2 key h key (by simp) rfl
    have ih := ih (List.nodup_append.mp hn).1
    rw [List.filterMap_append, List.reverse_append, List.lookup_append]
    cases hd : byKey[key]? with
    | none =>
      have hnot : key ∉ byKey := by simp [Std.ExtTreeMap.mem_iff_isSome_getElem?, hd]
      rw [latestAt_append_of_not (fun h => absurd h hnot), ← ih]
      simp [hd]
    | some data =>
      by_cases hp : path = segments key.asStr
      · subst hp
        rw [latestAt_append_self hkey hd]
        simp [hd, eq_comm]
      · have hb : (path == segments key.asStr) = false := by simpa using hp
        rw [latestAt_append_of_not (fun _ h => hp h.symm), ← ih]
        simp [hd, List.lookup_cons, hb]

/-- The value at a path is the record of its latest stored key. -/
theorem value?_root_iff {r : OrderedRoutes} (h : r.Enumerated) (path : List String)
    (m : RouteMatch) :
    (fromOrderedRoutes r).root.value? path = some m ↔ LatestAt r.mutationOrder r.byKey path m := by
  rw [root_fromOrderedRoutes, PrefixTree.Node.value?_build]
  exact lookup_entries_iff r.byKey path m r.mutationOrder h.nodup

theorem value?_root_eq_none_iff {r : OrderedRoutes} (h : r.Enumerated) (path : List String) :
    (fromOrderedRoutes r).root.value? path = none ↔ ∀ k ∈ r.byKey, segments k.asStr ≠ path := by
  rw [root_fromOrderedRoutes, PrefixTree.Node.value?_build, List.lookup_eq_none_iff]
  constructor
  · intro hall k hk hs
    obtain ⟨d, hd⟩ := (OrderedRoutes.mem_byKey_iff r k).mp hk
    have hentry := hall (segments k.asStr, ⟨k, d⟩) (by
      simp only [List.mem_reverse, List.mem_filterMap]
      exact ⟨k, (h.mem_iff k).mpr hk, by simp [hd]⟩)
    simp [hs] at hentry
  · intro hall e he
    simp only [List.mem_reverse, List.mem_filterMap, Option.map_eq_some_iff] at he
    obtain ⟨k, -, d, hd, rfl⟩ := he
    have hne := hall k ((OrderedRoutes.mem_byKey_iff r k).mpr ⟨d, hd⟩)
    simpa using fun e => hne e.symm

theorem resolve_eq_none_iff {r : OrderedRoutes} (h : r.Enumerated) (path : String) :
    (fromOrderedRoutes r).resolve path = none ↔
      ∀ k ∈ r.byKey, ¬segments k.asStr <+: segments path := by
  rw [resolve, PrefixTree.Node.deepest_eq_none_iff]
  constructor
  · intro hall k hk hp
    exact (value?_root_eq_none_iff h _).mp (hall _ hp) k hk rfl
  · intro hall q hq
    rw [value?_root_eq_none_iff h]
    rintro k hk rfl
    exact hall k hk hq

theorem resolve_eq_some_iff {r : OrderedRoutes} (h : r.Enumerated) (path : String)
    (m : RouteMatch) :
    (fromOrderedRoutes r).resolve path = some m ↔
      r.byKey[m.key]? = some m.data ∧ segments m.key.asStr <+: segments path ∧
        (∀ k ∈ r.byKey, segments k.asStr <+: segments path →
          (segments k.asStr).length ≤ (segments m.key.asStr).length) ∧
        ∀ k ∈ r.byKey, segments k.asStr = segments m.key.asStr →
          r.mutationOrder.idxOf k ≤ r.mutationOrder.idxOf m.key := by
  have hsome : ∀ q, ((fromOrderedRoutes r).root.value? q).isSome ↔
      ∃ k ∈ r.byKey, segments k.asStr = q := by
    intro q
    have hn := value?_root_eq_none_iff h q
    rw [← not_iff_not] at hn
    simpa [Option.isSome_iff_ne_none] using hn
  rw [resolve, PrefixTree.Node.deepest_eq_some_iff]
  constructor
  · rintro ⟨q, hq, hv, hmax⟩
    obtain ⟨hmem, hd, rfl, hlast⟩ := (value?_root_iff h q m).mp hv
    refine ⟨hd, hq, fun k hk hp => hmax _ hp ((hsome _).mpr ⟨k, hk, rfl⟩), fun k hk hs => ?_⟩
    exact hlast k ((h.mem_iff k).mpr hk) hk hs
  · rintro ⟨hd, hp, hmax, hlast⟩
    have hmem : m.key ∈ r.byKey := (OrderedRoutes.mem_byKey_iff r _).mpr ⟨_, hd⟩
    refine ⟨segments m.key.asStr, hp, (value?_root_iff h _ m).mpr ⟨(h.mem_iff _).mpr hmem, hd, rfl,
      fun k _ hk hs => hlast k hk hs⟩, fun q hq hs => ?_⟩
    obtain ⟨k, hk, rfl⟩ := (hsome q).mp hs
    exact hmax k hk hq

/-- Every snapshot the registry can publish: loaded, then edited any number of times. -/
def history (routes : RouteMap) (edits : List RouteEdit) : RouteSnapshot :=
  edits.foldl edited (fromRoutes routes)

theorem history_wellFormed (routes : RouteMap) (edits : List RouteEdit) :
    (history routes edits).routes.Enumerated ∧
      history routes edits = fromOrderedRoutes (history routes edits).routes := by
  induction edits using List.reverseRecOn with
  | nil => exact ⟨OrderedRoutes.enumerated_fromSorted routes, rfl⟩
  | append_singleton l e ih =>
    have hl : history routes (l ++ [e]) = (history routes l).edited e := by simp [history]
    rw [hl]
    exact ⟨OrderedRoutes.enumerated_apply ih.1 e, rfl⟩

/-- The matcher agrees with a linear scan over all stored keys, after any history of edits and
for aliasing keys too. -/
theorem resolve_eq_linearScan (routes : RouteMap) (edits : List RouteEdit) :
    let s := history routes edits
    (s.routes.mutationOrder.Nodup ∧
      ∀ k, k ∈ s.routes.mutationOrder ↔ k ∈ s.routes.byKey) ∧
    ∀ path,
      (s.resolve path = none ↔
        ∀ k ∈ s.routes.byKey, ¬segments k.asStr <+: segments path) ∧
      ∀ m, s.resolve path = some m ↔
        s.routes.byKey[m.key]? = some m.data ∧ segments m.key.asStr <+: segments path ∧
          (∀ k ∈ s.routes.byKey, segments k.asStr <+: segments path →
            (segments k.asStr).length ≤ (segments m.key.asStr).length) ∧
          ∀ k ∈ s.routes.byKey, segments k.asStr = segments m.key.asStr →
            s.routes.mutationOrder.idxOf k ≤ s.routes.mutationOrder.idxOf m.key := by
  intro s
  obtain ⟨he, hs⟩ := history_wellFormed routes edits
  refine ⟨⟨he.nodup, he.mem_iff⟩, fun path => ⟨?_, fun m => ?_⟩⟩
  · have h := resolve_eq_none_iff he path
    rwa [← hs] at h
  · have h := resolve_eq_some_iff he path m
    rwa [← hs] at h

end RouteSnapshot

end ChpProxy
