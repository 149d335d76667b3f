import ChpProxy.RouteTable.Matcher

/-! What the mutation order decides. The key a path resolves to is one with the longest matching
segments, whatever the order; the order only chooses between keys that share those segments. -/
namespace ChpProxy

namespace OrderedRoutes

theorem enumerated_of_perm {r : OrderedRoutes} (h : r.mutationOrder.Perm r.byKey.keys) :
    r.Enumerated := by
  have hsorted := enumerated_fromSorted r.byKey
  constructor
  · exact h.nodup_iff.mpr hsorted.nodup
  · intro k
    rw [h.mem_iff]
    exact hsorted.mem_iff k

end OrderedRoutes

/-- No two stored keys have the same segments. -/
def AliasFree (routes : RouteMap) : Prop :=
  ∀ k ∈ routes, ∀ k' ∈ routes, segments k.asStr = segments k'.asStr → k = k'

instance (routes : RouteMap) : Decidable (AliasFree routes) :=
  decidable_of_iff
    (∀ k ∈ routes.keys, ∀ k' ∈ routes.keys, segments k.asStr = segments k'.asStr → k = k')
    (by simp only [AliasFree, Std.ExtTreeMap.mem_keys])

/-- A stored key with the longest segments that match the path. -/
structure Longest (routes : RouteMap) (path : String) (k : RouteKey) : Prop where
  stored : k ∈ routes
  matching : segments k.asStr <+: segments path
  length_le : ∀ k' ∈ routes, segments k'.asStr <+: segments path →
    (segments k'.asStr).length ≤ (segments k.asStr).length

/-- The longest matching segments belong to more than one stored key. -/
def Contested (routes : RouteMap) (path : String) : Prop :=
  ∃ k k', Longest routes path k ∧ k' ∈ routes ∧ k' ≠ k ∧ segments k'.asStr = segments k.asStr

theorem Longest.segments_eq {routes : RouteMap} {path : String} {k k' : RouteKey}
    (h : Longest routes path k) (h' : Longest routes path k') :
    segments k.asStr = segments k'.asStr := by
  have hle := h'.length_le k h.stored h.matching
  have hge := h.length_le k' h'.stored h'.matching
  have hpre := List.prefix_of_prefix_length_le h.matching h'.matching hle
  exact hpre.eq_of_length (by omega)

theorem Longest.unique {routes : RouteMap} {path : String} {k k' : RouteKey}
    (hnot : ¬Contested routes path) (h : Longest routes path k) (h' : Longest routes path k') :
    k = k' := by
  by_contra hne
  exact hnot ⟨k, k', h, h'.stored, Ne.symm hne, (h.segments_eq h').symm⟩

theorem AliasFree.not_contested {routes : RouteMap} (h : AliasFree routes) (path : String) :
    ¬Contested routes path := by
  intro ⟨k, k', hk, hk', hne, hs⟩
  exact hne (h k' hk' k hk.stored hs)

namespace RouteMap

theorem longest_congr {routes routes' : RouteMap} (hkeys : ∀ k, k ∈ routes ↔ k ∈ routes')
    (path : String) (k : RouteKey) : Longest routes path k ↔ Longest routes' path k := by
  constructor
  · intro h
    exact ⟨(hkeys k).mp h.stored, h.matching, fun k' hk' => h.length_le k' ((hkeys k').mpr hk')⟩
  · intro h
    exact ⟨(hkeys k).mpr h.stored, h.matching, fun k' hk' => h.length_le k' ((hkeys k').mp hk')⟩

end RouteMap

namespace RouteSnapshot

variable {s s' : RouteSnapshot}

/-- The matcher was built from the routes it is published with. -/
structure Built (s : RouteSnapshot) : Prop where
  enumerated : s.routes.Enumerated
  rebuilt : fromOrderedRoutes s.routes = s

theorem built_fromOrderedRoutes {r : OrderedRoutes} (h : r.Enumerated) :
    (fromOrderedRoutes r).Built :=
  ⟨h, rfl⟩

theorem built_fromRoutes (routes : RouteMap) : (fromRoutes routes).Built :=
  built_fromOrderedRoutes (OrderedRoutes.enumerated_fromSorted routes)

theorem Built.edited (h : s.Built) (e : RouteEdit) : (s.edited e).Built :=
  built_fromOrderedRoutes (OrderedRoutes.enumerated_apply h.enumerated e)

theorem built_history (routes : RouteMap) (edits : List RouteEdit) :
    (history routes edits).Built := by
  obtain ⟨hen, hre⟩ := history_wellFormed routes edits
  exact ⟨hen, hre.symm⟩

theorem Built.longest_of_resolve (h : s.Built) {path : String} {m : RouteMatch}
    (hm : s.resolve path = some m) :
    s.routes.byKey[m.key]? = some m.data ∧ Longest s.routes.byKey path m.key := by
  rw [← h.rebuilt] at hm
  obtain ⟨hdata, hmatch, hlongest, -⟩ := (resolve_eq_some_iff h.enumerated path m).mp hm
  exact ⟨hdata, (OrderedRoutes.mem_byKey_iff s.routes m.key).mpr ⟨_, hdata⟩, hmatch, hlongest⟩

theorem Built.not_longest_of_resolve (h : s.Built) {path : String} (hm : s.resolve path = none)
    (k : RouteKey) : ¬Longest s.routes.byKey path k := by
  intro hk
  rw [← h.rebuilt, resolve_eq_none_iff h.enumerated] at hm
  exact hm k hk.stored hk.matching

theorem Built.key_resolve (h : s.Built) (h' : s'.Built)
    (hkeys : ∀ k, k ∈ s.routes.byKey ↔ k ∈ s'.routes.byKey) {path : String}
    (hnot : ¬Contested s.routes.byKey path) :
    (s.resolve path).map RouteMatch.key = (s'.resolve path).map RouteMatch.key := by
  have hlongest := RouteMap.longest_congr hkeys path
  cases hm : s.resolve path with
  | none =>
    cases hm' : s'.resolve path with
    | none => rfl
    | some m' =>
      have hm' := (h'.longest_of_resolve hm').2
      exact absurd ((hlongest _).mpr hm') (h.not_longest_of_resolve hm _)
  | some m =>
    have hk := (h.longest_of_resolve hm).2
    cases hm' : s'.resolve path with
    | none => exact absurd ((hlongest _).mp hk) (h'.not_longest_of_resolve hm' _)
    | some m' =>
      have hk' := (hlongest _).mpr (h'.longest_of_resolve hm').2
      exact congrArg some (Longest.unique hnot hk hk')

/-- Tables whose records look the same to `f` resolve an uncontested path to the same key, with
records that look the same. -/
theorem Built.resolve_congr (h : s.Built) (h' : s'.Built) {β : Type*} (f : RouteData → β)
    (hsame : ∀ k : RouteKey, (s.routes.byKey[k]?).map f = (s'.routes.byKey[k]?).map f)
    {path : String} (hnot : ¬Contested s.routes.byKey path) :
    (s.resolve path).map (fun m => (m.key, f m.data)) =
      (s'.resolve path).map fun m => (m.key, f m.data) := by
  have hkeys : ∀ k, k ∈ s.routes.byKey ↔ k ∈ s'.routes.byKey := by
    intro k
    have hk := congrArg Option.isSome (hsame k)
    rw [Option.isSome_map, Option.isSome_map] at hk
    rw [Std.ExtTreeMap.mem_iff_isSome_getElem?, Std.ExtTreeMap.mem_iff_isSome_getElem?, hk]
  have hkey := h.key_resolve h' hkeys hnot
  cases hm : s.resolve path with
  | none =>
    rw [hm] at hkey
    rw [Option.map_eq_none_iff.mp hkey.symm]
  | some m =>
    rw [hm] at hkey
    obtain ⟨m', hm', hkey⟩ := Option.map_eq_some_iff.mp hkey.symm
    have hdata := hsame m.key
    rw [(h.longest_of_resolve hm).1, ← hkey, (h'.longest_of_resolve hm').1] at hdata
    have hf : f m.data = f m'.data := Option.some.inj hdata
    rw [hm']
    simp only [Option.map_some, hkey, hf]

/-- Two tables over the same map differ on contested paths only. -/
theorem Built.resolve_eq (h : s.Built) (h' : s'.Built) (hmap : s.routes.byKey = s'.routes.byKey)
    {path : String} (hnot : ¬Contested s.routes.byKey path) :
    s.resolve path = s'.resolve path := by
  have hid : Function.Injective fun m : RouteMatch => (m.key, id m.data) := by
    intro ⟨k, d⟩ ⟨k', d'⟩ he
    simpa using he
  apply Option.map_injective hid
  exact h.resolve_congr h' id (fun k => by rw [hmap]) hnot

end RouteSnapshot

end ChpProxy
