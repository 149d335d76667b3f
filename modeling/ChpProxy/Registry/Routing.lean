import ChpProxy.RouteTable.Precedence
import ChpProxy.Registry.Agreement
import ChpProxy.Registry.Publication

/-! Routing across histories and restarts. -/
namespace ChpProxy

open RouteSnapshot

/-- Where a match sends a request: its key, target and metadata. -/
def RouteMatch.destination (m : RouteMatch) : RouteKey × String × Map := (m.key, m.data.payload)

namespace Registry

variable {σ ι : Type} {S : Store σ ι} {s s' : Registry σ}

theorem load_cases {choice : ι} {store : σ} (h : load S choice store = .ok s) :
    ∃ routes, S.snapshot choice store = .ok routes ∧ s.snapshot.snapshot = fromRoutes routes ∧
      s.mutations = .default := by
  unfold load at h
  split at h
  · cases h
  · next routes hsnap =>
    obtain rfl := Except.ok.inj h
    exact ⟨routes, hsnap, rfl, rfl⟩

theorem built_load {choice : ι} {store : σ} (h : load S choice store = .ok s) :
    s.snapshot.snapshot.Built := by
  obtain ⟨routes, -, hsnap, -⟩ := load_cases h
  rw [hsnap]
  exact built_fromRoutes routes

theorem built_step (hi : Inv s) (h : s.snapshot.snapshot.Built) {a : Action ι}
    (hs : step S s a = some s') : s'.snapshot.snapshot.Built := by
  cases publication_step hi hs with
  | none hsnap => rwa [hsnap]
  | task i edit result current hp hp' hsnap =>
    rw [hsnap]
    exact h.edited edit
  | observer j o current ho hp ho' hsnap =>
    rw [hsnap]
    exact h.edited _

/-- Every published matcher was built from the routes published with it. -/
theorem built_run {choice : ι} {store : σ} {s₀ : Registry σ} {as : List (Action ι)}
    (hload : load S choice store = .ok s₀) (hrun : run S s₀ as = some s) :
    s.snapshot.snapshot.Built := by
  have hstep : ∀ t a t', (Inv t ∧ t.snapshot.snapshot.Built) → step S t a = some t' →
      Inv t' ∧ t'.snapshot.snapshot.Built := by
    intro t a t' ⟨hi, hb⟩ hs
    exact ⟨inv_step hi hs, built_step hi hb hs⟩
  exact (Transition.run_invariant hstep ⟨inv_load hload, built_load hload⟩ hrun).2

/-- A registry that nothing has sealed resolves on its published snapshot. -/
theorem resolve_of_open (h : s.mutations.sealState.terminal = false) (path : String) :
    resolve s s path = s.snapshot.snapshot.resolve path := by
  simp [resolve, MutationTracker.isIndeterminate_of_nonterminal h]

theorem open_of_not_failed (hi : Inv s) (hok : ¬Failed s) :
    s.mutations.sealState.terminal = false := by
  rw [← Bool.not_eq_true]
  exact fun ht => hok (hi.sealing.failure ht)

theorem routes_of_load (K : S.Contract) {choice : ι} {store : σ}
    (h : load S choice store = .ok s) : s.routes.byKey = K.contents store := by
  obtain ⟨routes, hok, hsnap, -⟩ := load_cases h
  rw [Registry.routes, hsnap]
  exact K.snapshot_ok hok

/-- Routing does not depend on the history of mutations unless keys alias. Tables over one map
whose orders permute its keys resolve every path alike when no two keys share their segments, and
otherwise differ only where the longest matching segments are shared. So histories that end in the
same map route alike, a table rebuilt in ascending key order routes as the one it replaces, and a
registry loaded from what another one persisted sends every path where that one sent it. -/
theorem routing_ignores_history (K : S.Contract) :
    (∀ r r' : OrderedRoutes, r.byKey = r'.byKey → r.mutationOrder.Perm r.byKey.keys →
      r'.mutationOrder.Perm r.byKey.keys →
      (AliasFree r.byKey →
        ∀ path, (fromOrderedRoutes r).resolve path = (fromOrderedRoutes r').resolve path) ∧
      ∀ path, (fromOrderedRoutes r).resolve path ≠ (fromOrderedRoutes r').resolve path →
        Contested r.byKey path) ∧
    (∀ routes edits routes' edits',
      (history routes edits).routes.byKey = (history routes' edits').routes.byKey →
      AliasFree (history routes edits).routes.byKey →
      ∀ path, (history routes edits).resolve path = (history routes' edits').resolve path) ∧
    (∀ routes edits, AliasFree (history routes edits).routes.byKey →
      ∀ path, (fromRoutes (history routes edits).routes.byKey).resolve path =
        (history routes edits).resolve path) ∧
    ∀ choice store s₀ as s choice' s₁, load S choice store = .ok s₀ → run S s₀ as = some s →
      ¬Failed s → s.mutation = none → load S choice' s.store = .ok s₁ →
      AliasFree s.routes.byKey →
      (∀ path, (resolve s₁ s₁ path).map RouteMatch.destination =
        (resolve s s path).map RouteMatch.destination) ∧
      (K.contents s.store = s.routes.byKey →
        ∀ path, resolve s₁ s₁ path = resolve s s path) := by
  refine ⟨?_, ?_, ?_, ?_⟩
  · intro r r' hmap hperm hperm'
    have hbuilt := built_fromOrderedRoutes (OrderedRoutes.enumerated_of_perm hperm)
    have hbuilt' := built_fromOrderedRoutes (OrderedRoutes.enumerated_of_perm (hmap ▸ hperm'))
    constructor
    · intro hfree path
      exact hbuilt.resolve_eq hbuilt' hmap (hfree.not_contested path)
    · intro path hne
      by_contra hnot
      exact hne (hbuilt.resolve_eq hbuilt' hmap hnot)
  · intro routes edits routes' edits' hmap hfree path
    have hbuilt := built_history routes edits
    exact hbuilt.resolve_eq (built_history routes' edits') hmap (hfree.not_contested path)
  · intro routes edits hfree path
    have hbuilt := built_fromRoutes (history routes edits).routes.byKey
    exact hbuilt.resolve_eq (built_history routes edits) rfl (hfree.not_contested path)
  · intro choice store s₀ as s choice' s₁ hload hrun hok hmutex hload' hfree
    have hopen := open_of_not_failed (inv_run (inv_load hload) hrun) hok
    have hopen' : s₁.mutations.sealState.terminal = false := by
      obtain ⟨-, -, -, hfresh⟩ := load_cases hload'
      rw [hfresh]
      rfl
    have hbuilt := built_run hload hrun
    have hbuilt' := built_load hload'
    have hmap := routes_of_load K hload'
    constructor
    · intro path
      rw [resolve_of_open hopen, resolve_of_open hopen']
      have hsame := payloads_of_free K hload hrun hok hmutex
      rw [← hmap] at hsame
      exact (hbuilt.resolve_congr hbuilt' RouteData.payload hsame (hfree.not_contested path)).symm
    · intro hpersisted path
      rw [resolve_of_open hopen, resolve_of_open hopen']
      have hsame := hmap.trans hpersisted
      exact (hbuilt.resolve_eq hbuilt' hsame.symm (hfree.not_contested path)).symm

/-- Adding two routes in either order. -/
theorem routing_ignores_history_two_orders :
    let edits : List RouteEdit :=
      [.replace (.parse "/a") ⟨"http://a", 0, ∅⟩, .replace (.parse "/a/b") ⟨"http://b", 0, ∅⟩]
    (history ∅ edits).routes.byKey = (history ∅ edits.reverse).routes.byKey ∧
      AliasFree (history ∅ edits).routes.byKey ∧
      ∀ path, (history ∅ edits).resolve path = (history ∅ edits.reverse).resolve path := by
  intro edits
  have hmap : (history ∅ edits).routes.byKey = (history ∅ edits.reverse).routes.byKey := by
    decide
  have hfree : AliasFree (history ∅ edits).routes.byKey := by decide
  exact ⟨hmap, hfree, (routing_ignores_history MemoryStore.contract.toContract).2.1
    ∅ edits ∅ edits.reverse hmap hfree⟩

example :
    let routes : RouteMap := .insert (.insert ∅ (.parse "/a") ⟨"http://a", 0, ∅⟩)
      (.parse "//a") ⟨"http://b", 0, ∅⟩
    (fromOrderedRoutes ⟨routes, [.parse "/a", .parse "//a"]⟩).resolve "/a/b" ≠
      (fromOrderedRoutes ⟨routes, [.parse "//a", .parse "/a"]⟩).resolve "/a/b" := by
  decide

end Registry

end ChpProxy
