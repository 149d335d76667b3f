import ChpProxy.Api.Pathname
import ChpProxy.Api.Stored
import ChpProxy.Registry.Effects
import ChpProxy.Store.Faulty

/-! What a response of the management API says about the registry: it held at some moment while the
request was handled, whatever others did meanwhile. -/
namespace ChpProxy

open Interaction

variable {σ ι : Type} {S : Store σ ι}

namespace Registry

/-- What the reply to a call says about the states `H`. -/
def Grounded (K : S.RecordContract) (H : List (Registry σ)) :
    (op : RegistryOp) → op.Reply → Prop
  | .isIndeterminate, (reply : Bool) => ∃ u ∈ H, u.mutations.isIndeterminate = reply
  | .snapshot, (reply : RouteMap) => ∃ u ∈ H, u.routes.byKey = reply
  | .mutate request, (reply : MutationResult) => Backed K H request reply

theorem Grounded.mono {K : S.RecordContract} (H H' : List (Registry σ)) (hH : H.Sublist H')
    (op : RegistryOp) (reply : op.Reply) (h : Grounded K H op reply) : Grounded K H' op reply := by
  cases op with
  | isIndeterminate | snapshot =>
    obtain ⟨u, hu, h⟩ := h
    exact ⟨u, hH.subset hu, h⟩
  | mutate request => exact Backed.mono hH h

theorem begin_admitted {s : Registry σ} {mutations : MutationTracker} {request : Request}
    (h : s.mutations.begin = .ok mutations) :
    (s.begin request).tasks[s.tasks.length]? = some ⟨request, .admitted, .waiting⟩ := by
  unfold begin
  rw [h]
  exact List.getElem?_concat_length ..

theorem begin_ordinary {t : MutationTracker} {e : StoreError} (h : t.begin = .error e) :
    e.isIndeterminate = false := by
  unfold MutationTracker.begin at h
  split at h
  · cases h
  all_goals
    rw [← Except.error.inj h]
    rfl

theorem poll_mutate {s : Registry σ} {request : Request} {i : ℕ} {answer : MutationResult}
    (h : (component S).poll s (.mutate request) i = some answer) :
    ∃ m, s.tasks[i]? = some m ∧ m.caller = .returned answer := by
  dsimp only [component] at h
  split at h
  · next request' phase result hm =>
    cases h
    exact ⟨_, hm, rfl⟩
  · cases h

theorem states_sublist_moments {α : Type} {op : RegistryOp} {next : op.Reply → Handler α}
    {s s' s'' t : Registry σ} {bs ds : List (Action ι)} {ticket : ℕ}
    (hbs : run S s bs = some s') (hb : (component S).begin s' op = (s'', .inl ticket))
    (hds : run S s'' ds = some t) (rest : List (Act (Action ι))) :
    (Transition.states (step S) s'' ds).Sublist
      (moments (component S) (s, .running (.call op next))
        (bs.map .others ++ .own :: (ds.map .others ++ rest))) := by
  have hown : Interaction.run (component S) (s, .running (.call op next))
      (bs.map .others ++ [.own]) = some (s'', .waiting op ticket next) := by
    refine (Transition.run_concat_eq_some_iff _).mpr ⟨_, run_others hbs, ?_⟩
    simp [Interaction.step, hb]
  have hlater := moments_sublist hown (ds.map .others ++ rest)
  rw [List.append_assoc, List.singleton_append] at hlater
  refine List.Sublist.trans ?_ hlater
  have hstates : moments (component S) (s'', .waiting op ticket next) (ds.map .others) =
      Transition.states (step S) s'' ds := moments_others hds
  rw [← hstates]
  exact sublist_moments (run_others hds) rest

/-- Every reply is grounded in the states since the call. -/
theorem grounded_of_answered (K : S.RecordContract) {α : Type} (op : RegistryOp)
    (next : op.Reply → Handler α) (s : Registry σ) (as : List (Act (Action ι))) (reply : op.Reply)
    (u : Registry σ) (cs : List (Act (Action ι))) (h : Answered (component S) op s as reply u cs) :
    Grounded K (moments (component S) (s, .running (.call op next)) as) op reply := by
  cases h with
  | atOnce bs s' has hbs hb =>
    have hnow : s' ∈ moments (component S) (s, .running (.call op next)) as := by
      rw [has]
      exact mem_moments (run_others hbs) _
    cases op with
    | isIndeterminate =>
      obtain ⟨-, hreply⟩ := Prod.mk.inj hb
      exact ⟨s', hnow, Sum.inr.inj hreply⟩
    | snapshot =>
      obtain ⟨-, hreply⟩ := Prod.mk.inj hb
      exact ⟨s', hnow, Sum.inr.inj hreply⟩
    | mutate request =>
      dsimp only [component] at hb
      split at hb
      · cases hb
      · next e he =>
        cases hb
        intro hind
        rw [begin_ordinary he] at hind
        cases hind
  | later bs ds s' s'' ticket has hbs hb hds hp =>
    cases op with
    | isIndeterminate | snapshot => cases hp
    | mutate request =>
      have hcall := hb
      dsimp only [component] at hb
      split at hb
      · next mutations hbegin =>
        obtain ⟨rfl, hticket⟩ := Prod.mk.inj hb
        obtain rfl := Sum.inl.inj hticket
        obtain ⟨m, hm, hc⟩ := poll_mutate hp
        have hbacked := backed_of_returned K (begin_admitted hbegin) hds hm hc
        refine Backed.mono ?_ hbacked
        rw [has]
        exact states_sublist_moments hbs hcall hds _
      · cases hb

end Registry

namespace Api

/-- The first of the pairs with this name has this value. -/
def FirstValue (pairs : List (String × String)) (name value : String) : Prop :=
  ∃ before after, pairs = before ++ (name, value) :: after ∧ ∀ p ∈ before, p.1 ≠ name

/-- The pairs ask for the routes that have been inactive since `raw`. An empty value asks for
nothing, and the name that CHP documents counts first. -/
def AsksSince (pairs : List (String × String)) (raw : String) : Prop :=
  raw ≠ "" ∧ (FirstValue pairs "inactiveSince" raw ∨
    (∀ value, FirstValue pairs "inactiveSince" value → value = "") ∧
      FirstValue pairs "inactive_since" raw)

/-- The time that a text names in the first of the four formats it is read in. -/
def NamesTime (libraries : Libraries) (raw : String) (t : DateTime) : Prop :=
  libraries.parseRfc3339 raw = some t ∨ libraries.parseRfc3339 raw = none ∧
    (libraries.parseDate raw = some (some t) ∨ libraries.parseDate raw = none ∧
      (libraries.parseRfc2822 raw = some t ∨ libraries.parseRfc2822 raw = none ∧
        libraries.parseSpaced raw = some t))

/-- What a listing shows of a table: all of it, or what has been inactive since the time that the
query asks for. -/
def Shows (libraries : Libraries) (request : ApiRequest) (routes shown : RouteMap) : Prop :=
  let pairs := request.query.elim [] libraries.parseForm
  (¬∃ raw, AsksSince pairs raw) ∧ shown = routes ∨
    ∃ raw t, AsksSince pairs raw ∧ NamesTime libraries raw t ∧
      ∀ (key : RouteKey) (data : RouteData),
        shown[key]? = some data ↔ routes[key]? = some data ∧ data.lastActivity < t

/-- The body of the request is an object with this target, and its other members but
`last_activity` are the metadata. -/
def Posted (libraries : Libraries) (request : ApiRequest) (target : String) (extra : Map) : Prop :=
  ∃ members, libraries.fromSlice request.body.bytes = .ok (.object members) ∧
    (.ofList members : Map)["target"]? = some (.string target) ∧
    ∀ k v, extra[k]? = some v ↔
      (k ≠ "target" ∧ k ≠ "last_activity") ∧ (.ofList members : Map)[k]? = some v

/-- What a response says about the states `H` through which the registry went meanwhile. -/
structure Truthful (K : S.RecordContract) (libraries : Libraries) (request : ApiRequest)
    (H : List (Registry σ)) (response : ApiResponse) : Prop where
  route : ∀ data, response.body = .route data → ∃ key, Addressed libraries request key ∧
    ∃ u ∈ H, u.routes.byKey[key]? = some data
  routes : ∀ shown, response.body = .routes shown →
    (∃ u ∈ H, Shows libraries request u.routes.byKey shown) ∨
      shown = ∅ ∧ ∃ u ∈ H, u.mutations.isIndeterminate = true
  created : response.status = 201 → ∃ key target extra,
    Addressed libraries request key ∧ Posted libraries request target extra ∧
      ∃ u ∈ H, ∃ data, u.routes.byKey[key]? = some data ∧ data.payload = (target, extra)
  removed : response.status = 204 → ∃ key, Addressed libraries request key ∧
    ∃ u v data, [u, v].Sublist H ∧ (K.contents u.store)[key]? = some data ∧
      v.routes.byKey[key]? = none
  absent : response = empty 404 → ∃ key, Addressed libraries request key ∧
    (request.method = .delete → ∃ u ∈ H, (K.contents u.store)[key]? = none) ∧
      ((∃ u ∈ H, u.routes.byKey[key]? = none) ∨ ∃ u ∈ H, u.mutations.isIndeterminate = true)
  unavailable : response.status = 503 → ∃ u ∈ H, u.mutations.isIndeterminate = true

theorem firstValue_eq_some_iff {pairs : List (String × String)} {name value : String} :
    firstValue pairs name = some value ↔ FirstValue pairs name value := by
  unfold firstValue FirstValue
  rw [Option.map_eq_some_iff]
  constructor
  · rintro ⟨⟨name', value'⟩, hfind, rfl⟩
    obtain ⟨hname, before, after, hpairs, hbefore⟩ := List.find?_eq_some_iff_append.mp hfind
    obtain rfl : name' = name := by simpa using hname
    exact ⟨before, after, hpairs, fun p hp => by simpa using hbefore p hp⟩
  · rintro ⟨before, after, hpairs, hbefore⟩
    refine ⟨(name, value), List.find?_eq_some_iff_append.mpr ⟨by simp, before, after, hpairs, ?_⟩,
      rfl⟩
    intro p hp
    simpa using hbefore p hp

theorem filter_firstValue_eq_some_iff {pairs : List (String × String)} {name raw : String} :
    ((firstValue pairs name).filter fun value => !value.isEmpty) = some raw ↔
      FirstValue pairs name raw ∧ raw ≠ "" := by
  rw [Option.filter_eq_some_iff, firstValue_eq_some_iff]
  simp

theorem since_eq_some_iff {pairs : List (String × String)} {raw : String} :
    (((firstValue pairs "inactiveSince").filter fun value => !value.isEmpty).or
      ((firstValue pairs "inactive_since").filter fun value => !value.isEmpty)) = some raw ↔
      AsksSince pairs raw := by
  have hnone : ((firstValue pairs "inactiveSince").filter fun value => !value.isEmpty) = none ↔
      ∀ value, FirstValue pairs "inactiveSince" value → value = "" := by
    rw [Option.eq_none_iff_forall_ne_some]
    simp only [ne_eq, filter_firstValue_eq_some_iff, not_and, not_not]
  rw [Option.or_eq_some_iff, hnone, filter_firstValue_eq_some_iff, filter_firstValue_eq_some_iff]
  unfold AsksSince
  tauto

theorem parsePinnedDateParseSubset_eq_some {libraries : Libraries} {raw : String} {t : DateTime}
    (h : parsePinnedDateParseSubset libraries raw = some t) : NamesTime libraries raw t := by
  unfold parsePinnedDateParseSubset at h
  unfold NamesTime
  split at h
  · next hread =>
    rw [hread]
    exact .inl h
  · next hnone =>
    refine .inr ⟨hnone, ?_⟩
    split at h
    · next hread =>
      rw [hread]
      exact .inl (congrArg some h)
    · next hnone =>
      refine .inr ⟨hnone, ?_⟩
      split at h
      · next hread =>
        rw [hread]
        exact .inl h
      · next hnone => exact .inr ⟨hnone, h⟩

theorem shows_of_inactiveSince {libraries : Libraries} {request : ApiRequest}
    {since : Option DateTime} (h : inactiveSince libraries request.query = .ok since)
    (routes : RouteMap) :
    Shows libraries request routes
      (since.elim routes fun t => routes.filter fun _ route => route.lastActivity < t) := by
  unfold inactiveSince at h
  dsimp only at h
  split at h
  · next hnone =>
    obtain rfl := Except.ok.inj h
    refine .inl ⟨?_, rfl⟩
    rintro ⟨raw, hraw⟩
    rw [since_eq_some_iff.mpr hraw] at hnone
    cases hnone
  · next raw hraw =>
    split at h
    · next t ht =>
      obtain rfl := Except.ok.inj h
      refine .inr ⟨raw, t, since_eq_some_iff.mp hraw, parsePinnedDateParseSubset_eq_some ht, ?_⟩
      intro key data
      rw [Option.elim_some, Std.ExtTreeMap.getElem?_filter, Option.pfilter_eq_some_iff]
      simp
    · cases h

theorem path_of_endpoint {path : String} (h : endpoint path = .collection) :
    path = "/api/routes" ∨ path = "/api/routes/" := by
  unfold endpoint at h
  split_ifs at h with hpath
  simpa using hpath

theorem ne_of_endpoint {path : String} (h : endpoint path = .route) :
    path ≠ "/api/routes" ∧ path ≠ "/api/routes/" := by
  unfold endpoint at h
  split_ifs at h with hpath
  simpa using hpath

theorem posted_of_value {libraries : Libraries} {request : ApiRequest} {value : Value}
    {target : String} (hvalue : libraries.fromSlice request.body.bytes = .ok value)
    (htarget : ((objectMembers value)["target"]?).bind stringValue = some target) :
    Posted libraries request target
      (((objectMembers value).erase "target").erase "last_activity") := by
  rw [target_of_stringValue] at htarget
  cases value with
  | object members =>
    refine ⟨members, hvalue, htarget, fun k v => ?_⟩
    rw [getElem?_erase_reserved]
    simp only [RouteData.isReserved, Bool.or_eq_true, decide_eq_true_eq, objectMembers]
    by_cases hk : k = "target" ∨ k = "last_activity"
    · rw [if_pos hk]
      tauto
    · rw [if_neg hk]
      rw [not_or] at hk
      simp [hk]
  | null | bool | number | string | array => cases htarget

section Responses

variable {K : S.RecordContract} {libraries : Libraries} {state : ApiState} {request : ApiRequest}
  {H : List (Registry σ)} {response : ApiResponse}

theorem truthful_text {status : ℕ} {content : String}
    (h : status ≠ 201 ∧ status ≠ 204 ∧ status ≠ 503) :
    Truthful K libraries request H (text status content) where
  route _ hb := by cases hb
  routes _ hb := by cases hb
  created hs := absurd hs h.1
  removed hs := absurd hs h.2.1
  absent hs := by cases hs
  unavailable hs := absurd hs h.2.2

theorem truthful_empty {status : ℕ}
    (h : status ≠ 201 ∧ status ≠ 204 ∧ status ≠ 404 ∧ status ≠ 503) :
    Truthful K libraries request H (empty status) where
  route _ hb := by cases hb
  routes _ hb := by cases hb
  created hs := absurd hs h.1
  removed hs := absurd hs h.2.1
  absent hs := absurd (congrArg ApiResponse.status hs) h.2.2.1
  unavailable hs := absurd hs h.2.2.2

theorem truthful_unavailable (h : ∃ u ∈ H, u.mutations.isIndeterminate = true) :
    Truthful K libraries request H (empty 503) where
  route _ hb := by cases hb
  routes _ hb := by cases hb
  created hs := by cases hs
  removed hs := by cases hs
  absent hs := by cases hs
  unavailable _ := h

theorem truthful_intoResponse (e : RoutePathError) :
    Truthful K libraries request H e.intoResponse := by
  cases e with
  | badRequest => exact truthful_text (by decide)
  | notFound => exact truthful_text (by decide)

theorem truthful_available {handler : Handler ApiResponse}
    (h : (do if ← registryUnavailable then return empty 503 else handler).Explained
      (Registry.Grounded K H) response)
    (hnext : handler.Explained (Registry.Grounded K H) response →
      Truthful K libraries request H response) : Truthful K libraries request H response := by
  obtain ⟨_, ⟨reply, hground, rfl⟩, hrest⟩ := Program.explained_bind.mp h
  cases reply with
  | true =>
    obtain rfl : empty 503 = response := hrest
    exact truthful_unavailable hground
  | false => exact hnext hrest

theorem truthful_mutationFailure {e : StoreError}
    (hback : e.isIndeterminate = true → ∃ u ∈ H, u.mutations.isIndeterminate = true)
    (h : (mutationFailure e).Explained (Registry.Grounded K H) response) :
    Truthful K libraries request H response := by
  unfold mutationFailure at h
  split_ifs at h with he
  · obtain rfl : empty 503 = response := h
    exact truthful_unavailable (hback he)
  · refine truthful_available h fun hrest => ?_
    obtain rfl : text 500 "Internal Server Error" = response := hrest
    exact truthful_text (by decide)

theorem explained_registryAll {routes : RouteMap}
    (h : registryAll.Explained (Registry.Grounded K H) routes) :
    (∃ u ∈ H, u.routes.byKey = routes) ∨
      routes = ∅ ∧ ∃ u ∈ H, u.mutations.isIndeterminate = true := by
  obtain ⟨_, ⟨reply, hground, rfl⟩, hrest⟩ := Program.explained_bind.mp h
  cases reply with
  | true => exact .inr ⟨(show ∅ = routes from hrest).symm, hground⟩
  | false =>
    obtain ⟨snapshot, hsnapshot, rfl⟩ := hrest
    exact .inl hsnapshot

theorem explained_registryGet {key : RouteKey} {found : Option RouteData}
    (h : (registryGet key).Explained (Registry.Grounded K H) found) :
    (∃ u ∈ H, u.routes.byKey[key]? = found) ∨
      found = none ∧ ∃ u ∈ H, u.mutations.isIndeterminate = true := by
  obtain ⟨_, ⟨reply, hground, rfl⟩, hrest⟩ := Program.explained_bind.mp h
  cases reply with
  | true => exact .inr ⟨(show none = found from hrest).symm, hground⟩
  | false =>
    obtain ⟨snapshot, ⟨u, hu, rfl⟩, rfl⟩ := hrest
    exact .inl ⟨u, hu, rfl⟩

theorem truthful_routes {since : Option DateTime} {routes : RouteMap}
    (hsince : inactiveSince libraries request.query = .ok since)
    (h : (∃ u ∈ H, u.routes.byKey = routes) ∨
      routes = ∅ ∧ ∃ u ∈ H, u.mutations.isIndeterminate = true) :
    Truthful K libraries request H
      ⟨200, .routes (since.elim routes fun t => routes.filter fun _ route => route.lastActivity < t)⟩
    where
  route _ hb := by cases hb
  routes _ hb := by
    cases hb
    rcases h with ⟨u, hu, rfl⟩ | ⟨rfl, hsealed⟩
    · exact .inl ⟨u, hu, shows_of_inactiveSince hsince _⟩
    · refine .inr ⟨?_, hsealed⟩
      cases since with
      | none => rfl
      | some t => rfl
  created hs := by cases hs
  removed hs := by cases hs
  absent hs := by cases hs
  unavailable hs := by cases hs

theorem truthful_route {key : RouteKey} {data : RouteData}
    (hkey : Addressed libraries request key)
    (h : ∃ u ∈ H, u.routes.byKey[key]? = some data) :
    Truthful K libraries request H ⟨200, .route data⟩ where
  route _ hb := by
    cases hb
    exact ⟨key, hkey, h⟩
  routes _ hb := by cases hb
  created hs := by cases hs
  removed hs := by cases hs
  absent hs := by cases hs
  unavailable hs := by cases hs

theorem truthful_created {key : RouteKey} {target : String} {extra : Map}
    (hkey : Addressed libraries request key) (hposted : Posted libraries request target extra)
    (h : Registry.Effective K H (.add key target extra) none) :
    Truthful K libraries request H (empty 201) where
  route _ hb := by cases hb
  routes _ hb := by cases hb
  created _ := ⟨key, target, extra, hkey, hposted, h⟩
  removed hs := by cases hs
  absent hs := by cases hs
  unavailable hs := by cases hs

theorem truthful_removed {key : RouteKey} {data : RouteData}
    (hkey : Addressed libraries request key)
    (h : Registry.Effective K H (.delete key) (some data)) :
    Truthful K libraries request H (empty 204) where
  route _ hb := by cases hb
  routes _ hb := by cases hb
  created hs := by cases hs
  removed _ := by
    obtain ⟨u, v, huv, hdata, hgone⟩ := h
    exact ⟨key, hkey, u, v, data, huv, hdata, hgone⟩
  absent hs := by cases hs
  unavailable hs := by cases hs

theorem truthful_absent {key : RouteKey} (hkey : Addressed libraries request key)
    (hstore : request.method = .delete → ∃ u ∈ H, (K.contents u.store)[key]? = none)
    (h : (∃ u ∈ H, u.routes.byKey[key]? = none) ∨
      ∃ u ∈ H, u.mutations.isIndeterminate = true) :
    Truthful K libraries request H (empty 404) where
  route _ hb := by cases hb
  routes _ hb := by cases hb
  created hs := by cases hs
  removed hs := by cases hs
  absent _ := ⟨key, hkey, hstore, h⟩
  unavailable hs := by cases hs

theorem truthful_getAllRoutes
    (h : (getAllRoutes libraries state request).Explained (Registry.Grounded K H) response) :
    Truthful K libraries request H response := by
  unfold getAllRoutes at h
  split_ifs at h
  · obtain rfl : empty 403 = response := h
    exact truthful_empty (by decide)
  · refine truthful_available h fun h => ?_
    split at h
    · next message _ =>
      obtain rfl : text 400 message = response := h
      exact truthful_text (by decide)
    · next hsince =>
      obtain ⟨routes, hroutes, rfl⟩ := Program.explained_bind.mp h
      exact truthful_routes hsince (explained_registryAll hroutes)
    · next timestamp hsince =>
      obtain ⟨routes, hroutes, rfl⟩ := Program.explained_bind.mp h
      exact truthful_routes hsince (explained_registryAll hroutes)

theorem truthful_getOneRoute (hroute : endpoint request.path = .route)
    (hget : request.method = .get)
    (h : (getOneRoute libraries state request).Explained (Registry.Grounded K H) response) :
    Truthful K libraries request H response := by
  unfold getOneRoute at h
  split_ifs at h
  · obtain rfl : empty 403 = response := h
    exact truthful_empty (by decide)
  · refine truthful_available h fun h => ?_
    split at h
    · next e _ =>
      obtain rfl : e.intoResponse = response := h
      exact truthful_intoResponse e
    · next key hkey =>
      have haddressed : Addressed libraries request key :=
        addressed_of_routeKeyFromUri (by simp [hget]) (ne_of_endpoint hroute) hkey
      obtain ⟨found, hfound, hrest⟩ := Program.explained_bind.mp h
      have hsaid := explained_registryGet hfound
      cases found with
      | some route =>
        obtain rfl : ⟨200, .route route⟩ = response := hrest
        rcases hsaid with hdata | ⟨hnone, -⟩
        · exact truthful_route haddressed hdata
        · cases hnone
      | none =>
        obtain rfl : empty 404 = response := hrest
        refine truthful_absent haddressed (fun hdelete => ?_) (hsaid.imp_right And.right)
        rw [hget] at hdelete
        cases hdelete

theorem truthful_postRoute {key : RouteKey} (haddressed : Addressed libraries request key)
    (h : (postRoute libraries state request key).Explained (Registry.Grounded K H) response) :
    Truthful K libraries request H response := by
  unfold postRoute at h
  split at h
  · obtain rfl : empty 413 = response := h
    exact truthful_empty (by decide)
  · next body hbody =>
    split at h
    · obtain rfl : text 400 _ = response := h
      exact truthful_text (by decide)
    · next value hvalue =>
      split_ifs at h
      · obtain rfl : empty 403 = response := h
        exact truthful_empty (by decide)
      · refine truthful_available h fun h => ?_
        dsimp only at h
        split at h
        · obtain rfl : text 400 _ = response := h
          exact truthful_text (by decide)
        · next target htarget =>
          obtain ⟨_, ⟨answer, hback, rfl⟩, hrest⟩ := Program.explained_bind.mp h
          cases answer with
          | error e => exact truthful_mutationFailure hback hrest
          | ok result =>
            obtain rfl : empty 201 = response := hrest
            have hposted := posted_of_value (toBytes_eq_some hbody ▸ hvalue) htarget
            exact truthful_created haddressed hposted hback

theorem truthful_deleteRoute {key : RouteKey} (haddressed : Addressed libraries request key)
    (h : (deleteRoute state request key).Explained (Registry.Grounded K H) response) :
    Truthful K libraries request H response := by
  unfold deleteRoute at h
  split_ifs at h
  · obtain rfl : empty 403 = response := h
    exact truthful_empty (by decide)
  · refine truthful_available h fun h => ?_
    obtain ⟨_, ⟨answer, hback, rfl⟩, hrest⟩ := Program.explained_bind.mp h
    cases answer with
    | error e => exact truthful_mutationFailure hback hrest
    | ok prior =>
      cases prior with
      | some data =>
        obtain rfl : empty 204 = response := hrest
        exact truthful_removed haddressed hback
      | none =>
        obtain rfl : empty 404 = response := hrest
        obtain ⟨u, v, huv, hprior, hgone⟩ := hback
        exact truthful_absent haddressed (fun _ => ⟨u, huv.subset (by simp), hprior⟩)
          (.inl ⟨v, huv.subset (by simp), hgone⟩)

/-- What a response says follows from the replies of the registry. -/
theorem truthful_router
    (h : (router libraries state request).Explained (Registry.Grounded K H) response) :
    Truthful K libraries request H response := by
  have hrefused : ∀ {status : ℕ} {content : String}, status ≠ 201 ∧ status ≠ 204 ∧ status ≠ 503 →
      (Program.done (text status content) : Handler ApiResponse).Explained
        (Registry.Grounded K H) response → Truthful K libraries request H response := by
    rintro status content hstatus rfl
    exact truthful_text hstatus
  unfold router at h
  split at h
  · next hcollection =>
    have haddressed : Addressed libraries request (.parse "/") :=
      .root (path_of_endpoint hcollection) rfl
    split at h
    · exact truthful_getAllRoutes h
    · exact truthful_postRoute haddressed h
    · exact truthful_deleteRoute haddressed h
    · exact hrefused (by decide) h
    · exact hrefused (by decide) h
  · next hroute =>
    split at h
    · next hget => exact truthful_getOneRoute hroute hget h
    · next hpost =>
      unfold postOneRoute at h
      split at h
      · next e _ =>
        obtain rfl : e.intoResponse = response := h
        exact truthful_intoResponse e
      · next key hkey =>
        exact truthful_postRoute
          (addressed_of_routeKeyFromUri (by simp [hpost]) (ne_of_endpoint hroute) hkey) h
    · next hdelete =>
      unfold deleteOneRoute at h
      split at h
      · next e _ =>
        obtain rfl : e.intoResponse = response := h
        exact truthful_intoResponse e
      · next key hkey =>
        exact truthful_deleteRoute
          (addressed_of_routeKeyFromUri (by simp [hdelete]) (ne_of_endpoint hroute) hkey) h
    · exact hrefused (by decide) h
    · exact hrefused (by decide) h
  · exact hrefused (by decide) h

end Responses

/-- Every response says what was so at some moment while its request was handled, whatever other
requests, observations and drains do in between and however often the table is swapped meanwhile: a
record or a listing is what was published, a creation was published and a removal took away what the
store held, an absence was one, and the service is unavailable only when the registry is sealed. -/
theorem responses_linearize (K : S.RecordContract) (libraries : Libraries) (state : ApiState)
    (request : ApiRequest) {registry : Registry σ} {as : List (Act (Action ι))}
    {t : Registry σ × Client RegistryOp RegistryOp.Reply ℕ ApiResponse} {response : ApiResponse}
    (hrun : Interaction.run (Registry.component S)
      (registry, .running (router libraries state request)) as = some t)
    (hresult : t.2.result = some response) :
    Truthful K libraries request
      (moments (Registry.component S) (registry, .running (router libraries state request)) as)
      response :=
  truthful_router (explained_of_run Registry.Grounded.mono (Registry.grounded_of_answered K) hrun
    hresult)

/-- `DELETE /api/routes/a`, over a registry that holds this route. -/
def deletingRoute : ApiRequest := ⟨.delete, "/api/routes/a", none, .empty, ⟨[], false⟩⟩

def heldRoute : RouteMap := (∅ : RouteMap).insert (.parse "/a") ⟨"http://127.0.0.1:9001", 0, ∅⟩

theorem routeKeyFromUri_deletingRoute :
    routeKeyFromUri plain deletingRoute.path 1 = .ok (.parse "/a") := by
  decide +kernel

theorem router_deletingRoute : router plain (.new none) deletingRoute =
    deleteRoute (.new none) deletingRoute (.parse "/a") := by
  have hroute : endpoint deletingRoute.path = .route := by decide
  unfold router deleteOneRoute
  rw [hroute, routeKeyFromUri_deletingRoute]
  rfl

/-- The handler begins the deletion in its second step. The store carries it out, the table without
the route is published, and the handler is told in its third step. -/
def deletion : List (Act (Action (DateTime × Fault))) :=
  [.own, .own, .others (.spawn 0), .others (.lock 0), .others (.fence 0), .others (.poll 0),
    .others (.exec 0 (1, .none)), .others (.load 0), .others (.swap 0), .others (.conclude 0),
    .others (.respond 0), .others (.receive 0), .others (.acknowledge 0), .own]

/-- The store carries the deletion out, but its reply is lost. -/
def lostDeletion : List (Act (Action (DateTime × Fault))) :=
  [.own, .own, .others (.spawn 0), .others (.lock 0), .others (.fence 0), .others (.poll 0),
    .others (.exec 0 (1, .lost true)), .others (.conclude 0), .others (.respond 0),
    .others (.receive 0), .others (.acknowledge 0), .own]

theorem responses_linearize_deletion : ∃ s₀ t t',
    (Registry.load MemoryStore.store.faulty (0, .none) heldRoute = .ok s₀ ∧
      Interaction.run (Registry.component MemoryStore.store.faulty)
        (s₀, .running (router plain (.new none) deletingRoute)) deletion = some t ∧
      t.2.result = some (empty 204) ∧
      Interaction.run (Registry.component MemoryStore.store.faulty)
        (s₀, .running (router plain (.new none) deletingRoute)) lostDeletion = some t' ∧
      t'.2.result = some (empty 503)) ∧
    (∃ (u v : Registry RouteMap) (data : RouteData),
      [u, v].Sublist (moments (Registry.component MemoryStore.store.faulty)
        (s₀, .running (router plain (.new none) deletingRoute)) deletion) ∧
      u.store[RouteKey.parse "/a"]? = some data ∧ v.routes.byKey[RouteKey.parse "/a"]? = none) ∧
    ∃ u ∈ moments (Registry.component MemoryStore.store.faulty)
      (s₀, .running (router plain (.new none) deletingRoute)) lostDeletion,
      u.mutations.isIndeterminate = true := by
  have haddressed : Addressed plain deletingRoute (.parse "/a") :=
    addressed_of_routeKeyFromUri rfl (by decide) routeKeyFromUri_deletingRoute
  refine Exists.imp (fun s₀ => Exists.imp fun t => Exists.imp fun t' h => ⟨h, ?_, ?_⟩) ?_
  · obtain ⟨-, hrun, hresult, -⟩ := h
    have hsaid := responses_linearize MemoryStore.recordContract.faulty plain (.new none)
      deletingRoute hrun hresult
    obtain ⟨key, hkey, u, v, data, huv, hdata, hgone⟩ := hsaid.removed rfl
    obtain rfl := hkey.unique haddressed
    exact ⟨u, v, data, huv, hdata, hgone⟩
  · obtain ⟨-, -, -, hrun, hresult⟩ := h
    exact (responses_linearize MemoryStore.recordContract.faulty plain (.new none) deletingRoute
      hrun hresult).unavailable rfl
  · rw [router_deletingRoute]
    exact ⟨_, _, _, rfl, rfl, rfl, rfl, rfl⟩

end Api

end ChpProxy
