import ChpProxy.Api.Percent
import ChpProxy.Api.Router
import ChpProxy.Lib.Whatwg

/-! Which route a management path addresses. The router matches the path as it was sent, and the key
is cut from the path that is left when its dot segments are gone. -/
namespace ChpProxy.Api

/-- The pathnames of the routes: the collection, and what lies below it. -/
def InNamespace (pathname : List Char) : Prop :=
  pathname = routesPath ∨ routesPath ++ ['/'] <+: pathname

instance (pathname : List Char) : Decidable (InNamespace pathname) :=
  inferInstanceAs (Decidable (_ ∨ _))

def remainder (pathname : List Char) : Option String :=
  percentDecode (pathname.drop routesPath.length)

/-- `RouteKey::parse`, and `n` times more on what it gives. -/
def cleaned : ℕ → String → RouteKey
  | 0, text => .parse text
  | n + 1, text => .parse (cleaned n text).asStr

/-- A result that addresses the namespace of the routes and nothing else. -/
structure Addresses (pathname : List Char) (cleanCount : ℕ)
    (result : Except RoutePathError RouteKey) : Prop where
  key : ∀ key, result = .ok key → InNamespace pathname ∧ ∃ decoded,
    remainder pathname = some decoded ∧
      key = cleaned (cleanCount - 1) (if decoded.isEmpty then "/" else decoded)
  refused : ∀ error, result = .error error →
    error = .notFound ∧ ¬InNamespace pathname ∨ error = .badRequest ∧ remainder pathname = none

/-- A pathname that goes on after the literal within the segment, with a text that decodes. -/
def Overruns (pathname : List Char) : Prop :=
  routesPath <+: pathname ∧ ¬InNamespace pathname ∧ remainder pathname ≠ none

instance (pathname : List Char) : Decidable (Overruns pathname) :=
  inferInstanceAs (Decidable (_ ∧ _ ∧ _))

theorem InNamespace.begins {pathname : List Char} (h : InNamespace pathname) :
    routesPath <+: pathname := by
  rcases h with rfl | h
  · exact List.prefix_rfl
  · exact (List.prefix_append _ _).trans h

theorem cleaned_eq_repeat (n : ℕ) (text : String) :
    cleaned n text = Nat.repeat (fun key => RouteKey.parse key.text) n (.parse text) := by
  induction n with
  | zero => rfl
  | succ n ih =>
    rw [cleaned, ih]
    rfl

theorem routeKeyFromUri_eq {libraries : Libraries} {path pathname : String}
    (h : whatwgNormalizedPathname libraries path = some pathname) (cleanCount : ℕ) :
    routeKeyFromUri libraries path cleanCount =
      if routesPath <+: pathname.toList then
        (remainder pathname.toList).elim (.error .badRequest) fun decoded =>
          .ok (cleaned (cleanCount - 1) (if decoded.isEmpty then "/" else decoded))
      else .error .notFound := by
  unfold routeKeyFromUri remainder
  rw [h]
  dsimp only
  simp only [List.isPrefixOf_iff_prefix]
  split_ifs with hliteral
  · cases percentDecode (pathname.toList.drop routesPath.length) with
    | none => rfl
    | some decoded =>
      rw [Option.elim_some, cleaned_eq_repeat]
  · rfl

/-- The key of a request comes from the namespace of the routes, or the request is refused, unless
the normalized pathname goes on after the literal without a separator. -/
theorem addresses_iff_not_overruns (libraries : Libraries) (path pathname : String)
    (h : whatwgNormalizedPathname libraries path = some pathname) (cleanCount : ℕ) :
    Addresses pathname.toList cleanCount (routeKeyFromUri libraries path cleanCount) ↔
      ¬Overruns pathname.toList := by
  rw [routeKeyFromUri_eq h]
  constructor
  · rintro haddresses ⟨hliteral, hnot, hdecodes⟩
    rw [if_pos hliteral] at haddresses
    obtain ⟨decoded, hdecoded⟩ := Option.ne_none_iff_exists'.mp hdecodes
    rw [hdecoded] at haddresses
    exact hnot (haddresses.key _ rfl).1
  · intro hoverruns
    split_ifs with hliteral
    · cases hdecoded : remainder pathname.toList with
      | none =>
        refine ⟨fun key hkey => (nomatch hkey), fun error herror => .inr ⟨?_, hdecoded⟩⟩
        exact (Except.error.inj herror).symm
      | some decoded =>
        have hinside : InNamespace pathname.toList := by
          by_contra hnot
          refine hoverruns ⟨hliteral, hnot, ?_⟩
          rw [hdecoded]
          exact Option.some_ne_none _
        refine ⟨fun key hkey => ⟨hinside, decoded, hdecoded, ?_⟩, fun error herror => nomatch herror⟩
        exact (Except.ok.inj hkey).symm
    · refine ⟨fun key hkey => (nomatch hkey), fun error herror => .inl ⟨?_, ?_⟩⟩
      · exact (Except.error.inj herror).symm
      · exact fun hinside => hliteral hinside.begins

/-! The key of a request, apart from how the handlers cut it. -/

/-- `key` is `text` without `n` slashes at its end, or without all that are there if there are fewer;
the slash at the beginning stays. -/
def Trims (n : ℕ) (text key : List Char) : Prop :=
  key.head? = some '/' ∧ ∃ k ≤ n, text = key ++ List.replicate k '/' ∧
    (k < n → key = ['/'] ∨ key.getLast? ≠ some '/')

/-- The route that a request is about. The two paths of the collection stand for the root. Below
them it is what the normalized path has after `/api/routes`, percent-decoded, with a slash at its
beginning and without one at its end, where CHP cleans a path once for a DELETE and twice
otherwise. -/
inductive Addressed (libraries : Libraries) (request : ApiRequest) (key : RouteKey) : Prop
  | root (hpath : request.path = "/api/routes" ∨ request.path = "/api/routes/")
      (hkey : key.text = "/")
  | route (hpath : request.path ≠ "/api/routes" ∧ request.path ≠ "/api/routes/")
      (pathname : String) (rest decoded text : List Char)
      (hpathname : libraries.urlPath ("http://route.invalid" ++ request.path) = some pathname)
      (hrest : pathname.toList = "/api/routes".toList ++ rest) (hescaped : Percent.WellEscaped rest)
      (hdecoded : Percent.unescape rest = Utf8.encode decoded)
      (hrooted : decoded.head? = some '/' ∧ text = decoded ∨
        decoded.head? ≠ some '/' ∧ text = '/' :: decoded)
      (hkey : Trims (if request.method = .delete then 1 else 2) text key.text.toList)

theorem Trims.trans {m n : ℕ} {text middle key : List Char} (h : Trims m text middle)
    (h' : Trims n middle key) : Trims (m + n) text key := by
  obtain ⟨-, k, hk, rfl, hmore⟩ := h
  obtain ⟨hhead, j, hj, rfl, hmore'⟩ := h'
  refine ⟨hhead, j + k, by omega, by rw [List.append_assoc, List.replicate_append_replicate], ?_⟩
  intro hlt
  by_cases hjn : j < n
  · exact hmore' hjn
  · -- All of the second cut was made, so the first one found no more slashes.
    cases j with
    | zero => simpa using hmore (by omega)
    | succ j =>
      rw [List.replicate_succ'] at hmore
      rcases hmore (by omega) with hroot | hlast
      · have hlength := congrArg List.length hroot
        have hpos : key ≠ [] := by
          rintro rfl
          cases hhead
        simp only [List.length_append, List.length_replicate, List.length_cons,
          List.length_nil] at hlength
        have := List.length_pos_of_ne_nil hpos
        omega
      · rw [← List.append_assoc, List.getLast?_concat] at hlast
        exact absurd rfl hlast

theorem Trims.unique {n : ℕ} {text key key' : List Char} (h : Trims n text key)
    (h' : Trims n text key') : key = key' := by
  obtain ⟨hhead, k, hk, rfl, hmore⟩ := h
  obtain ⟨hhead', k', hk', htext, hmore'⟩ := h'
  -- Whoever cuts less has cut as much as there is.
  have hle : ∀ {a b : List Char} {i j : ℕ}, a ++ List.replicate i '/' = b ++ List.replicate j '/' →
      b.head? = some '/' → (i < n → a = ['/'] ∨ a.getLast? ≠ some '/') → i < j → j ≤ n → False := by
    intro a b i j hab hb hless hij hjn
    obtain ⟨d, rfl⟩ := Nat.exists_eq_add_of_lt hij
    have hsame : a = b ++ List.replicate (d + 1) '/' := by
      refine (List.append_left_inj (List.replicate i '/')).mp ?_
      rw [hab, List.append_assoc, List.replicate_append_replicate]
      congr 2
      omega
    have hb' : b ≠ [] := by
      rintro rfl
      cases hb
    rcases hless (by omega) with hroot | hlast
    · have hlength := congrArg List.length (hsame.symm.trans hroot)
      simp only [List.length_append, List.length_replicate, List.length_cons,
        List.length_nil] at hlength
      have := List.length_pos_of_ne_nil hb'
      omega
    · rw [hsame, List.replicate_succ', ← List.append_assoc, List.getLast?_concat] at hlast
      exact hlast rfl
  rcases Nat.lt_trichotomy k k' with hlt | rfl | hlt
  · exact (hle htext hhead' hmore hlt hk').elim
  · exact List.append_cancel_right htext
  · exact (hle htext.symm hhead hmore' hlt hk).elim

theorem Addressed.unique {libraries : Libraries} {request : ApiRequest} {key key' : RouteKey}
    (h : Addressed libraries request key) (h' : Addressed libraries request key') : key = key' := by
  have htext : key.text = key'.text := by
    cases h with
    | root hpath hkey =>
      cases h' with
      | root _ hkey' => rw [hkey, hkey']
      | route hpath' =>
        rcases hpath with hpath | hpath
        · exact absurd hpath hpath'.1
        · exact absurd hpath hpath'.2
    | route hpath pathname rest decoded text hpathname hrest _ hdecoded hrooted hkey =>
      cases h' with
      | root hpath' =>
        rcases hpath' with hpath' | hpath'
        · exact absurd hpath' hpath.1
        · exact absurd hpath' hpath.2
      | route _ pathname' rest' decoded' text' hpathname' hrest' _ hdecoded' hrooted' hkey' =>
        obtain rfl := Option.some.inj (hpathname.symm.trans hpathname')
        obtain rfl := List.append_cancel_left (hrest.symm.trans hrest')
        obtain rfl : decoded = decoded' := by
          have hread := Utf8.decode_encode decoded
          rw [← hdecoded, hdecoded', Utf8.decode_encode] at hread
          exact (Option.some.inj hread).symm
        obtain rfl : text = text' := by
          rcases hrooted with ⟨hslash, rfl⟩ | ⟨hslash, rfl⟩
          · rcases hrooted' with ⟨-, rfl⟩ | ⟨hnot, -⟩
            · rfl
            · exact absurd hslash hnot
          · rcases hrooted' with ⟨hnot, -⟩ | ⟨-, rfl⟩
            · exact absurd hnot hslash
            · rfl
        exact String.toList_inj.mp (hkey.unique hkey')
  obtain ⟨text, _⟩ := key
  obtain ⟨text', _⟩ := key'
  obtain rfl : text = text' := htext
  rfl

theorem trims_withoutTrailingSlash {text : List Char} (h : text.head? = some '/') :
    Trims 1 text (RouteKey.withoutTrailingSlash text) := by
  refine ⟨RouteKey.head?_withoutTrailingSlash text h, ?_⟩
  unfold RouteKey.withoutTrailingSlash
  split_ifs with hlast
  · refine ⟨1, le_rfl, ?_, by simp⟩
    exact (List.dropLast_append_getLast? _ hlast.2).symm
  · refine ⟨0, Nat.zero_le 1, (List.append_nil text).symm, fun _ => ?_⟩
    rw [not_and_or, not_lt] at hlast
    refine hlast.imp_left fun hshort => ?_
    obtain ⟨c, tail, rfl⟩ : ∃ c tail, text = c :: tail := by
      cases text with
      | nil => cases h
      | cons c tail => exact ⟨c, tail, rfl⟩
    obtain rfl := Option.some.inj h
    obtain rfl : tail = [] := by simpa using hshort
    rfl

theorem trims_cleaned {text : List Char} {decoded : String} (n : ℕ)
    (hrooted : decoded.toList.head? = some '/' ∧ text = decoded.toList ∨
      decoded.toList.head? ≠ some '/' ∧ text = '/' :: decoded.toList) :
    Trims (n + 1) text (cleaned n decoded).text.toList := by
  induction n with
  | zero =>
    have htext : RouteKey.withLeadingSlash decoded.toList = text := by
      unfold RouteKey.withLeadingSlash
      rcases hrooted with ⟨hslash, rfl⟩ | ⟨hslash, rfl⟩
      · exact if_pos hslash
      · exact if_neg hslash
    rw [cleaned, RouteKey.parse, RouteKey.normalize, String.toList_ofList, htext]
    refine trims_withoutTrailingSlash ?_
    rw [← htext]
    exact RouteKey.head?_withLeadingSlash _
  | succ n ih =>
    have hkept : RouteKey.withLeadingSlash (cleaned n decoded).text.toList =
        (cleaned n decoded).text.toList := if_pos (cleaned n decoded).rooted
    refine ih.trans ?_
    rw [cleaned, RouteKey.parse, RouteKey.normalize, String.toList_ofList, RouteKey.asStr, hkept]
    exact trims_withoutTrailingSlash (cleaned n decoded).rooted

/-- The handlers of one route take the key that the request is about. -/
theorem addressed_of_routeKeyFromUri {libraries : Libraries} {request : ApiRequest} {key : RouteKey}
    {cleanCount : ℕ} (hcount : cleanCount = if request.method = .delete then 1 else 2)
    (hpath : request.path ≠ "/api/routes" ∧ request.path ≠ "/api/routes/")
    (h : routeKeyFromUri libraries request.path cleanCount = .ok key) :
    Addressed libraries request key := by
  cases hpathname : whatwgNormalizedPathname libraries request.path with
  | none =>
    unfold routeKeyFromUri at h
    rw [hpathname] at h
    cases h
  | some pathname =>
    rw [routeKeyFromUri_eq hpathname] at h
    split_ifs at h with hprefix
    obtain ⟨rest, hrest⟩ := hprefix
    have hcut : remainder pathname.toList = percentDecode rest := by
      rw [remainder, ← hrest, List.drop_left]
    cases hdecoded : percentDecode rest with
    | none =>
      rw [hcut, hdecoded] at h
      cases h
    | some decoded =>
      rw [hcut, hdecoded, Option.elim_some] at h
      obtain ⟨hescaped, hbytes⟩ := percentDecode_eq_some_iff.mp hdecoded
      obtain ⟨n, hn⟩ : ∃ n, cleanCount = n + 1 := by
        rw [hcount]
        split_ifs
        · exact ⟨0, rfl⟩
        · exact ⟨1, rfl⟩
      rw [hn, Nat.add_sub_cancel] at h
      have haddressed : ∀ text, (decoded.toList.head? = some '/' ∧ text = decoded.toList ∨
          decoded.toList.head? ≠ some '/' ∧ text = '/' :: decoded.toList) →
          Trims (n + 1) text key.text.toList → Addressed libraries request key := by
        intro text hrooted htrims
        rw [← hn, hcount] at htrims
        exact .route hpath pathname rest decoded.toList text hpathname hrest.symm hescaped hbytes
          hrooted htrims
      by_cases hempty : decoded.isEmpty = true
      · rw [if_pos hempty] at h
        obtain rfl := Except.ok.inj h
        obtain rfl := String.isEmpty_iff.mp hempty
        exact haddressed ['/'] (.inr ⟨by simp, rfl⟩) (trims_cleaned n (.inl ⟨rfl, rfl⟩))
      · rw [if_neg hempty] at h
        obtain rfl := Except.ok.inj h
        by_cases hslash : decoded.toList.head? = some '/'
        · exact haddressed _ (.inl ⟨hslash, rfl⟩) (trims_cleaned n (.inl ⟨hslash, rfl⟩))
        · exact haddressed _ (.inr ⟨hslash, rfl⟩) (trims_cleaned n (.inr ⟨hslash, rfl⟩))

def settling : Libraries :=
  { plain with
    urlPath := fun url =>
      some (String.ofList (Whatwg.pathname (url.toList.drop "http://route.invalid".length))) }

theorem addresses_iff_not_overruns_user :
    whatwgNormalizedPathname settling "/api/routes/./x/../user" = some "/api/routes/user" ∧
    Addresses "/api/routes/user".toList 2
      (routeKeyFromUri settling "/api/routes/./x/../user" 2) := by
  have hpathname : whatwgNormalizedPathname settling "/api/routes/./x/../user" =
      some "/api/routes/user" := by decide
  exact ⟨hpathname, (addresses_iff_not_overruns settling _ _ hpathname 2).mpr (by decide +kernel)⟩

/-- A path below the routes, as it was sent, that addresses a sibling of theirs. -/
theorem sibling_addresses_route :
    endpoint "/api/routes/../routesuser" = .route ∧
    whatwgNormalizedPathname settling "/api/routes/../routesuser" = some "/api/routesuser" ∧
    ¬InNamespace "/api/routesuser".toList ∧
    routeKeyFromUri settling "/api/routes/../routesuser" 2 = .ok (.parse "/user") := by
  have hpathname : whatwgNormalizedPathname settling "/api/routes/../routesuser" =
      some "/api/routesuser" := by decide
  have hremainder : remainder "/api/routesuser".toList = some "user" := by decide +kernel
  refine ⟨by decide, hpathname, by decide, ?_⟩
  rw [routeKeyFromUri_eq hpathname, if_pos (by decide), hremainder]
  rfl

end ChpProxy.Api
