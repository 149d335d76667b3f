import ChpProxy.Lib.PrivateDirectory
import ChpProxy.PathOwnership.Owned

/-! The stages of a cleanup, and that every part of it moves from one stage to another, whatever
others do to the directory between its calls and whichever calls fail. -/
namespace ChpProxy

open FileSystem Interaction Io Fallible

namespace OwnedPath

variable (owned : OwnedPath) {process : Process FileIdentity} {steady : Bool}
  {w : World FileIdentity} {log : List (Event FileIdentity)} {q : UnixQuarantine}
  {i dir : FileIdentity} {name : String}

/-! ### How far a cleanup has come -/

/-- Nothing has been done but to make directories and to remove them again. -/
def Chores (log : List (Event FileIdentity)) : Prop :=
  ∀ e ∈ log, (∃ name i, e = .made owned.directory name i) ∨
    ∃ name i, e = .removed owned.directory name i ∧ .made owned.directory name i ∈ log

/-- A private directory waits for the entry. -/
structure Reserved (name : String) (dir : FileIdentity) (w : World FileIdentity) : Prop where
  chores : owned.Chores w.log
  made : .made owned.directory name dir ∈ w.log
  isPrivate : Private w owned.directory name dir ∅

/-- The entry `i` has been moved into the quarantine. -/
def Quarantined (q : UnixQuarantine) (i : FileIdentity) (log : List (Event FileIdentity)) : Prop :=
  ∃ before, owned.Chores before ∧ .made owned.directory q.name q.identity ∈ before ∧
    q.identity ≠ owned.directory ∧ log = before ++
      [.moved owned.directory owned.publicName q.identity privateCandidateName i none]

structure Holding (q : UnixQuarantine) (i : FileIdentity) (w : World FileIdentity) : Prop where
  quarantined : owned.Quarantined q i w.log
  isPrivate : Private w owned.directory q.name q.identity
    (Std.ExtTreeMap.insert ∅ privateCandidateName i)

/-- The quarantined entry was the owned one and is removed, or has been moved back. -/
def Settled (q : UnixQuarantine) (i : FileIdentity) (log : List (Event FileIdentity)) : Prop :=
  ∃ before, owned.Quarantined q i before ∧
    (i = owned.identity ∧ log = before ++ [.unlinked q.identity privateCandidateName i] ∨
      log = before ++
        [.moved q.identity privateCandidateName owned.directory owned.publicName i none])

structure Emptied (q : UnixQuarantine) (i : FileIdentity) (w : World FileIdentity) : Prop where
  settled : owned.Settled q i w.log
  isPrivate : Private w owned.directory q.name q.identity ∅

/-- The private directory is removed too. -/
def Finished (q : UnixQuarantine) (i : FileIdentity) (log : List (Event FileIdentity)) : Prop :=
  ∃ before, owned.Settled q i before ∧
    log = before ++ [.removed owned.directory q.name q.identity]

inductive Reached (w : World FileIdentity) : Prop
  | searching (h : owned.Chores w.log)
  | holding (q : UnixQuarantine) (i : FileIdentity) (h : owned.Holding q i w)
  | settled (q : UnixQuarantine) (i : FileIdentity) (h : owned.Settled q i w.log)
  | finished (q : UnixQuarantine) (i : FileIdentity) (h : owned.Finished q i w.log)

variable {owned}

/-- A private directory may be made at any time, and removed after it was made. -/
theorem Chores.snoc {event : Event FileIdentity} (h : owned.Chores log)
    (hevent : (∃ name i, event = .made owned.directory name i) ∨
      ∃ name i, event = .removed owned.directory name i ∧ .made owned.directory name i ∈ log) :
    owned.Chores (log ++ [event]) := by
  intro e he
  have hcase : (∃ name i, e = .made owned.directory name i) ∨
      ∃ name i, e = .removed owned.directory name i ∧ .made owned.directory name i ∈ log := by
    rcases List.mem_append.mp he with he | he
    · exact h e he
    · rw [List.mem_singleton.mp he]
      exact hevent
  rcases hcase with hmade | ⟨name, i, rfl, hmade⟩
  · exact .inl hmade
  · exact .inr ⟨name, i, rfl, List.mem_append_left _ hmade⟩

theorem Chores.made (h : owned.Chores log) (name : String) (i : FileIdentity) :
    owned.Chores (log ++ [.made owned.directory name i]) :=
  h.snoc (.inl ⟨name, i, rfl⟩)

theorem Chores.removed (h : owned.Chores log) (hmade : .made owned.directory name i ∈ log) :
    owned.Chores (log ++ [.removed owned.directory name i]) :=
  h.snoc (.inr ⟨name, i, rfl, hmade⟩)

theorem stable_chores : (kernel process owned.directory steady).Stable fun w => owned.Chores w.log :=
  stable_log _

theorem stable_reserved : (kernel process owned.directory steady).Stable (owned.Reserved name dir) := by
  intro w a w' h ha
  have hlog := (disturb_eq_some ha).2
  have hpriv := stable_private w a w' h.isPrivate ha
  subst hlog
  exact ⟨h.chores, h.made, hpriv⟩

theorem stable_holding : (kernel process owned.directory steady).Stable (owned.Holding q i) := by
  intro w a w' h ha
  have hlog := (disturb_eq_some ha).2
  have hpriv := stable_private w a w' h.isPrivate ha
  subst hlog
  exact ⟨h.quarantined, hpriv⟩

theorem stable_emptied : (kernel process owned.directory steady).Stable (owned.Emptied q i) := by
  intro w a w' h ha
  have hlog := (disturb_eq_some ha).2
  have hpriv := stable_private w a w' h.isPrivate ha
  subst hlog
  exact ⟨h.settled, hpriv⟩

theorem stable_reached : (kernel process owned.directory steady).Stable owned.Reached := by
  intro w a w' h ha
  have hlog := (disturb_eq_some ha).2
  cases h with
  | searching h => exact .searching (by rw [hlog]; exact h)
  | holding q i h => exact .holding q i (stable_holding w a w' h ha)
  | settled q i h => exact .settled q i (by rw [hlog]; exact h)
  | finished q i h => exact .finished q i (by rw [hlog]; exact h)

/-! ### What the parts of a cleanup do -/

variable {uid : ℕ}

theorem Reserved.reached (h : owned.Reserved name dir w) : owned.Reached w := .searching h.chores

theorem Emptied.reached (h : owned.Emptied q i w) : owned.Reached w := .settled q i h.settled

theorem wp_rmdirat_reserved (h : owned.Reserved name dir w) :
    (kernel process owned.directory steady).wp owned.Reached (rmdirat owned.directory name).run
      (fun _ w => owned.Chores w.log) w := by
  apply wp_update stable_reserved (fun _ => stable_chores) h
  · intro e w hw
    exact ⟨hw.reached, hw.chores⟩
  · intro w fate v events hw hperform
    have hevents := hw.isPrivate.remove hperform
    have hchores : owned.Chores (w.log ++ events) := by
      rw [hevents]
      exact hw.chores.removed hw.made
    exact ⟨.searching hchores, hchores⟩

/-- Whatever a guard checks, all it can remove is the directory that is reserved. -/
theorem wp_dropGuard (h : owned.Reserved name dir w) (check : Stat FileIdentity → Bool) :
    (kernel process owned.directory steady).wp owned.Reached
      (dropGuard uid owned.boundary owned.directory name check)
      (fun _ w => owned.Chores w.log) w := by
  apply wp_unwind
  apply System.wp_bind (wp_queries (owned.boundary.calls_authenticateRetained uid owned.directory)
    stable_reserved (fun _ => Reserved.reached) h)
  intro r w hw
  cases r with
  | error e => exact System.wp_done stable_chores hw.chores
  | ok _ =>
    apply System.wp_bind (wp_queries (calls_query _) stable_reserved (fun _ => Reserved.reached) hw)
    intro r w hw
    cases r with
    | error e => exact System.wp_done stable_chores hw.chores
    | ok stat =>
      dsimp only
      split
      · exact System.wp_map (wp_rmdirat_reserved hw) fun _ _ h => h
      · exact System.wp_done stable_chores hw.chores

theorem wp_statat_reserved (h : owned.Reserved name dir w) :
    (kernel process owned.directory steady).wp owned.Reached (statat owned.directory name).run
      (fun r w => owned.Reserved name dir w ∧ ∀ stat, r = .ok stat → stat.identity = dir) w := by
  apply wp_query (q := .statat owned.directory name) stable_reserved (fun _ => Reserved.reached)
    (fun stat => stat.identity = dir) _ h
  intro w fate stat hw hfind
  have hentry := statat_eq_ok hfind
  rw [hw.isPrivate.entry] at hentry
  exact (Option.some.inj hentry).symm

theorem wp_provisionalIdentity (h : owned.Reserved name dir w) :
    (kernel process owned.directory steady).wp owned.Reached
      (provisionalIdentity uid owned.directory name).run
      (fun r w => owned.Reserved name dir w ∧ ∀ identity, r = .ok identity → identity = dir) w := by
  apply System.wp_try (wp_statat_reserved h)
  · intro e w ⟨hw, _⟩
    exact ⟨hw, nofun⟩
  · intro stat w ⟨hw, hstat⟩
    apply System.wp_try (System.wp_ensure stable_reserved hw)
    · intro e w ⟨hw, _⟩
      exact ⟨hw, nofun⟩
    · intro _ w ⟨hw, _⟩
      have hdir : ∀ identity, Except.ok (ε := IoError) stat.identity = .ok identity →
          identity = dir := by
        intro identity he
        cases he
        exact hstat stat rfl
      exact System.wp_done (stable_reserved.and_const _) ⟨hw, hdir⟩

theorem wp_chmodat_reserved (h : owned.Reserved name dir w) (mode : Mode) :
    (kernel process owned.directory steady).wp owned.Reached
      (chmodatPortable owned.directory name mode).run (fun _ => owned.Reserved name dir) w := by
  apply wp_update stable_reserved (fun _ => stable_reserved) h
  · intro e w hw
    exact ⟨hw.reached, hw⟩
  · intro w fate v events hw hperform
    obtain ⟨rfl, hpriv⟩ := hw.isPrivate.chmod hperform
    rw [List.append_nil] at hpriv ⊢
    have hkept : owned.Reserved name dir ⟨v, w.log⟩ := ⟨hw.chores, hw.made, hpriv⟩
    exact ⟨hkept.reached, hkept⟩

theorem wp_openDirectoryAt_reserved (h : owned.Reserved name dir w) :
    (kernel process owned.directory steady).wp owned.Reached
      (openDirectoryAt owned.directory name).run
      (fun r w => owned.Reserved name dir w ∧ ∀ directory, r = .ok directory → directory = dir) w := by
  apply wp_query (q := .openat owned.directory name) stable_reserved (fun _ => Reserved.reached)
    (fun directory => directory = dir) _ h
  intro w fate directory hw hfind
  obtain ⟨i, hi, hfind⟩ := Result.bind_eq_ok (Option.some.inj hfind)
  obtain ⟨st, -, hfind⟩ := Result.bind_eq_ok hfind
  have hentry := Volume.lookup_eq_ok_iff.mp hi
  rw [hw.isPrivate.entry] at hentry
  split_ifs at hfind
  exact (Except.ok.inj hfind).symm.trans (Option.some.inj hentry).symm

theorem wp_normalizedDirectory (h : owned.Reserved name dir w) :
    (kernel process owned.directory steady).wp owned.Reached
      (normalizedDirectory uid owned.directory name dir).run
      (fun r w => owned.Reserved name dir w ∧ ∀ p, r = .ok p → p = (dir, dir)) w := by
  -- a step that ends in an error leaves the directory reserved
  have herror : ∀ (e : IoError) w, owned.Reserved name dir w → owned.Reserved name dir w ∧
      ∀ p : FileIdentity × FileIdentity, Except.error e = .ok p → p = (dir, dir) :=
    fun e w hw => ⟨hw, nofun⟩
  apply System.wp_try (wp_chmodat_reserved h _) herror
  intro _ w hw
  apply System.wp_try (wp_statat_reserved hw) (fun e w hw => herror e w hw.1)
  intro normalized w ⟨hw, _⟩
  apply System.wp_try (System.wp_ensure stable_reserved hw) (fun e w hw => herror e w hw.1)
  intro _ w ⟨hw, _⟩
  apply System.wp_try (wp_openDirectoryAt_reserved hw) (fun e w hw => herror e w hw.1)
  intro directory w ⟨hw, hdirectory⟩
  obtain rfl := hdirectory directory rfl
  apply System.wp_try (wp_queries (calls_query _) stable_reserved (fun _ => Reserved.reached) hw)
    herror
  intro opened w hw
  apply System.wp_try (System.wp_ensure stable_reserved hw) (fun e w hw => herror e w hw.1)
  intro _ w ⟨hw, _⟩
  apply System.wp_try (wp_queries (calls_authenticateDirectoryAcl _) stable_reserved
    (fun _ => Reserved.reached) hw) herror
  intro _ w hw
  refine System.wp_done (stable_reserved.and_const _) ⟨hw, ?_⟩
  intro p he
  exact (Except.ok.inj he).symm

/-- A directory that was created is reserved; otherwise nothing but chores has happened. -/
def Created (owned : OwnedPath) (name : String)
    (r : Except IoError (FileIdentity × FileIdentity)) (w : World FileIdentity) : Prop :=
  match r with
  | .ok p => p.1 = p.2 ∧ owned.Reserved name p.2 w
  | .error _ => owned.Chores w.log

theorem wp_createAuthenticatedPrivateDirectory (h : owned.Chores w.log) (name : String) :
    (kernel process owned.directory steady).wp owned.Reached
      (createAuthenticatedPrivateDirectory uid owned.directory owned.boundary name).run
      (owned.Created name) w := by
  have hmkdir : (kernel process owned.directory steady).wp owned.Reached
      (update (.mkdirat owned.directory name 0o700)).run
      (fun r w => owned.Chores w.log ∧ (r = .ok () → ∃ dir, owned.Reserved name dir w)) w := by
    apply wp_update stable_chores _ h
    · intro e w hw
      exact ⟨.searching hw, hw, nofun⟩
    · intro w fate v events hw hperform
      obtain ⟨rfl, hpriv⟩ := private_made hperform
      have hchores := hw.made name fate.identity
      exact ⟨.searching hchores, hchores, fun _ => ⟨fate.identity, hchores, by simp, hpriv⟩⟩
    · intro r w a w' hw ha
      refine ⟨stable_chores w a w' hw.1 ha, fun hr => ?_⟩
      obtain ⟨dir, hdir⟩ := hw.2 hr
      exact ⟨dir, stable_reserved w a w' hdir ha⟩
  apply System.wp_try hmkdir
  · intro e w ⟨hw, _⟩
    exact hw
  intro _ w ⟨_, hw⟩
  obtain ⟨dir, hw⟩ := hw rfl
  have hprovisional : (kernel process owned.directory steady).wp owned.Reached
      ((provisionalIdentity uid owned.directory name).onError
        (ProvisionalPrivateDirectoryGuard.drop uid owned.boundary owned.directory name)).run
      (fun r w => owned.Chores w.log ∧
        ∀ identity, r = .ok identity → identity = dir ∧ owned.Reserved name dir w) w := by
    apply System.wp_onError (wp_provisionalIdentity hw)
    · intro identity w ⟨hw, hdir⟩
      refine ⟨hw.chores, fun identity' he => ?_⟩
      obtain rfl := Except.ok.inj he
      exact ⟨hdir identity rfl, hw⟩
    · intro e w ⟨hw, _⟩
      exact System.wp_mono (wp_dropGuard hw _) fun _ w hw => ⟨hw, nofun⟩
  apply System.wp_try hprovisional
  · intro e w ⟨hw, _⟩
    exact hw
  intro identity w ⟨_, hw⟩
  obtain ⟨rfl, hw⟩ := hw identity rfl
  apply System.wp_onError (wp_normalizedDirectory hw)
  · intro p w ⟨hw, hp⟩
    obtain rfl := hp p rfl
    exact ⟨rfl, hw⟩
  · intro e w ⟨hw, _⟩
    exact wp_dropGuard hw _

/-- The quarantine holds an entry; otherwise nothing but chores has happened. -/
def Caught (owned : OwnedPath) (r : Except IoError (Option UnixQuarantine))
    (w : World FileIdentity) : Prop :=
  match r with
  | .ok (some q) => q.directory = q.identity ∧ ∃ i, owned.Holding q i w
  | .ok none | .error _ => owned.Chores w.log

theorem wp_rename_reserved (h : owned.Reserved name dir w) :
    (kernel process owned.directory steady).wp owned.Reached
      (renameRelativeNoreplace owned.directory owned.publicName dir privateCandidateName).run
      (fun r w => r.casesOn (fun _ => owned.Reserved name dir w)
        fun _ => ∃ i, owned.Holding ⟨name, dir, dir⟩ i w) w := by
  apply wp_update stable_reserved _ h
  · intro e w hw
    exact ⟨hw.reached, hw⟩
  · intro w fate v events hw hperform
    obtain ⟨i, rfl, hpriv⟩ := hw.isPrivate.moveIn hperform
    have hholding : owned.Holding ⟨name, dir, dir⟩ i ⟨v, w.log ++
        [.moved owned.directory owned.publicName dir privateCandidateName i none]⟩ :=
      ⟨⟨w.log, hw.chores, hw.made, hpriv.ne, rfl⟩, hpriv⟩
    exact ⟨.holding _ i hholding, i, hholding⟩
  · intro r w a w' hw ha
    cases r with
    | error e => exact stable_reserved w a w' hw ha
    | ok _ =>
      obtain ⟨i, hw⟩ := hw
      exact ⟨i, stable_holding w a w' hw ha⟩

theorem wp_quarantineEntryLoop (h : owned.Chores w.log) (attempts : ℕ) :
    (kernel process owned.directory steady).wp owned.Reached
      (owned.quarantineEntryLoop uid attempts).run owned.Caught w := by
  -- each attempt starts from chores, and only a collision starts another one
  induction attempts generalizing w with
  | zero => exact System.wp_done stable_chores h
  | succ attempts ih =>
    apply System.wp_try (wp_queries (calls_randomName _ _ _) stable_chores (fun _ => .searching) h)
    · intro e w hw
      exact hw
    intro name w hw
    apply System.wp_lift (wp_createAuthenticatedPrivateDirectory hw name)
    intro created w hw
    cases created with
    | error e =>
      dsimp only
      split
      · exact ih hw
      · exact System.wp_done stable_chores hw
    | ok p =>
      obtain ⟨directory, dir⟩ := p
      obtain ⟨hsame, hw⟩ := hw
      obtain rfl : directory = dir := hsame
      apply System.wp_lift (wp_rename_reserved hw)
      intro renamed w hw
      cases renamed with
      | ok _ =>
        refine System.wp_done ?_ ⟨rfl, hw⟩
        intro w a w' ⟨hq, i, hw⟩ ha
        exact ⟨hq, i, stable_holding w a w' hw ha⟩
      | error e =>
        apply System.wp_lift (wp_dropGuard hw _)
        intro _ w hw
        split
        · exact System.wp_done stable_chores hw
        · exact System.wp_done stable_chores hw

theorem wp_quarantineEntry (h : owned.Chores w.log) :
    (kernel process owned.directory steady).wp owned.Reached
      (owned.quarantineEntry uid).run owned.Caught w := by
  apply System.wp_try (wp_queries (owned.boundary.calls_authenticateRetained uid _) stable_chores
    (fun _ => .searching) h)
  · intro e w hw
    exact hw
  · intro _ w hw
    exact wp_quarantineEntryLoop hw _

theorem wp_quarantineMatches (h : owned.Holding q i w) (hq : q.directory = q.identity) :
    (kernel process owned.directory steady).wp owned.Reached (owned.quarantineMatches q)
      (fun b w => owned.Holding q i w ∧ (b = true → i = owned.identity)) w := by
  have hstat : (kernel process owned.directory steady).wp owned.Reached
      (statat q.directory privateCandidateName).run
      (fun r w => owned.Holding q i w ∧ ∀ stat, r = .ok stat → stat.identity = i) w := by
    apply wp_query (q := .statat q.directory privateCandidateName) stable_holding
      (fun w hw => .holding q i hw) (fun stat => stat.identity = i) _ h
    intro w fate stat hw hfind
    have hentry := statat_eq_ok hfind
    rw [hq, hw.isPrivate.contents, Std.ExtTreeMap.getElem?_insert_self] at hentry
    exact (Option.some.inj hentry).symm
  apply System.wp_bind hstat
  intro r w ⟨hw, hr⟩
  cases r with
  | error e => exact System.wp_done (stable_holding.and_const _) ⟨hw, nofun⟩
  | ok stat =>
    refine System.wp_done (stable_holding.and_const _) ⟨hw, fun hb => ?_⟩
    rw [← hr stat rfl]
    simpa using hb

theorem wp_removePrivateDirectory (h : owned.Emptied q i w) :
    (kernel process owned.directory steady).wp owned.Reached (owned.removePrivateDirectory q).run
      (fun r w => r.casesOn (fun _ => owned.Settled q i w.log)
        fun _ => owned.Finished q i w.log) w := by
  apply System.wp_try (wp_queries (calls_query _) stable_emptied (fun _ => Emptied.reached) h)
  · intro e w hw
    exact hw.settled
  intro stat w hw
  apply System.wp_try (System.wp_ensure stable_emptied hw)
  · intro e w ⟨hw, _⟩
    exact hw.settled
  intro _ w ⟨hw, _⟩
  apply wp_update stable_emptied _ hw
  · intro e w hw
    exact ⟨hw.reached, hw.settled⟩
  · intro w fate v events hw hperform
    obtain rfl := hw.isPrivate.remove hperform
    have hfinished : owned.Finished q i
        (w.log ++ [.removed owned.directory q.name q.identity]) := ⟨w.log, hw.settled, rfl⟩
    exact ⟨.finished q i hfinished, hfinished⟩
  · intro r
    cases r <;> exact stable_log _

/-- The end of a cleanup that caught something. -/
def Concluded (owned : OwnedPath) (q : UnixQuarantine) (i : FileIdentity) (r : Except IoError Unit)
    (w : World FileIdentity) : Prop :=
  match r with
  | .ok _ => owned.Finished q i w.log
  | .error _ => owned.Holding q i w ∨ owned.Settled q i w.log

/-- However a call empties the private directory, it is removed next. -/
theorem wp_emptying {u : Update FileIdentity} (h : owned.Holding q i w)
    (hdone : ∀ w fate v events, owned.Holding q i w →
      u.perform process w.volume fate = some (.ok (v, events)) →
      owned.Emptied q i ⟨v, w.log ++ events⟩) :
    (kernel process owned.directory steady).wp owned.Reached
      (do update u; owned.removePrivateDirectory q : Io Unit).run (owned.Concluded q i) w := by
  have hempty : (kernel process owned.directory steady).wp owned.Reached (update u).run
      (fun r w => r.casesOn (fun _ => owned.Holding q i w) fun _ => owned.Emptied q i w) w := by
    apply wp_update stable_holding _ h
    · intro e w hw
      exact ⟨.holding q i hw, hw⟩
    · intro w fate v events hw hperform
      have hemptied := hdone w fate v events hw hperform
      exact ⟨hemptied.reached, hemptied⟩
    · intro r
      cases r with
      | error e => exact stable_holding
      | ok _ => exact stable_emptied
  apply System.wp_try hempty
  · intro e w hw
    exact .inl hw
  · intro _ w hw
    apply System.wp_mono (wp_removePrivateDirectory hw)
    intro r w hw
    cases r with
    | error e => exact .inr hw
    | ok _ => exact hw

theorem wp_removeQuarantine (h : owned.Holding q i w) (hq : q.directory = q.identity)
    (hi : i = owned.identity) :
    (kernel process owned.directory steady).wp owned.Reached (owned.removeQuarantine q).run
      (owned.Concluded q i) w := by
  apply wp_emptying h
  intro w fate v events hw hperform
  rw [hq] at hperform
  obtain ⟨i', hi', rfl, hpriv⟩ := hw.isPrivate.unlink hperform
  rw [Std.ExtTreeMap.getElem?_insert_self] at hi'
  cases hi'
  rw [erase_insert rfl] at hpriv
  exact ⟨⟨w.log, hw.quarantined, .inl ⟨hi, rfl⟩⟩, hpriv⟩

theorem wp_restoreQuarantine (h : owned.Holding q i w) (hq : q.directory = q.identity) :
    (kernel process owned.directory steady).wp owned.Reached (owned.restoreQuarantine q).run
      (owned.Concluded q i) w := by
  apply wp_emptying h
  intro w fate v events hw hperform
  rw [hq] at hperform
  obtain ⟨i', hi', rfl, hpriv⟩ := hw.isPrivate.moveOut hperform
  rw [Std.ExtTreeMap.getElem?_insert_self] at hi'
  cases hi'
  rw [erase_insert rfl] at hpriv
  exact ⟨⟨w.log, hw.quarantined, .inr rfl⟩, hpriv⟩

/-- What a cleanup returns tells what became of the entry. -/
def Returned (owned : OwnedPath) (result : OwnedPath × Option (List String))
    (w : World FileIdentity) : Prop :=
  result.1.active = false ∧ match result.2 with
    | none => owned.Chores w.log ∨ ∃ q i, owned.Finished q i w.log
    | some path => ∃ q i, path = owned.directoryPath ++ [q.name, privateCandidateName] ∧
        (owned.Holding q i w ∨ owned.Settled q i w.log)

theorem stable_returned (result : OwnedPath × Option (List String)) :
    (kernel process owned.directory steady).Stable (owned.Returned result) := by
  intro w a w' ⟨hactive, h⟩ ha
  have hlog := (disturb_eq_some ha).2
  refine ⟨hactive, ?_⟩
  obtain ⟨owner, path⟩ := result
  cases path with
  | none =>
    subst hlog
    exact h
  | some path =>
    obtain ⟨q, i, hpath, h⟩ := h
    refine ⟨q, i, hpath, ?_⟩
    rcases h with h | h
    · exact .inl (stable_holding w a w' h ha)
    · subst hlog
      exact .inr h

theorem wp_cleanup (h : owned.Chores w.log) :
    (kernel process owned.directory steady).wp owned.Reached (owned.cleanup uid) owned.Returned
      w := by
  unfold cleanup
  split
  · next hactive => exact System.wp_done (stable_returned _) ⟨hactive, .inl h⟩
  · apply System.wp_bind (wp_quarantineEntry h)
    intro caught w hw
    cases caught with
    | error e => exact System.wp_done (stable_returned _) ⟨rfl, .inl hw⟩
    | ok caught =>
      cases caught with
      | none => exact System.wp_done (stable_returned _) ⟨rfl, .inl hw⟩
      | some q =>
        obtain ⟨hq, i, hw⟩ := hw
        apply System.wp_bind (wp_quarantineMatches hw hq)
        intro matched w hmatched
        obtain ⟨hw, hi⟩ := hmatched
        -- both ends conclude the cleanup in the same two ways
        have herror : ∀ (e : IoError) w, owned.Concluded q i (.error e) w →
            (kernel process owned.directory steady).wp owned.Reached
              (.done ({ owned with active := false },
                some (owned.directoryPath ++ [q.name, privateCandidateName]))) owned.Returned w :=
          fun e w hr => System.wp_done (stable_returned _) ⟨rfl, q, i, rfl, hr⟩
        have hok : ∀ w, owned.Concluded q i (.ok ()) w →
            (kernel process owned.directory steady).wp owned.Reached
              (.done ({ owned with active := false }, none)) owned.Returned w :=
          fun w hr => System.wp_done (stable_returned _) ⟨rfl, .inr ⟨q, i, hr⟩⟩
        cases matched with
        | true =>
          apply System.wp_bind (wp_removeQuarantine hw hq (hi rfl))
          intro r w hr
          cases r with
          | error e => exact herror e w hr
          | ok _ => exact hok w hr
        | false =>
          apply System.wp_bind (wp_restoreQuarantine hw hq)
          intro r w hr
          cases r with
          | error e => exact herror e w hr
          | ok _ => exact hok w hr

end OwnedPath

end ChpProxy
