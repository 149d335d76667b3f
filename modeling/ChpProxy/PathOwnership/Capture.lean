import ChpProxy.PathOwnership.Guards

/-! What a captured boundary says about the directory at its end. -/
namespace ChpProxy

open FileSystem Interaction Io Fallible

variable {s : Site} {H : Footprint FileIdentity} {n : Node FileIdentity} {α β : Type} {uid : ℕ}

namespace Site

/-- The footprint is known, and the path leads to the directory. -/
def Known (s : Site) (H : Footprint FileIdentity) (w : World FileIdentity) : Prop :=
  Holds s.directory H w ∧ ∀ e ∈ s.route, (w.volume.entries e.1)[e.2.1]? = some e.2.2

theorem stable_known : s.system.Stable (s.Known H) := stable_holds.and stable_route

/-- The program changes nothing, and what it succeeds with is as `R` says. -/
def Finds (s : Site) (H : Footprint FileIdentity) (p : Io α) (R : α → Prop) : Prop :=
  ∀ w, s.Known H w → s.system.wp (fun _ => True) p.run
    (fun r w => s.Known H w ∧ ∀ a, r = .ok a → R a) w

section Rules

variable {p : Io β} {f : β → Io α} {R : β → Prop} {Q : α → Prop}

theorem finds_ok {a : α} (h : Q a) : s.Finds H (ExceptT.mk (.done (.ok a))) Q := by
  have hall : ∀ b, (Except.ok a : Except IoError α) = .ok b → Q b := by
    intro b he
    cases he
    exact h
  intro w hw
  exact System.wp_done (stable_known.and_const _) ⟨hw, hall⟩

theorem finds_error {e : IoError} : s.Finds H (ExceptT.mk (.done (.error e))) Q :=
  fun _ hw => System.wp_done (stable_known.and_const _) ⟨hw, nofun⟩

theorem finds_mono {R' : β → Prop} (h : s.Finds H p R) (hr : ∀ b, R b → R' b) :
    s.Finds H p R' := by
  intro w hw
  apply System.wp_mono (h w hw)
  intro r w ⟨hw, hall⟩
  exact ⟨hw, fun b he => hr b (hall b he)⟩

theorem finds_bind (h : s.Finds H p R) (hf : ∀ b, R b → s.Finds H (f b) Q) :
    s.Finds H (p >>= f) Q := by
  intro w hw
  apply System.wp_try (h w hw)
  · intro e w ⟨hw, _⟩
    exact ⟨hw, nofun⟩
  · intro b w ⟨hw, hb⟩
    exact hf b (hb b rfl) w hw

theorem finds_ensure {c : Bool} {e : IoError} : s.Finds H (ensure c e) (fun _ => c = true) :=
  fun _ hw => System.wp_ensure stable_known hw

theorem finds_ask {q : Query FileIdentity} {next : Call.Reply (.query q) → Sys (Except IoError α)}
    (h : ∀ w fate reply, s.Known H w → q.find s.process w.volume fate = some reply →
      s.Finds H (ExceptT.mk (next reply)) Q)
    (herr : ∀ e, e ≠ .nodata → s.Finds H (ExceptT.mk (next (.error e))) Q) :
    s.Finds H (ExceptT.mk (.call ⟨.query q, false⟩ next)) Q := by
  intro w hw
  apply System.wp_call stable_known hw
  intro w fate w' reply hw ha
  have hanswer : (kernel s.process s.directory true).answer w ⟨.query q, false⟩ fate =
    some (w', reply) := ha
  obtain ⟨rfl, hreply⟩ := answer_query hanswer
  refine ⟨trivial, ?_⟩
  rcases hreply with ⟨e, rfl, hsteady⟩ | hfind
  · exact herr e (hsteady rfl).2 _ hw
  · exact h _ fate reply hw hfind _ hw

theorem finds_query {q : Query FileIdentity} {R : q.Value → Prop}
    (h : ∀ w fate value, s.Known H w → q.find s.process w.volume fate = some (.ok value) →
      R value) : s.Finds H (query q) R := by
  apply finds_ask
  · intro w fate reply hw hfind
    cases reply with
    | error e => exact finds_error
    | ok value => exact finds_ok (h w fate value hw hfind)
  · intro e _
    exact finds_error

end Rules

end Site

open Site

theorem finds_fstat (hd : H s.directory = some n) (x : FileIdentity) :
    s.Finds H (fstat x) fun st => st.identity = x ∧ (x = s.directory →
      st.kind = n.inode.kind ∧ st.owner = n.inode.owner ∧ st.mode = n.inode.mode) := by
  apply finds_query (q := .fstat x)
  intro w fate st hw hfind
  have hstat : w.volume.stat x = .ok st := Option.some.inj hfind
  refine ⟨Volume.identity_of_stat hstat, ?_⟩
  intro hx
  rw [hx, hw.1.stat hd] at hstat
  cases hstat
  exact ⟨rfl, rfl, rfl⟩

theorem finds_fromFile (hd : H s.directory = some n) (x : FileIdentity) :
    s.Finds H (FileIdentity.fromFile x) (· = x) := by
  apply finds_bind (finds_fstat hd x)
  intro st ⟨hst, _⟩
  exact finds_ok hst

theorem finds_authenticateAclAttribute (hd : H s.directory = some n) (x : FileIdentity)
    (name : String) :
    s.Finds H (authenticateAclAttribute x name) fun _ => x = s.directory →
      ¬(name = "system.posix_acl_access" ∧ n.inode.accessAcl ∨
        name = "system.posix_acl_default" ∧ n.inode.defaultAcl) := by
  apply finds_ask
  · intro w fate reply hw hfind
    by_cases hx : x = s.directory
    · subst hx
      simp only [Query.find, hw.1.inodes _ n hd] at hfind
      split_ifs at hfind with hacl
      · obtain rfl := Option.some.inj hfind
        exact finds_error
      · obtain rfl := Option.some.inj hfind
        exact finds_ok fun _ => hacl
    · dsimp only
      split
      · exact finds_error
      · exact finds_error
      · exact finds_ok fun he => absurd he hx
      · exact finds_error
  · intro e hdata
    cases e with
    | nodata => exact absurd rfl hdata
    | _ => exact finds_error

theorem finds_authenticateBoundaryDirectory (hd : H s.directory = some n) (x : FileIdentity) :
    s.Finds H (authenticateBoundaryDirectory uid x) fun authority => x = s.directory →
      Admissible uid n.inode ∧
        authority = ⟨n.inode.owner, n.inode.mode &&& (sticky ||| 0o022)⟩ := by
  apply finds_bind (finds_fstat hd x)
  intro st ⟨_, hst⟩
  apply finds_bind finds_ensure
  intro _ hcheck
  have hacl : s.Finds H (authenticateDirectoryAcl x) fun _ => x = s.directory →
      n.inode.accessAcl = false ∧ n.inode.defaultAcl = false := by
    apply finds_bind (finds_authenticateAclAttribute hd x _)
    intro _ haccess
    apply finds_mono (finds_authenticateAclAttribute hd x _)
    intro _ hdefault hx
    exact ⟨by simpa using haccess hx, by simpa using hdefault hx⟩
  apply finds_bind hacl
  intro _ hacl
  apply finds_ok
  intro hx
  obtain ⟨hkind, howner, hmode⟩ := hst hx
  obtain ⟨haccess, hdefault⟩ := hacl hx
  rw [hkind, howner, hmode, Bool.and_eq_true, beq_iff_eq] at hcheck
  rw [howner, hmode]
  exact ⟨⟨hcheck.1, hcheck.2, haccess, hdefault⟩, rfl⟩

def Captured (s : Site) (uid : ℕ) (inode : Inode) (component : BoundaryComponent) : Prop :=
  Admissible uid inode ∧
    component = ⟨s.directory, inode.owner, inode.mode &&& (sticky ||| 0o022)⟩

namespace AuthenticatedBoundary

/-- The last component is the right one, if the one for `x` is right should `x` be the
directory. -/
theorem finds_captureBelow {v : Volume FileIdentity} (hd : H s.directory = some n)
    (names : List String) (x : FileIdentity) (hwalk : v.walk x names = some s.directory)
    (hroute : ∀ e ∈ v.route x names, e ∈ s.route) :
    s.Finds H (captureBelow uid x names) fun p => p.2 = s.directory ∧
      ∀ component, (x = s.directory → Captured s uid n.inode component) →
        Captured s uid n.inode (p.1.getLast?.elim component (·.2)) := by
  induction names generalizing x with
  | nil =>
    have hx : x = s.directory := Option.some.inj hwalk
    exact finds_ok ⟨hx, fun component h => h hx⟩
  | cons name names ih =>
    obtain ⟨i, hi, hwalk⟩ := Option.bind_eq_some_iff.mp hwalk
    have hcons : v.route x (name :: names) = (x, name, i) :: v.route i names := by
      simp only [Volume.route, hi]
    rw [hcons] at hroute
    have hopen : s.Finds H (openDirectoryAt x name) (· = i) := by
      apply finds_query (q := .openat x name)
      intro w fate child hw hfind
      obtain ⟨child', hchild, hfind⟩ := Result.bind_eq_ok (Option.some.inj hfind)
      obtain ⟨st, -, hfind⟩ := Result.bind_eq_ok hfind
      have hentry := Volume.lookup_eq_ok_iff.mp hchild
      rw [hw.2 (x, name, i) (hroute _ (by simp))] at hentry
      split_ifs at hfind
      exact (Except.ok.inj hfind).symm.trans (Option.some.inj hentry).symm
    apply finds_bind hopen
    intro child hchild
    rw [hchild]
    apply finds_bind (finds_authenticateBoundaryDirectory hd i)
    intro authority hauthority
    apply finds_bind (finds_fromFile hd i)
    intro identity hidentity
    rw [hidentity]
    have hchild : s.Finds H (authenticateChildIdentity x name i) fun _ => True := by
      apply finds_bind (finds_query (q := .statat x name) (R := fun _ => True)
        fun _ _ _ _ _ => trivial)
      intro st _
      exact finds_mono finds_ensure fun _ _ => trivial
    apply finds_bind hchild
    intro _ _
    apply finds_bind (ih i hwalk fun e he => hroute e (by simp [he]))
    intro ⟨below, last⟩ ⟨hlast, hbelow⟩
    refine finds_ok ⟨hlast, fun component _ => ?_⟩
    have hcaptured := hbelow ⟨i, authority.owner, authority.renameAuthority⟩ (by
      intro hx
      obtain ⟨hadmissible, rfl⟩ := hauthority hx
      exact ⟨hadmissible, by rw [hx]⟩)
    rw [List.getLast?_cons]
    cases hlast : below.getLast? with
    | none => simpa [hlast] using hcaptured
    | some entry => simpa [hlast] using hcaptured

/-- The boundary of a path that leads to the directory ends with that directory. -/
theorem finds_capture {v : Volume FileIdentity} {path : List Component} {names : List String}
    (hd : H s.directory = some n) (hnames : s.process.realpath path = some names)
    (hwalk : v.walk s.process.root names = some s.directory)
    (hroute : s.route = v.route s.process.root names) :
    s.Finds H (capture uid path) fun p => p.2 = s.directory ∧
      Authentic uid p.1 s.directory n.inode := by
  have hcanonical : s.Finds H (query (.canonicalize path)) (· = names) := by
    apply finds_query (q := .canonicalize path)
    intro w fate value hw hfind
    simp only [Query.find, hnames] at hfind
    exact (Except.ok.inj (Option.some.inj hfind)).symm
  apply finds_bind hcanonical
  intro names' he
  rw [he]
  have hopen : s.Finds H (query .openRoot) (· = s.process.root) := by
    apply finds_query (q := .openRoot)
    intro w fate value hw hfind
    exact (Except.ok.inj (Option.some.inj hfind)).symm
  apply finds_bind hopen
  intro root he
  rw [he]
  apply finds_bind (finds_authenticateBoundaryDirectory hd _)
  intro authority hauthority
  apply finds_bind (finds_fromFile hd _)
  intro identity hidentity
  rw [hidentity]
  apply finds_bind (finds_captureBelow hd names _ hwalk (by rw [hroute]; exact fun _ h => h))
  intro captured hpost
  obtain ⟨below, last⟩ := captured
  obtain ⟨hlast, hbelow⟩ := hpost
  obtain ⟨hadmissible, hcomponent⟩ := hbelow
    ⟨s.process.root, authority.owner, authority.renameAuthority⟩ (by
      intro hx
      obtain ⟨hadmissible, rfl⟩ := hauthority hx
      exact ⟨hadmissible, by rw [hx]⟩)
  exact finds_ok ⟨hlast, hadmissible, hcomponent⟩

end AuthenticatedBoundary

end ChpProxy
