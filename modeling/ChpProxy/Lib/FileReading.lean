import Mathlib.Data.Int.Notation
import ChpProxy.Lib.FileSystem

/-! Opening and reading files relative to open directories while others change the tree at will, and
the octets of the files with it. No call follows a symbolic link. What a program learns is true of
some moment of its run: which entry led where, and which octets a file held. -/
namespace FileReading

open Interaction
open FileSystem (Kind)

structure Snapshot (ι : Type) where
  entry : ι → String → Option ι
  content : ι → List UInt8

structure Attributes (ι : Type) where
  identity : ι
  kind : Kind
  size : ℤ

/-- An open file is its identity. `openPath` opens whatever the entry is, for its attributes
only. -/
inductive Op (ι : Type) where
  | openStart (absolute : Bool)
  | openDirectory (directory : ι) (name : String)
  | openPath (directory : ι) (name : String)
  | openRead (directory : ι) (name : String)
  | fstat (file : ι)
  | read (file : ι) (offset limit : ℕ)

def Op.Value {ι : Type} : Op ι → Type
  | .openStart _ | .openDirectory .. | .openPath .. | .openRead .. => ι
  | .fstat _ => Attributes ι
  | .read .. => List UInt8

abbrev Op.Reply {ι : Type} (op : Op ι) := Option op.Value

/-- Whether a call fails, how much more than one octet a read returns, and the size of what is no
regular file. -/
structure Fate where
  fails : Bool
  count : ℕ
  size : ℤ

/-- Where relative and absolute paths start, and what each file is for good. -/
structure Disk (ι : Type) where
  root : ι
  current : ι
  kind : ι → Kind

def Disk.start {ι : Type} (disk : Disk ι) (absolute : Bool) : ι :=
  if absolute then disk.root else disk.current

/-- What a call finds in a tree. A read returns nothing only at the end of the file. -/
def Op.find {ι : Type} (disk : Disk ι) (t : Snapshot ι) (fate : Fate) : (op : Op ι) → op.Reply
  | .openStart absolute => some (disk.start absolute)
  | .openDirectory d name => (t.entry d name).filter (disk.kind · = .directory)
  | .openPath d name => t.entry d name
  | .openRead d name => (t.entry d name).filter (disk.kind · ≠ .symlink)
  | .fstat file => some ⟨file, disk.kind file,
      if disk.kind file = .regular then (t.content file).length else fate.size⟩
  | .read file offset limit =>
    some (((t.content file).drop offset).take (min limit (fate.count + 1)))

/-- The tree now and what it was before. -/
structure History (ι : Type) where
  now : Snapshot ι
  past : List (Snapshot ι)

def History.Was {ι : Type} (w : History ι) (P : Snapshot ι → Prop) : Prop := ∃ t ∈ w.now :: w.past, P t

/-- Others may make any tree of the one there is, and any call may fail. -/
def system {ι : Type} (disk : Disk ι) : System (History ι) (Snapshot ι) (Op ι) Op.Reply Fate where
  disturb w t := some ⟨t, w.now :: w.past⟩
  answer w op fate := some (w, if fate.fails then none else op.find disk w.now fate)

abbrev Reading (ι α : Type) := Fallible (Op ι) Op.Reply Unit α

section Programs

variable {ι : Type}

def ask (op : Op ι) : Reading ι op.Value :=
  ExceptT.mk (.call op fun reply => .done (reply.elim (.error ()) .ok))

/-- Read to the end, or until the limit is reached. Every read but the last takes an octet off the
limit, so that fuel above the limit is enough. -/
def readToEnd (file : ι) : (fuel limit : ℕ) → (body : List UInt8) → Reading ι (List UInt8)
  | 0, _, body => pure body
  | fuel + 1, limit, body =>
    if limit = 0 then pure body
    else do
      let bytes : List UInt8 ← ask (.read file body.length limit)
      if bytes = [] then pure body
      else readToEnd file fuel (limit - bytes.length) (body ++ bytes)

end Programs

section Rules

variable {ι α : Type} {disk : Disk ι} {w : History ι} {P Q : History ι → Prop}
  {R : Except Unit α → History ι → Prop}

theorem History.Was.later {T : Snapshot ι → Prop} (h : w.Was T) (t : Snapshot ι) :
    History.Was ⟨t, w.now :: w.past⟩ T := by
  obtain ⟨u, hu, hT⟩ := h
  exact ⟨u, List.mem_cons_of_mem _ hu, hT⟩

theorem stable_of_later (h : ∀ w t, P w → P ⟨t, w.now :: w.past⟩) : (system disk).Stable P := by
  intro w t w' hw hd
  obtain rfl := Option.some.inj hd
  exact h w t hw

theorem stable_was (T : Snapshot ι → Prop) : (system disk).Stable fun w => w.Was T :=
  stable_of_later fun _ t h => h.later t

theorem stable_const (C : Prop) : (system disk).Stable fun _ => C := stable_of_later fun _ _ h => h

theorem wp_ask {op : Op ι} {f : op.Value → Reading ι α} (hP : (system disk).Stable P) (h : P w)
    (hfail : (system disk).Stable (R (.error ()))) (herror : ∀ w, P w → R (.error ()) w)
    (hok : ∀ w fate value, P w → op.find disk w.now fate = some value →
      (system disk).wp (fun _ => True) (f value).run R w) :
    (system disk).wp (fun _ => True) (ask op >>= f).run R w := by
  refine System.wp_call (S := system disk) hP h fun w fate w' reply hw ha => ⟨trivial, ?_⟩
  obtain ⟨rfl, hreply⟩ := Prod.mk.inj (Option.some.inj ha)
  cases reply with
  | none => exact System.wp_done hfail (herror w hw)
  | some value =>
    split_ifs at hreply with hfails
    exact hok w fate value hw hreply

/-- What is stable and true before a program is true after it too. -/
theorem wp_frame {β : Type} {p : Program (Op ι) Op.Reply β} {T : β → History ι → Prop}
    (hP : (system disk).Stable P) (h : P w) (hp : (system disk).wp (fun _ => True) p T w) :
    (system disk).wp (fun _ => True) p (fun b w => T b w ∧ P w) w := by
  induction p generalizing w with
  | done b => exact fun w' hw => ⟨hp w' hw, hP.disturbed hw h⟩
  | call op next ih =>
    intro w' fate w'' reply hw ha
    obtain ⟨hI, hnext⟩ := hp w' fate w'' reply hw ha
    obtain ⟨rfl, -⟩ := Prod.mk.inj (Option.some.inj ha)
    exact ⟨hI, ih reply (hP.disturbed hw h) hnext⟩

theorem wp_ensure_bind {c : Bool} {f : Unit → Reading ι α}
    (hfail : (system disk).Stable (R (.error ()))) (herror : R (.error ()) w)
    (hok : c = true → (system disk).wp (fun _ => True) (f ()).run R w) :
    (system disk).wp (fun _ => True) (Fallible.ensure c () >>= f).run R w := by
  cases c with
  | true => exact hok rfl
  | false => exact System.wp_done hfail herror

end Rules

/-- Names that lead from one directory to another, each by an entry of some moment. -/
inductive Leads {ι : Type} (disk : Disk ι) (w : History ι) : ι → List String → ι → Prop
  | here (d : ι) : Leads disk w d [] d
  | entry {d d' e : ι} {name : String} {names : List String}
      (h : w.Was fun t => t.entry d name = some d') (hkind : disk.kind d' = .directory)
      (rest : Leads disk w d' names e) : Leads disk w d (name :: names) e

section Reading

variable {ι : Type} {disk : Disk ι} {w : History ι}

theorem Leads.later {d e : ι} {names : List String} (h : Leads disk w d names e) (t : Snapshot ι) :
    Leads disk ⟨t, w.now :: w.past⟩ d names e := by
  induction h with
  | here d => exact .here d
  | entry h hkind _ ih => exact .entry (h.later t) hkind ih

/-- Every octet was in the file at its place at some moment. -/
def Seen (w : History ι) (file : ι) (body : List UInt8) : Prop :=
  ∀ (k : ℕ) octet, body[k]? = some octet → w.Was fun t => (t.content file)[k]? = some octet

/-- The file had no more octets at some moment. -/
def Ended (w : History ι) (file : ι) (body : List UInt8) : Prop :=
  w.Was fun t => (t.content file).length ≤ body.length

theorem stable_seen (file : ι) (body : List UInt8) :
    (system disk).Stable fun w => Seen w file body :=
  stable_of_later fun _ t h k octet hk => (h k octet hk).later t

theorem Seen.append {file : ι} {body : List UInt8} {t : Snapshot ι} (h : Seen w file body)
    (ht : t ∈ w.now :: w.past) (count : ℕ) :
    Seen w file (body ++ ((t.content file).drop body.length).take count) := by
  intro k octet hk
  rcases Nat.lt_or_ge k body.length with hlt | hge
  · rw [List.getElem?_append_left hlt] at hk
    exact h k octet hk
  · rw [List.getElem?_append_right hge] at hk
    refine ⟨t, ht, ?_⟩
    rw [List.getElem?_take] at hk
    split_ifs at hk
    rw [List.getElem?_drop] at hk
    rwa [Nat.add_sub_cancel' hge] at hk

theorem eq_of_unchanged {file : ι} {body content : List UInt8} (hseen : Seen w file body)
    (hended : Ended w file body) (h : ∀ t ∈ w.now :: w.past, t.content file = content) :
    body = content := by
  refine List.ext_getElem? fun k => ?_
  cases hk : body[k]? with
  | some octet =>
    obtain ⟨t, ht, hoctet⟩ := hseen k octet hk
    rw [← h t ht, hoctet]
  | none =>
    obtain ⟨t, ht, hlength⟩ := hended
    rw [h t ht] at hlength
    exact (List.getElem?_eq_none (Nat.le_trans hlength (List.getElem?_eq_none_iff.mp hk))).symm

theorem wp_readToEnd {file : ι} {fuel limit : ℕ} {body : List UInt8} (hfuel : limit < fuel)
    (h : Seen w file body) :
    (system disk).wp (fun _ => True) (readToEnd file fuel limit body).run
      (fun r w => ∀ out, r = .ok out → Seen w file out ∧
        (out.length < body.length + limit → Ended w file out)) w := by
  induction fuel generalizing limit body w with
  | zero => omega
  | succ fuel ih =>
    have hstop : ∀ (w : History ι) (out : List UInt8), Seen w file out →
        (out.length < body.length + limit → Ended w file out) →
        (system disk).wp (fun _ => True) (pure out : Reading ι (List UInt8)).run
          (fun r w => ∀ out, r = .ok out → Seen w file out ∧
            (out.length < body.length + limit → Ended w file out)) w := by
      intro w out hseen hended
      refine System.wp_done (stable_of_later fun w t hw out hout => ?_) ?_
      · exact ⟨fun k octet hk => ((hw out hout).1 k octet hk).later t,
          fun hlt => ((hw out hout).2 hlt).later t⟩
      · intro out' hout
        obtain rfl := Except.ok.inj hout
        exact ⟨hseen, hended⟩
    unfold readToEnd
    split_ifs with hzero
    · exact hstop w body h (by omega)
    · refine wp_ask (stable_seen file body) h
        (stable_of_later fun _ _ _ _ hout => by cases hout) (fun _ _ _ hout => by cases hout) ?_
      intro w fate bytes hseen hfind
      obtain rfl := Option.some.inj hfind
      have hmem : w.now ∈ w.now :: w.past := List.mem_cons_self
      split_ifs with hempty
      · refine hstop w body hseen fun _ => ⟨w.now, hmem, ?_⟩
        -- a read of at least one octet came back empty
        simpa [hzero] using hempty
      · have hread := hseen.append hmem (min limit (fate.count + 1))
        have hlength : 0 < (((w.now.content file).drop body.length).take
            (min limit (fate.count + 1))).length := List.length_pos_iff.mpr hempty
        have hle : (((w.now.content file).drop body.length).take
            (min limit (fate.count + 1))).length ≤ limit :=
          Nat.le_trans (List.length_take_le ..) (Nat.min_le_left ..)
        refine System.wp_mono (ih (by omega) hread) fun r w hr out hout => ?_
        refine ⟨(hr out hout).1, fun hlt => (hr out hout).2 ?_⟩
        rw [List.length_append]
        omega

end Reading

end FileReading
