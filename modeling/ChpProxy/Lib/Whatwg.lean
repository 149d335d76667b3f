import ChpProxy.Lib.Text
import Mathlib.Data.List.Basic

/-! The path of a URL with a special scheme, after the WHATWG URL standard: its segments are settled
one at a time, dots are taken for the current and the parent directory, also when they are escaped,
and backslashes separate like slashes. Characters that have to be escaped are left as they are. -/
namespace Whatwg

def isSingleDot (segment : List Char) : Bool :=
  [".".toList, "%2e".toList].contains (segment.map Char.toLower)

def isDoubleDot (segment : List Char) : Bool :=
  ["..".toList, ".%2e".toList, "%2e.".toList, "%2e%2e".toList].contains
    (segment.map Char.toLower)

/-- A segment that names the current or the parent directory. -/
def isDot (segment : List Char) : Bool := isSingleDot segment || isDoubleDot segment

def NoDots (text : List Char) : Prop := ∀ segment ∈ text.splitOn '/', isDot segment = false

instance (text : List Char) : Decidable (NoDots text) :=
  inferInstanceAs (Decidable (∀ segment ∈ _, _))

/-- One segment more, with those before it in reverse. -/
def keep (settled : List (List Char)) (segment : List Char) : List (List Char) :=
  if isDoubleDot segment then settled.tail
  else if isSingleDot segment then settled else segment :: settled

/-- All segments. Dots at the end leave an empty one. -/
def settle (settled : List (List Char)) : List (List Char) → List (List Char)
  | [] => settled
  | segment :: rest =>
    settle (if rest = [] ∧ isDot segment = true then [] :: keep settled segment
      else keep settled segment) rest

def segments (text : List Char) : List (List Char) :=
  (((text.takeWhile fun c => c ≠ '?' && c ≠ '#').map fun c =>
    if c = '\\' then '/' else c).splitOn '/').tail

/-- The path of a text that follows the authority. -/
def pathname (text : List Char) : List Char :=
  '/' :: Text.join '/' (settle [] (segments text)).reverse

example : pathname "/a/./b/%2e%2E/c?d/..".toList = "/a/c".toList := by decide

example : pathname "/a\\..".toList = "/".toList := by decide

/-- What holds of the empty segment and of every segment without dots holds of all that are
settled. -/
theorem of_mem_settle {P : List Char → Prop} (hempty : P []) {segments : List (List Char)}
    (hsegments : ∀ s ∈ segments, isDot s = false → P s) {settled : List (List Char)}
    (hsettled : ∀ s ∈ settled, P s) : ∀ s ∈ settle settled segments, P s := by
  induction segments generalizing settled with
  | nil => exact hsettled
  | cons segment rest ih =>
    refine ih (fun s hs => hsegments s (List.mem_cons_of_mem _ hs)) ?_
    have hkept : ∀ s ∈ keep settled segment, P s := by
      unfold keep
      split_ifs with hdouble hsingle
      · exact fun s hs => hsettled s (List.mem_of_mem_tail hs)
      · exact hsettled
      · have hdot : isDot segment = false := by simp [isDot, hdouble, hsingle]
        exact List.forall_mem_cons.mpr ⟨hsegments segment List.mem_cons_self hdot, hsettled⟩
    split_ifs
    · exact List.forall_mem_cons.mpr ⟨hempty, hkept⟩
    · exact hkept

theorem mem_of_mem_splitOn {separator : Char} {text part : List Char}
    (h : part ∈ text.splitOn separator) {c : Char} (hc : c ∈ part) :
    c ∈ text ∧ c ≠ separator := by
  induction text generalizing part with
  | nil =>
    obtain rfl : part = [] := by simpa using h
    cases hc
  | cons d text ih =>
    have hrest : ∀ part ∈ text.splitOn separator, c ∈ part → c ∈ d :: text ∧ c ≠ separator :=
      fun part hpart hc => (ih hpart hc).imp_left (List.mem_cons_of_mem d)
    rw [List.splitOn_eq_splitOnP, List.splitOnP_cons_eq_if_modifyHead,
      ← List.splitOn_eq_splitOnP] at h
    split_ifs at h with hd
    · rcases List.mem_cons.mp h with rfl | h
      · cases hc
      · exact hrest part h hc
    · obtain ⟨first, others, hparts⟩ := List.exists_cons_of_ne_nil (List.splitOn_ne_nil separator text)
      rw [hparts] at h hrest
      rcases List.mem_cons.mp h with rfl | h
      · rcases List.mem_cons.mp hc with rfl | hc
        · exact ⟨List.mem_cons_self, by simpa using hd⟩
        · exact hrest first List.mem_cons_self hc
      · exact hrest part (List.mem_cons_of_mem _ h) hc

theorem noDots_join {segments : List (List Char)} (hslash : ∀ s ∈ segments, '/' ∉ s)
    (hdots : ∀ s ∈ segments, isDot s = false) : NoDots ('/' :: Text.join '/' segments) := by
  cases segments with
  | nil => decide
  | cons segment segments =>
    have htext : '/' :: Text.join '/' (segment :: segments) =
        ['/'].intercalate ([] :: segment :: segments) := rfl
    have hall : ∀ s ∈ [] :: segment :: segments, '/' ∉ s :=
      List.forall_mem_cons.mpr ⟨List.not_mem_nil, hslash⟩
    intro part hpart
    rw [htext, List.splitOn_intercalate '/' hall (List.cons_ne_nil _ _)] at hpart
    rcases List.mem_cons.mp hpart with rfl | hpart
    · decide
    · exact hdots part hpart

theorem noDots_tail {text : List Char} (h : NoDots ('/' :: text)) : NoDots text := by
  intro segment hsegment
  refine h segment ?_
  rw [List.splitOn_eq_splitOnP, List.splitOnP_cons_eq_if_modifyHead,
    if_pos (beq_self_eq_true '/'), ← List.splitOn_eq_splitOnP]
  exact List.mem_cons_of_mem _ hsegment

theorem mem_join {c separator : Char} {parts : List (List Char)}
    (h : c ∈ Text.join separator parts) : c = separator ∨ ∃ part ∈ parts, c ∈ part := by
  induction parts with
  | nil => cases h
  | cons part parts ih =>
    cases parts with
    | nil =>
      rw [Text.join, List.intercalate_singleton] at h
      exact .inr ⟨part, List.mem_cons_self, h⟩
    | cons next parts =>
      have htext : Text.join separator (part :: next :: parts) =
          part ++ separator :: Text.join separator (next :: parts) := rfl
      rw [htext, List.mem_append, List.mem_cons] at h
      rcases h with h | rfl | h
      · exact .inr ⟨part, List.mem_cons_self, h⟩
      · exact .inl rfl
      · rcases ih h with hc | ⟨p, hp, hc⟩
        · exact .inl hc
        · exact .inr ⟨p, List.mem_cons_of_mem _ hp, hc⟩

section Pathname

variable {text : List Char}

theorem of_mem_segment {segment : List Char} (h : segment ∈ segments text) {c : Char}
    (hc : c ∈ segment) : c ≠ '/' ∧ c ≠ '?' ∧ c ≠ '#' := by
  obtain ⟨hmem, hne⟩ := mem_of_mem_splitOn (List.mem_of_mem_tail h) hc
  obtain ⟨d, hd, rfl⟩ := List.mem_map.mp hmem
  have htaken : d ≠ '?' ∧ d ≠ '#' := by simpa using List.mem_takeWhile_imp hd
  split_ifs at hne ⊢ with hback
  · exact absurd rfl hne
  · exact ⟨hne, htaken⟩

theorem of_mem_settled {segment : List Char} (h : segment ∈ (settle [] (segments text)).reverse) :
    isDot segment = false ∧ ∀ c ∈ segment, c ≠ '/' ∧ c ≠ '?' ∧ c ≠ '#' := by
  have hall : ∀ s ∈ settle [] (segments text),
      isDot s = false ∧ ∀ c ∈ s, c ≠ '/' ∧ c ≠ '?' ∧ c ≠ '#' := by
    refine of_mem_settle ⟨by decide, by simp⟩ (fun s hs hdot => ?_) (by simp)
    exact ⟨hdot, fun c hc => of_mem_segment hs hc⟩
  exact hall segment (List.mem_reverse.mp h)

theorem noDots_pathname (text : List Char) : NoDots (pathname text) :=
  noDots_join (fun _ hs hslash => ((of_mem_settled hs).2 '/' hslash).1 rfl)
    fun _ hs => (of_mem_settled hs).1

theorem not_mem_pathname (text : List Char) : '?' ∉ pathname text ∧ '#' ∉ pathname text := by
  have hother : ∀ c ∈ pathname text, c = '/' ∨ c ≠ '?' ∧ c ≠ '#' := by
    intro c hc
    rcases List.mem_cons.mp hc with rfl | hc
    · exact .inl rfl
    · rcases mem_join hc with rfl | ⟨s, hs, hc⟩
      · exact .inl rfl
      · exact .inr ((of_mem_settled hs).2 c hc).2
  refine ⟨fun h => ?_, fun h => ?_⟩
  · exact (hother '?' h).elim (by decide) fun hne => hne.1 rfl
  · exact (hother '#' h).elim (by decide) fun hne => hne.2 rfl

end Pathname

end Whatwg
