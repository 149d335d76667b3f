import Mathlib.Data.List.Nodup
import ChpProxy.Lib.Text

/-! The text format in which metrics are exposed: comments and samples on lines of their own, in
families. A reader that skips comments and blank lines reads the samples that were written. -/
namespace Exposition

inductive Line where
  | comment (text : List Char)
  | sample (series value : List Char)
  | blank

def Line.text : Line → List Char
  | .comment text => '#' :: ' ' :: text
  | .sample series value => series ++ ' ' :: value
  | .blank => []

def render (lines : List Line) : List Char := lines.flatMap fun line => line.text ++ ['\n']

/-- The sample of a line: a series, and its value after the last space. -/
def readSample (line : List Char) : Option (List Char × List Char) :=
  if line = [] ∨ line.head? = some '#' then none
  else
    let value := Text.afterLast ' ' line
    some (line.take (line.length - value.length - 1), value)

def read (text : List Char) : List (List Char × List Char) :=
  (text.splitOn '\n').filterMap readSample

def Line.sample? : Line → Option (List Char × List Char)
  | .sample series value => some (series, value)
  | _ => none

/-- No text runs into the next line, a series is not taken for a comment, and a value has no
space. -/
def Line.Plain : Line → Prop
  | .comment text => '\n' ∉ text
  | .sample series value => '\n' ∉ series ∧ '\n' ∉ value ∧ ' ' ∉ value ∧
      series ≠ [] ∧ series.head? ≠ some '#'
  | .blank => True

theorem Line.Plain.newline {line : Line} (h : line.Plain) : '\n' ∉ line.text := by
  cases line with
  | comment text =>
    intro hmem
    have hold : '\n' ∈ text := by simpa [Line.text] using hmem
    exact h hold
  | sample series value =>
    obtain ⟨hseries, hvalue, -⟩ := h
    simp [Line.text, hseries, hvalue]
  | blank => simp [Line.text]

theorem readSample_text {line : Line} (h : line.Plain) : readSample line.text = line.sample? := by
  cases line with
  | comment text => simp [readSample, Line.text, Line.sample?]
  | blank => simp [readSample, Line.text, Line.sample?]
  | sample series value =>
    obtain ⟨-, -, hspace, hne, hhash⟩ := h
    have hvalue : Text.afterLast ' ' (series ++ ' ' :: value) = value := by
      rw [Text.afterLast_append, Text.afterLast_of_not_mem hspace]
    have hhead : (series ++ ' ' :: value).head? ≠ some '#' := by
      obtain ⟨c, series, rfl⟩ := List.exists_cons_of_ne_nil hne
      exact hhash
    have hlength : (series ++ ' ' :: value).length - value.length - 1 = series.length := by
      rw [List.length_append, List.length_cons]
      omega
    unfold readSample Line.text Line.sample?
    rw [if_neg (not_or.mpr ⟨by simp, hhead⟩)]
    dsimp only
    rw [hvalue, hlength, List.take_left]

theorem read_render {lines : List Line} (h : ∀ line ∈ lines, line.Plain) :
    read (render lines) = lines.filterMap Line.sample? := by
  induction lines with
  | nil => rfl
  | cons line lines ih =>
    obtain ⟨hline, hlines⟩ := List.forall_mem_cons.mp h
    have hsplit : (render (line :: lines)).splitOn '\n' =
        line.text :: (render lines).splitOn '\n' := by
      have htext : render (line :: lines) = line.text ++ '\n' :: render lines := by
        simp [render]
      rw [htext, List.splitOn_eq_splitOnP, List.splitOn_eq_splitOnP]
      refine List.splitOnP_append_cons_of_forall_mem (fun c hc => ?_) '\n' (by simp) _
      have hne : c ≠ '\n' := by
        rintro rfl
        exact hline.newline hc
      simpa using hne
    have htail : ((render lines).splitOn '\n').filterMap readSample =
        lines.filterMap Line.sample? := ih hlines
    unfold read
    rw [hsplit, List.filterMap_cons, readSample_text hline, htail, List.filterMap_cons]

/-- The samples of one metric under its two comments. -/
structure Family where
  name : List Char
  help : List Char
  kind : List Char
  samples : List (List Char × List Char)

namespace Family

def lines (f : Family) : List Line :=
  [.comment ("HELP ".toList ++ f.name ++ ' ' :: f.help),
    .comment ("TYPE ".toList ++ f.name ++ ' ' :: f.kind)] ++
    f.samples.map (fun s => .sample s.1 s.2) ++ [.blank]

theorem render_lines (f : Family) : render f.lines =
    "# HELP ".toList ++ f.name ++ ' ' :: f.help ++ "\n# TYPE ".toList ++ f.name ++ ' ' :: f.kind ++
      '\n' :: (f.samples.flatMap fun s => s.1 ++ ' ' :: s.2 ++ ['\n']) ++ ['\n'] := by
  simp [render, Family.lines, Line.text, List.flatMap_map]

/-- Every series begins with the family's name, and there are no two of the same series. -/
structure Plain (f : Family) : Prop where
  nonempty : f.name ≠ []
  hash : f.name.head? ≠ some '#'
  name : '\n' ∉ f.name
  help : '\n' ∉ f.help
  kind : '\n' ∉ f.kind
  series : ∀ s ∈ f.samples, f.name <+: s.1 ∧ '\n' ∉ s.1
  value : ∀ s ∈ f.samples, ' ' ∉ s.2 ∧ '\n' ∉ s.2
  nodup : (f.samples.map Prod.fst).Nodup

variable {f : Family}

theorem Plain.lines (h : f.Plain) : ∀ line ∈ f.lines, line.Plain := by
  intro line hline
  simp only [Family.lines, List.mem_append, List.mem_cons, List.mem_map, List.not_mem_nil,
    or_false] at hline
  rcases hline with ((rfl | rfl) | ⟨s, hs, rfl⟩) | rfl
  · simp [Line.Plain, h.name, h.help]
  · simp [Line.Plain, h.name, h.kind]
  · obtain ⟨⟨rest, hrest⟩, hseries⟩ := h.series s hs
    obtain ⟨hspace, hvalue⟩ := h.value s hs
    obtain ⟨c, name, hname⟩ := List.exists_cons_of_ne_nil h.nonempty
    have hhash := h.hash
    rw [hname] at hrest hhash
    refine ⟨hseries, hvalue, hspace, ?_, ?_⟩
    · rw [← hrest]
      exact List.cons_ne_nil _ _
    · rw [← hrest]
      exact hhash
  · trivial

theorem filterMap_lines (f : Family) : f.lines.filterMap Line.sample? = f.samples := by
  have hsamples : (f.samples.map fun s => Line.sample s.1 s.2).filterMap Line.sample? =
      f.samples := by
    rw [List.filterMap_map]
    exact List.filterMap_some
  unfold Family.lines
  rw [List.filterMap_append, List.filterMap_append, hsamples]
  exact List.append_nil _

end Family

variable {families : List Family}

theorem render_families (families : List Family) :
    render (families.flatMap Family.lines) = families.flatMap fun f => render f.lines :=
  List.flatMap_assoc

theorem read_families (h : ∀ f ∈ families, f.Plain) :
    read (render (families.flatMap Family.lines)) = families.flatMap Family.samples := by
  have hplain : ∀ line ∈ families.flatMap Family.lines, line.Plain := by
    intro line hline
    obtain ⟨f, hf, hline⟩ := List.mem_flatMap.mp hline
    exact (h f hf).lines line hline
  rw [read_render hplain, List.filterMap_flatMap]
  congr 1
  funext f
  exact f.filterMap_lines

/-- Families whose names do not begin with one another have no series in common. -/
theorem nodup_series (h : ∀ f ∈ families, f.Plain)
    (hnames : families.Pairwise fun f g => ¬f.name <+: g.name ∧ ¬g.name <+: f.name) :
    ((families.flatMap Family.samples).map Prod.fst).Nodup := by
  rw [List.map_flatMap, List.nodup_flatMap]
  refine ⟨fun f hf => (h f hf).nodup, hnames.imp_of_mem ?_⟩
  intro f g hf hg hne series hseries hseries'
  obtain ⟨s, hs, rfl⟩ := List.mem_map.mp hseries
  obtain ⟨t, ht, hst⟩ := List.mem_map.mp hseries'
  have hleft := ((h f hf).series s hs).1
  have hright := ((h g hg).series t ht).1
  rw [hst] at hright
  rcases List.prefix_or_prefix_of_prefix hleft hright with hfg | hgf
  · exact hne.1 hfg
  · exact hne.2 hgf

end Exposition
