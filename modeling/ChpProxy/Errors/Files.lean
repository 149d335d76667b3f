import ChpProxy.Errors.Response
import ChpProxy.Lib.FileSystem
import ChpProxy.Lib.FileReading

/-! The pages of the error renderer. Those in the configured directory are read while others may
change the directory at will. -/
namespace ChpProxy

open FileSystem (Component)
open FileReading Interaction

namespace Errors

section Files

variable {ι : Type} [DecidableEq ι]

def isAbsolute (root : List Component) : Bool := root.head? = some .rootDir

/-- The number of `Path::components`: empty segments do not count, and `.` only at the front of a
relative path. -/
def componentCount (path : String) : ℕ :=
  let segments := path.toList.splitOn '/'
  let leading := segments.head? = some [] ∧ path ≠ "" ∨ segments.head? = some ['.']
  (if leading then 1 else 0) + segments.countP fun segment => segment ≠ [] ∧ segment ≠ ['.']

def descend (directory : ι) : List Component → Reading ι ι
  | [] => pure directory
  | .rootDir :: rest | .curDir :: rest => descend directory rest
  | .normal name :: rest => do
    let directory : ι ← ask (.openDirectory directory name)
    descend directory rest
  | .parentDir :: _ => throw ()

def openBoundedRegularFile (root : List Component) (filename : String) : Reading ι ι := do
  let directory : ι ← ask (.openStart (isAbsolute root))
  let directory ← descend directory root
  let statOnly : ι ← ask (.openPath directory filename)
  let before : Attributes ι ← ask (.fstat statOnly)
  Fallible.ensure (before.kind = .regular && !(before.size < 0) &&
    !(before.size.toNat > maxErrorBodyBytes)) ()
  let readable : ι ← ask (.openRead directory filename)
  let after : Attributes ι ← ask (.fstat readable)
  Fallible.ensure (before.identity = after.identity && after.kind = .regular) ()
  return readable

def readBoundedFileSync (root : List Component) (filename : String) : Reading ι (List UInt8) := do
  Fallible.ensure (componentCount filename = 1) ()
  let file ← openBoundedRegularFile root filename
  let metadata : Attributes ι ← ask (.fstat file)
  Fallible.ensure (!(metadata.size.toNat > maxErrorBodyBytes)) ()
  let body ← readToEnd file (maxErrorBodyBytes + 2) (maxErrorBodyBytes + 1) []
  Fallible.ensure (body.length ≤ maxErrorBodyBytes) ()
  return body

end Files

def chp404Html : String :=
  "<!doctype html>\n<html>\n  <head>\n    <meta charset=\"utf-8\" />\n" ++
  "    <title>404: Not Found</title>\n  </head>\n\n  <body>\n    <h1>404: Not Found</h1>\n" ++
  "    <p>No service is registered at this URL</p>\n    <hr />\n" ++
  "    <p>configurable-http-proxy</p>\n  </body>\n</html>\n"

def chp503Html : String :=
  "<!doctype html>\n<html>\n  <head>\n    <meta charset=\"utf-8\" />\n" ++
  "    <title>503: Proxy Target Missing</title>\n  </head>\n\n  <body>\n" ++
  "    <h1>503: Proxy Target Missing</h1>\n    <p>The upstream service is unavailable</p>\n" ++
  "    <hr />\n    <p>configurable-http-proxy</p>\n  </body>\n</html>\n"

section Rendering

-- `StatusCode::canonical_reason`
variable (canonicalReason : ℕ → Option String)

def reasonPhrase (status : ℕ) : RenderedError :=
  ⟨((canonicalReason status).getD "Unknown Error").toUTF8.toList, none, none⟩

def textHtml (body : List UInt8) : RenderedError := ⟨body, some "text/html".toUTF8.toList, none⟩

def pageNames (status : ℕ) : List String := [toString status ++ ".html", "error.html"]

variable {ι : Type} [DecidableEq ι]

def renderFile (root : List Component) (status : ℕ) :
    List String → Program (Op ι) Op.Reply RenderedError
  | [] => .done (reasonPhrase canonicalReason status)
  | filename :: rest => (readBoundedFileSync root filename).run.bind fun
    | .ok body => .done (textHtml body)
    | .error () => renderFile root status rest

/-- `custom` is what `custom_error` gave, if there is an error target. -/
def render (custom : Option (Option RenderedError)) (errorPath : Option (List Component))
    (status : ℕ) : Program (Op ι) Op.Reply RenderedError :=
  match custom with
  | some rendered => .done (rendered.getD (reasonPhrase canonicalReason status))
  | none => match errorPath with
    | some root => renderFile canonicalReason root status (pageNames status)
    | none => .done (if status = 404 then textHtml chp404Html.toUTF8.toList
      else if status = 503 then textHtml chp503Html.toUTF8.toList
      else reasonPhrase canonicalReason status)

end Rendering

/-- The names that the components of a path stand for; a path with `..` is refused. -/
def rootNames : List Component → Option (List String)
  | [] => some []
  | .rootDir :: rest | .curDir :: rest => rootNames rest
  | .normal name :: rest => (rootNames rest).map (name :: ·)
  | .parentDir :: _ => none

/-- A regular file had this name in the directory that the names of the root led to. -/
def Found {ι : Type} (disk : Disk ι) (w : History ι) (root : List Component) (filename : String)
    (file : ι) : Prop :=
  ∃ names directory, rootNames root = some names ∧
    Leads disk w (disk.start (isAbsolute root)) names directory ∧
    (w.Was fun t => t.entry directory filename = some file) ∧ disk.kind file = .regular

section Specifications

variable {ι : Type} [DecidableEq ι] {disk : Disk ι} {w : History ι} {root : List Component}
  {filename : String}

omit [DecidableEq ι] in
theorem Found.later {file : ι} (h : Found disk w root filename file) (t : Snapshot ι) :
    Found disk ⟨t, w.now :: w.past⟩ root filename file := by
  obtain ⟨names, directory, hnames, hleads, hentry, hkind⟩ := h
  exact ⟨names, directory, hnames, hleads.later t, hentry.later t, hkind⟩

omit [DecidableEq ι] in
theorem wp_descend (directory : ι) :
    (system disk).wp (fun _ => True) (descend directory root).run
      (fun r w => ∀ file, r = .ok file → ∃ names, rootNames root = some names ∧
        Leads disk w directory names file) w := by
  induction root generalizing directory w with
  | nil =>
    refine System.wp_done (stable_of_later fun w t hw file hfile => ?_) fun file hfile => ?_
    · obtain ⟨names, hnames, hleads⟩ := hw file hfile
      exact ⟨names, hnames, hleads.later t⟩
    · obtain rfl := Except.ok.inj hfile
      exact ⟨[], rfl, .here _⟩
  | cons component rest ih =>
    cases component with
    | rootDir | curDir => exact ih directory
    | parentDir =>
      exact System.wp_done (stable_of_later fun _ _ _ _ hfile => by cases hfile)
        fun _ hfile => by cases hfile
    | normal name =>
      refine wp_ask (stable_const True) trivial
        (stable_of_later fun _ _ _ _ hfile => by cases hfile) (fun _ _ _ hfile => by cases hfile) ?_
      intro w fate (next : ι) _ hfind
      obtain ⟨hentry, hkind⟩ := Option.filter_eq_some_iff.mp hfind
      have hwas : w.Was fun t => t.entry directory name = some next :=
        ⟨w.now, List.mem_cons_self, hentry⟩
      refine System.wp_mono (wp_frame (stable_was _) hwas (ih next)) fun r w hr file hfile => ?_
      obtain ⟨names, hnames, hleads⟩ := hr.1 file hfile
      exact ⟨name :: names, by rw [rootNames, hnames]; rfl,
        .entry hr.2 (by simpa using hkind) hleads⟩

theorem wp_openBoundedRegularFile :
    (system disk).wp (fun _ => True) (openBoundedRegularFile root filename).run
      (fun r w => ∀ file, r = .ok file → Found disk w root filename file) w := by
  have hfail : (system disk).Stable fun w =>
      ∀ file, (.error () : Except Unit ι) = .ok file → Found disk w root filename file :=
    stable_of_later fun _ _ _ _ hfile => by cases hfile
  have hnone : ∀ w file, (.error () : Except Unit ι) = .ok file →
      Found disk w root filename file := fun _ _ hfile => by cases hfile
  refine wp_ask (stable_const True) trivial hfail (fun w _ => hnone w) ?_
  intro w fate start _ hstart
  obtain rfl := Option.some.inj hstart
  refine System.wp_try (wp_descend (disk.start (isAbsolute root))) (fun _ w _ => hnone w) ?_
  intro directory w hdescended
  obtain ⟨names, hnames, hleads⟩ := hdescended directory rfl
  have hstable : (system disk).Stable fun w =>
      Leads disk w (disk.start (isAbsolute root)) names directory :=
    stable_of_later fun _ t h => h.later t
  -- the first open tells which file it is, and the second must give the same one
  refine wp_ask hstable hleads hfail (fun w _ => hnone w) ?_
  intro w fate (statOnly : ι) hleads hentry
  have hwas : w.Was fun t => t.entry directory filename = some statOnly :=
    ⟨w.now, List.mem_cons_self, hentry⟩
  have hstable' : (system disk).Stable fun w =>
      Leads disk w (disk.start (isAbsolute root)) names directory ∧
        w.Was fun t => t.entry directory filename = some statOnly := hstable.and (stable_was _)
  refine wp_ask hstable' ⟨hleads, hwas⟩ hfail (fun w _ => hnone w) ?_
  intro w fate before hw hbefore
  obtain rfl := Option.some.inj hbefore
  refine wp_ensure_bind hfail (hnone w) fun hregular => ?_
  refine wp_ask hstable' hw hfail (fun w _ => hnone w) ?_
  intro w fate (readable : ι) hw _
  refine wp_ask hstable' hw hfail (fun w _ => hnone w) ?_
  intro w fate after hw hafter
  obtain rfl := Option.some.inj hafter
  refine wp_ensure_bind hfail (hnone w) fun hsame => ?_
  refine System.wp_done (stable_of_later fun w t h file hfile => (h file hfile).later t) ?_
  intro file hfile
  obtain rfl := Except.ok.inj hfile
  have hidentity : statOnly = readable := by simpa using (Bool.and_eq_true_iff.mp hsame).1
  have hkind : disk.kind readable = .regular := by simpa using (Bool.and_eq_true_iff.mp hsame).2
  exact ⟨names, directory, hnames, hw.1, hidentity ▸ hw.2, hkind⟩

/-- What a page of the configured directory is: at most 1 MiB of a regular file, read to its end. -/
structure Read (disk : Disk ι) (w : History ι) (root : List Component) (filename : String) (file : ι)
    (body : List UInt8) : Prop where
  found : Found disk w root filename file
  bounded : body.length ≤ maxErrorBodyBytes
  seen : Seen w file body
  ended : Ended w file body

omit [DecidableEq ι] in
theorem Read.later {file : ι} {body : List UInt8} (h : Read disk w root filename file body)
    (t : Snapshot ι) : Read disk ⟨t, w.now :: w.past⟩ root filename file body :=
  ⟨h.found.later t, h.bounded, fun k octet hk => (h.seen k octet hk).later t, h.ended.later t⟩

theorem wp_readBoundedFileSync :
    (system disk).wp (fun _ => True) (readBoundedFileSync root filename).run
      (fun r w => ∀ body, r = .ok body → ∃ file, Read disk w root filename file body) w := by
  have hfail : (system disk).Stable fun w => ∀ body, (.error () : Except Unit (List UInt8)) =
      .ok body → ∃ file, Read disk w root filename file body :=
    stable_of_later fun _ _ _ _ hbody => by cases hbody
  have hnone : ∀ w body, (.error () : Except Unit (List UInt8)) = .ok body →
      ∃ file, Read disk w root filename file body := fun _ _ hbody => by cases hbody
  refine wp_ensure_bind hfail (hnone w) fun _ => ?_
  refine System.wp_try wp_openBoundedRegularFile (fun _ w _ => hnone w) ?_
  intro file w hopened
  have hfound := hopened file rfl
  have hstable : (system disk).Stable fun w => Found disk w root filename file :=
    stable_of_later fun _ t h => h.later t
  refine wp_ask hstable hfound hfail (fun w _ => hnone w) ?_
  intro w fate metadata hfound _
  refine wp_ensure_bind hfail (hnone w) fun _ => ?_
  have hempty : Seen w file [] := fun k octet hk => by simp at hk
  refine System.wp_try (wp_frame hstable hfound (wp_readToEnd (by omega) hempty))
    (fun _ w _ => hnone w) ?_
  intro body w hbody
  obtain ⟨hseen, hended⟩ := hbody.1 body rfl
  refine wp_ensure_bind hfail (hnone w) fun hbound => ?_
  have hle : body.length ≤ maxErrorBodyBytes := by simpa using hbound
  refine System.wp_done (stable_of_later fun w t h body hb => ?_) fun body' hb => ?_
  · obtain ⟨file, hfile⟩ := h body hb
    exact ⟨file, hfile.later t⟩
  · obtain rfl := Except.ok.inj hb
    refine ⟨file, hbody.2, hle, hseen, hended ?_⟩
    rw [List.length_nil]
    omega

theorem wp_renderFile (canonicalReason : ℕ → Option String) (status : ℕ) (filenames : List String) :
    (system disk).wp (fun _ => True) (renderFile canonicalReason root status filenames)
      (fun page w => page = reasonPhrase canonicalReason status ∨ ∃ filename ∈ filenames,
        ∃ file body, Read disk w root filename file body ∧ page = textHtml body) w := by
  induction filenames generalizing w with
  | nil =>
    refine System.wp_done (stable_of_later fun w t h => ?_) (.inl rfl)
    rcases h with hreason | ⟨filename, hmem, -⟩
    · exact .inl hreason
    · cases hmem
  | cons filename rest ih =>
    refine System.wp_bind wp_readBoundedFileSync fun r w hr => ?_
    cases r with
    | ok body =>
      obtain ⟨file, hread⟩ := hr body rfl
      refine System.wp_done (stable_of_later fun w t h => ?_)
        (.inr ⟨filename, List.mem_cons_self, file, body, hread, rfl⟩)
      rcases h with hreason | ⟨filename, hmem, file, body, hread, hpage⟩
      · exact .inl hreason
      · exact .inr ⟨filename, hmem, file, body, hread.later t, hpage⟩
    | error e =>
      refine System.wp_mono ih fun page w hpage => ?_
      rcases hpage with hreason | ⟨filename', hmem, hfile⟩
      · exact .inl hreason
      · exact .inr ⟨filename', List.mem_cons_of_mem _ hmem, hfile⟩

end Specifications

/-- Whatever others do to the file system meanwhile, and whichever calls fail, an error page of the
configured directory is the reason phrase, or at most 1 MiB of a regular file that was found under
the name of the status or `error.html` in that directory, without a symbolic link and without `..`
on the way. Each octet of it was in the file at its place, and if the file did not change the page
is the whole file. -/
theorem pages_confined {ι : Type} [DecidableEq ι] (disk : Disk ι)
    (canonicalReason : ℕ → Option String) (root : List Component) (status : ℕ) {t : Snapshot ι}
    {w : History ι} {page : RenderedError} {turns : List (Turn (Snapshot ι) Fate)}
    (h : (system disk).run (⟨t, []⟩, render canonicalReason none (some root) status) turns =
      some (w, .done page)) :
    page = reasonPhrase canonicalReason status ∨ ∃ filename ∈ pageNames status, ∃ file body,
      page = textHtml body ∧ Found disk w root filename file ∧
      body.length ≤ maxErrorBodyBytes ∧ Seen w file body ∧
      ∀ content, (∀ t ∈ w.now :: w.past, t.content file = content) → body = content := by
  -- nothing depends on which names are tried
  change (system disk).run (_, renderFile canonicalReason root status (pageNames status)) turns =
    some (w, .done page) at h
  generalize pageNames status = filenames at h ⊢
  have hwp := (System.wp_run (stable_const True) trivial
    (wp_renderFile canonicalReason status filenames) h).2
  rcases System.post_of_wp_done hwp with hreason | ⟨filename, hmem, file, body, hread, hpage⟩
  · exact .inl hreason
  · exact .inr ⟨filename, hmem, file, body, hpage, hread.found, hread.bounded, hread.seen,
      fun _ hsame => eq_of_unchanged hread.seen hread.ended hsame⟩

/-- File 0 is the root, 1 the directory of the pages and 2 a page. -/
def sampleDisk : Disk ℕ := ⟨0, 0, fun file => if file = 2 then .regular else .directory⟩

/-- The content of the page is there or, after it was taken away, not. -/
def sampleSnapshot (there : Bool) : Snapshot ℕ where
  entry d _ := if d = 0 then some 1 else if there then some 2 else none
  content _ := [0x68, 0x69]

/-- The page is taken away when it is open, and read octet by octet. -/
def takenAway : List (Turn (Snapshot ℕ) Fate) :=
  List.replicate 6 (.own ⟨false, 0, 0⟩) ++ [.others (sampleSnapshot false)] ++
    List.replicate 4 (.own ⟨false, 0, 0⟩)

theorem pages_confined_taken_away : ∃ w,
    (system sampleDisk).run (⟨sampleSnapshot true, []⟩,
      render (fun _ => none) none (some [.rootDir, .normal "errors"]) 404) takenAway =
        some (w, .done (textHtml [0x68, 0x69])) ∧
    ∃ filename ∈ pageNames 404, ∃ file,
      Found sampleDisk w [.rootDir, .normal "errors"] filename file ∧
        Seen w file [0x68, 0x69] := by
  have hrun : (system sampleDisk).run (⟨sampleSnapshot true, []⟩,
      render (fun _ => none) none (some [.rootDir, .normal "errors"]) 404) takenAway =
        some (⟨sampleSnapshot false, [sampleSnapshot true]⟩, .done (textHtml [0x68, 0x69])) := rfl
  refine ⟨_, hrun, ?_⟩
  rcases pages_confined sampleDisk _ _ 404 hrun with hreason | ⟨filename, hmem, file, body, hpage,
    hfound, -, hseen, -⟩
  · cases congrArg RenderedError.contentType hreason
  · obtain rfl := (RenderedError.mk.inj hpage).1
    exact ⟨filename, hmem, file, hfound, hseen⟩

end Errors

end ChpProxy
