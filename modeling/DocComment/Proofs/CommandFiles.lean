import DocComment.Command.Run
import DocComment.Proofs.CommandTree
import DocComment.Proofs.CommandWords
import DocComment.Proofs.NewlineStyle
import DocComment.Proofs.RecordText
import Mathlib

/-!
# The files of a command

A run of the command changes no file, or it has an answer and puts that into one file.

* `fulfil_all_or_nothing` follows a request to its end.  Whether the answer goes to a file or to the
  standard output, it is the same text, and as JSON it is loaded as what the input documents
  (`load_written`); that newlines are unified when the input is read makes no difference
  (`parse_unifyNewlines`).
* `run_all_or_nothing` says so of the words of a command, where the request for the standard output
  is made by the words without the output.  The file is the one that the last output names, by its
  path from the root (`Tree.named`).  Directories that were made for it remain even where it cannot
  be written, so a run that fails keeps the files, but not always the tree.
* A run that starts in a consistent tree ends in one (`run_consistent`).  There the file that was
  written is found under the words that named it (`run_written_found`).
-/

namespace DocComment.Command

open Text

/-! ## Results -/

/-- The comment of a file is parsed as if its newlines had not been unified on the way. -/
theorem parse_unifyNewlines (maxNesting : Int) (text : String) :
    (sectionReader maxNesting).parse (some (String.ofList (unifyNewlines text.toList)))
      = (sectionReader maxNesting).parse (some text) :=
  SectionReader.parse_congr _ (Markdown.read_unifyNewlines (some maxNesting) text)

/-- A request fails and touches nothing, or the comment of its file documents something, which is
written and delivered. -/
theorem fulfil_cases (request : Request) (tree : Tree) :
    ((fulfil request tree).exitCode ≠ 0 ∧ (fulfil request tree).tree = tree)
      ∨ ∃ text documentation log, String.fromUTF8? request.content = some text
        ∧ (sectionReader request.maxNesting).parse (some text) = .ok documentation
        ∧ fulfil request tree = deliver request log (written request documentation) tree
        ∧ fulfil { request with output := none } tree
          = { stdout := written request documentation, stderr := log, tree } := by
  cases htext : String.fromUTF8? request.content with
  | none => exact .inl (by simp [fulfil, htext])
  | some text =>
      have hparse := parse_unifyNewlines request.maxNesting text
      rw [SectionReader.parse] at hparse
      cases hrun : (sectionReader request.maxNesting).run
          (some (String.ofList (unifyNewlines text.toList))) with
      | mk outcome progress =>
          rw [hrun] at hparse
          cases outcome with
          | error failure => exact .inl (by simp [fulfil, htext, hrun])
          | ok documentation =>
              refine .inr ⟨text, documentation, logLines request.verbose progress.log, rfl,
                hparse.symm, ?_, ?_⟩
              · simp [fulfil, htext, hrun]
              · simp [fulfil, htext, hrun, deliver, written]

/-- A request was answered with this text: a file that the output names holds it, and every other
file is as it was; and if it is JSON, it is loaded as the documentation of the comment in the input
file, whose newlines have not been unified. -/
structure Request.Answered (request : Request) (before after : Tree) (answer : String) : Prop where
  put : ∀ path ∈ request.output, before.OnlyPut after (before.named path) answer.toUTF8
  record : request.format = .json → ∃ text documentation,
    String.fromUTF8? request.content = some text
      ∧ (sectionReader request.maxNesting).parse (some text) = .ok documentation
      ∧ ∀ other : Documentation, Payload.load answer = .ok other.toPayload ↔ other = documentation

/-- What goes to a file is written there, unless that fails. -/
theorem deliver_file {request : Request} {path : String} (h : request.output = some path)
    (log : List String) (result : String) (tree : Tree) :
    (deliver request log result tree).tree = (tree.write path result).1
      ∧ ((deliver request log result tree).exitCode = 0 ↔ (tree.write path result).2 = none) := by
  rw [deliver, h]
  rcases hwrite : tree.write path result with ⟨changed, error | error⟩
  · simp [hwrite]
  · simp [hwrite]

theorem load_written {request : Request} (h : request.format = .json) (d other : Documentation) :
    Payload.load (written request d) = .ok other.toPayload ↔ other = d := by
  rw [written, h]
  exact Documentation.load_line_iff _ d other

/-- **A request is answered or changes no file.**  The answer is what the same request prints where
it goes to the standard output. -/
theorem fulfil_all_or_nothing (request : Request) (tree : Tree) :
    ((fulfil request tree).exitCode ≠ 0 ∧ (fulfil request tree).tree.files = tree.files)
      ∨ (fulfil request tree).exitCode = 0
        ∧ (fulfil { request with output := none } tree).exitCode = 0
        ∧ (fulfil { request with output := none } tree).tree = tree
        ∧ request.Answered tree (fulfil request tree).tree
            (fulfil { request with output := none } tree).stdout := by
  rcases fulfil_cases request tree with
    ⟨hfail, hsame⟩ | ⟨text, d, log, htext, hparse, hrun, hprinted⟩
  · exact .inl ⟨hfail, by rw [hsame]⟩
  have hrecord (hjson : request.format = .json) : ∃ text documentation,
      String.fromUTF8? request.content = some text
        ∧ (sectionReader request.maxNesting).parse (some text) = .ok documentation
        ∧ ∀ other : Documentation,
          Payload.load (written request d) = .ok other.toPayload ↔ other = documentation :=
    ⟨text, d, htext, hparse, load_written hjson d⟩
  rw [hrun, hprinted]
  cases houtput : request.output with
  | none =>
      have hdelivered : (deliver request log (written request d) tree).exitCode = 0 := by
        rw [deliver, houtput]
      exact .inr ⟨hdelivered, rfl, rfl, by simp [houtput], hrecord⟩
  | some path =>
      obtain ⟨hchanged, hexit⟩ := deliver_file houtput log (written request d) tree
      rw [hchanged, Ne, hexit]
      rcases tree.write_cases path (written request d) with hfail | ⟨hwritten, hput⟩
      · exact .inl hfail
      · refine .inr ⟨hwritten, rfl, rfl, fun other hother => ?_, hrecord⟩
        obtain rfl : path = other := Option.some.inj (houtput.symm.trans hother)
        exact hput

/-- A request leaves the files alone, or writes to them once. -/
theorem fulfil_tree (request : Request) (tree : Tree) :
    (fulfil request tree).tree = tree
      ∨ ∃ path result, (fulfil request tree).tree = (tree.write path result).1 := by
  rcases fulfil_cases request tree with ⟨-, hsame⟩ | ⟨text, d, log, -, -, hrun, -⟩
  · exact .inl hsame
  rw [hrun]
  cases houtput : request.output with
  | none => exact .inl (by rw [deliver, houtput])
  | some path => exact .inr ⟨path, written request d, (deliver_file houtput log _ tree).1⟩

/-- What a request puts into a file is found under the output that names it. -/
theorem fulfil_found {request : Request} {tree : Tree} (h : tree.Consistent) {path : String}
    (houtput : request.output = some path)
    (hname : (slashParts path).getLast? = some (fileName path))
    (hexit : (fulfil request tree).exitCode = 0) :
    (fulfil request tree).tree.lookup path
      = .file (fulfil { request with output := none } tree).stdout.toUTF8 := by
  rcases fulfil_cases request tree with ⟨hfail, -⟩ | ⟨text, d, log, -, -, hrun, hprinted⟩
  · exact absurd hexit hfail
  obtain ⟨hchanged, hwritten⟩ := deliver_file houtput log (written request d) tree
  rw [hrun, hwritten] at hexit
  rw [hrun, hprinted, hchanged]
  exact Tree.lookup_write h hname hexit

/-! ## Runs -/

/-- A run depends on what the words are scanned to. -/
theorem run_congr {words others : List String} (h : scan words = scan others) (tree : Tree) :
    run words tree = run others tree := by
  rw [run, run, h]

section Scanned

variable {words : List String} {found : Scan} (h : scan words = .ok found) {tree : Tree}

include h

theorem run_help (hhelp : found.has .help = true) :
    run words tree = { stdout := helpText, tree } := by
  simp only [run, h, hhelp, if_true]

theorem run_request (hhelp : found.has .help = false) {request : Request}
    (hrequest : found.request tree = .ok request) : run words tree = fulfil request tree := by
  simp only [run, h, hhelp, Bool.false_eq_true, if_false, hrequest]

theorem run_refused (hhelp : found.has .help = false) {error : UsageError}
    (hrequest : found.request tree = .error error) :
    (run words tree).exitCode = 2 ∧ (run words tree).tree = tree := by
  simp [run, h, hhelp, hrequest]

end Scanned

/-- A request is for the file that the first argument names, and for the output that was given
last. -/
theorem request_ok {found : Scan} {tree : Tree} {request : Request}
    (h : found.request tree = .ok request) :
    tree.lookup request.inputPath = .file request.content
      ∧ request.output = found.value? .output := by
  rw [Scan.request] at h
  obtain ⟨-, -, h⟩ := bind_eq_ok h
  obtain ⟨⟨path, content⟩, hinput, h⟩ := bind_eq_ok h
  cases hextra : found.arguments.drop 1 with
  | cons argument arguments =>
      rw [hextra] at h
      cases h
  | nil =>
      rw [hextra] at h
      obtain ⟨format, -, h⟩ := bind_eq_ok h
      obtain ⟨indent, -, h⟩ := bind_eq_ok h
      obtain ⟨maxNesting, -, h⟩ := bind_eq_ok h
      cases h
      rw [Scan.input] at hinput
      split at hinput
      · cases hinput
      · split at hinput
        · cases hinput
        · cases hinput
        · next hlookup =>
            cases hinput
            exact ⟨hlookup, rfl⟩

/-- Without an output there is nothing to drop. -/
theorem Scan.withoutOutput_of_none {found : Scan} (h : found.value? .output = none) :
    found.withoutOutput = found := by
  have hothers : ∀ setting ∈ found.settings, setting.isOther = true := by
    intro setting hsetting
    rw [Scan.value?, Option.map_eq_none_iff, List.find?_eq_none] at h
    simpa [Setting.isOther] using h setting (List.mem_reverse.mpr hsetting)
  rw [Scan.withoutOutput, List.filter_eq_self.mpr hothers]

/-- The words without the output make the same run where help is asked for or no output is given. -/
theorem run_withoutOutput {words : List String} {found : Scan} (h : scan words = .ok found)
    (hnone : found.has .help = true ∨ found.value? .output = none) (tree : Tree) :
    run (withoutOutput words) tree = run words tree := by
  have hprinted := scan_withoutOutput h
  rcases hnone with hhelp | hnone
  · rw [run_help h hhelp, run_help hprinted (by rwa [Scan.has_withoutOutput found (by decide)])]
  · rw [Scan.withoutOutput_of_none hnone] at hprinted
    exact run_congr (hprinted.trans h.symm) tree

/-- The words without the output make the same request for the standard output. -/
theorem run_printed {words : List String} {found : Scan} (h : scan words = .ok found) {tree : Tree}
    (hhelp : found.has .help = false) {request : Request}
    (hrequest : found.request tree = .ok request) :
    run (withoutOutput words) tree = fulfil { request with output := none } tree := by
  refine run_request (scan_withoutOutput h) ?_ ?_
  · rwa [Scan.has_withoutOutput found (by decide)]
  · rw [Scan.request_withoutOutput, hrequest]
    rfl

/-- A run leaves the files alone, or writes to them once. -/
theorem run_tree (words : List String) (tree : Tree) :
    (run words tree).tree = tree
      ∨ ∃ path result, (run words tree).tree = (tree.write path result).1 := by
  cases hscan : scan words with
  | error error => simp [run, hscan]
  | ok found =>
      cases hhelp : found.has .help with
      | true => exact .inl (by rw [run_help hscan hhelp])
      | false =>
          cases hrequest : found.request tree with
          | error error => exact .inl (run_refused hscan hhelp hrequest).2
          | ok request =>
              rw [run_request hscan hhelp hrequest]
              exact fulfil_tree request tree

/-- **No run makes a file of a directory, or a directory of a file.** -/
theorem run_consistent {tree : Tree} (h : tree.Consistent) (words : List String) :
    (run words tree).tree.Consistent := by
  rcases run_tree words tree with hsame | ⟨path, result, hwritten⟩
  · rw [hsame]
    exact h
  · rw [hwritten]
    exact h.write path result

/-- **What a run has written is found where it was asked for**, and is what the same words print
without the output. -/
theorem run_written_found {words : List String} {found : Scan} (hscan : scan words = .ok found)
    (hhelp : found.has .help = false) {path : String} (houtput : found.value? .output = some path)
    (hname : (slashParts path).getLast? = some (fileName path)) {tree : Tree} (h : tree.Consistent)
    (hexit : (run words tree).exitCode = 0) :
    (run words tree).tree.lookup path
      = .file (run (withoutOutput words) tree).stdout.toUTF8 := by
  cases hrequest : found.request tree with
  | error error =>
      have hrefused := (run_refused hscan hhelp hrequest).1
      rw [hexit] at hrefused
      cases hrefused
  | ok request =>
      have hasked : request.output = some path := (request_ok hrequest).2.trans houtput
      rw [run_request hscan hhelp hrequest] at hexit ⊢
      rw [run_printed hscan hhelp hrequest]
      exact fulfil_found h hasked hname hexit

/-- **The command writes all or nothing, and what it writes is the answer.**  A run that fails
leaves the files as they are.  If a run succeeds, so does the one without the output, which leaves
everything as it is.  Where help is asked for or no output is given, this is the same run; and
unless help is asked for, what it prints is the answer to the request of the run, and stands in the
file that the last output names. -/
theorem run_all_or_nothing (words : List String) (tree : Tree) :
    ((run words tree).exitCode ≠ 0 → (run words tree).tree.files = tree.files)
      ∧ ((run words tree).exitCode = 0 → ∃ found, scan words = .ok found
        ∧ (run (withoutOutput words) tree).exitCode = 0
        ∧ (run (withoutOutput words) tree).tree = tree
        ∧ (found.has .help = true ∨ found.value? .output = none →
          run (withoutOutput words) tree = run words tree)
        ∧ (found.has .help = false → ∃ request, found.request tree = .ok request
          ∧ tree.lookup request.inputPath = .file request.content
          ∧ request.output = found.value? .output
          ∧ request.Answered tree (run words tree).tree
              (run (withoutOutput words) tree).stdout)) := by
  cases hscan : scan words with
  | error error => simp [run, hscan]
  | ok found =>
      have hsame := fun hnone => run_withoutOutput hscan hnone tree
      cases hhelp : found.has .help with
      | true =>
          have hrun : run words tree = { stdout := helpText, tree } := run_help hscan hhelp
          rw [hsame (.inl hhelp), hrun]
          exact ⟨fun _ => rfl, fun _ => ⟨found, rfl, rfl, rfl, fun _ => rfl, by simp [hhelp]⟩⟩
      | false =>
          cases hrequest : found.request tree with
          | error error =>
              obtain ⟨hexit, htree⟩ := run_refused hscan hhelp hrequest
              exact ⟨fun _ => by rw [htree], fun hzero => by simp [hexit] at hzero⟩
          | ok request =>
              obtain ⟨hinput, houtput⟩ := request_ok hrequest
              rw [run_printed hscan hhelp hrequest, run_request hscan hhelp hrequest] at hsame ⊢
              rcases fulfil_all_or_nothing request tree with
                ⟨hfail, hfiles⟩ | ⟨hexit, hexitPrinted, htree, hanswered⟩
              · exact ⟨fun _ => hfiles, fun hzero => absurd hzero hfail⟩
              · exact ⟨fun hfail => absurd hexit hfail, fun _ => ⟨found, rfl, hexitPrinted, htree,
                  hsame, fun _ => ⟨request, hrequest, hinput, houtput, hanswered⟩⟩⟩

/-- A comment with line ends of two characters. -/
def notesText : String :=
  "Adds.\r\n\r\n- Returns: sum\r\n"

/-- The comment in a file, and another file beside it. -/
def notesTree : Tree where
  files := [(["work", "notes.md"], notesText.toUTF8), (["work", "other"], "kept".toUTF8)]
  home := ["work"]

/-- What the comment documents. -/
def notesRecord : Documentation where
  summary := some (.paragraph "Adds.")
  returns := some { text := "sum", children := [.paragraph "sum"] }

/-- The output shares a word with a flag and lies above the directory of the run, where a file of
the same name stays as it is; below a file, it cannot be written, though a directory was made. -/
theorem run_all_or_nothing_notes :
    (run ["-vo", "../other", "notes.md", "--indent", "1"] notesTree).exitCode = 0
      ∧ notesTree.OnlyPut (run ["-vo", "../other", "notes.md", "--indent", "1"] notesTree).tree
          ["other"] (run ["-v", "notes.md", "--indent", "1"] notesTree).stdout.toUTF8
      ∧ (∀ other : Documentation,
          Payload.load (run ["-v", "notes.md", "--indent", "1"] notesTree).stdout
              = .ok other.toPayload ↔ other = notesRecord)
      ∧ (run ["notes.md", "-o", "new/../other/out"] notesTree).exitCode = 1
      ∧ (run ["notes.md", "-o", "new/../other/out"] notesTree).tree.directories = [["work", "new"]]
      ∧ (run ["notes.md", "-o", "new/../other/out"] notesTree).tree.files = notesTree.files := by
  have hexit : (run ["-vo", "../other", "notes.md", "--indent", "1"] notesTree).exitCode = 0 := by
    decide +kernel
  have hfail : (run ["notes.md", "-o", "new/../other/out"] notesTree).exitCode = 1 := by
    decide +kernel
  have hmade : (run ["notes.md", "-o", "new/../other/out"] notesTree).tree.directories
      = [["work", "new"]] := by decide +kernel
  have hothers : withoutOutput ["-vo", "../other", "notes.md", "--indent", "1"]
      = ["-v", "notes.md", "--indent", "1"] := by decide +kernel
  have hscan : scan ["-vo", "../other", "notes.md", "--indent", "1"] = .ok {
      settings := [
        { name := .verbose },
        { name := .output, value := "../other" },
        { name := .indent, value := "1" }]
      arguments := ["notes.md"] } := by decide +kernel
  obtain ⟨found, hfound, -, -, -, hanswered⟩ :=
    (run_all_or_nothing ["-vo", "../other", "notes.md", "--indent", "1"] notesTree).2 hexit
  cases Except.ok.inj (hscan.symm.trans hfound)
  obtain ⟨request, hrequest, -, houtput, hput, hrecord⟩ := hanswered (by decide)
  rw [hothers] at hput hrecord
  cases Except.ok.inj hrequest
  refine ⟨hexit, ?_, ?_, hfail, hmade, (run_all_or_nothing _ notesTree).1 (by rw [hfail]; decide)⟩
  · have hpath : notesTree.named "../other" = ["other"] := by decide +kernel
    rw [← hpath]
    exact hput "../other" rfl
  · obtain ⟨text, documentation, htext, hparse, hload⟩ := hrecord rfl
    have hcomment : String.fromUTF8? notesText.toUTF8 = some notesText := by decide +kernel
    have hmeans : (sectionReader 20).parse (some notesText) = .ok notesRecord := by decide +kernel
    cases Option.some.inj (hcomment.symm.trans htext)
    cases Except.ok.inj (hmeans.symm.trans hparse)
    exact hload

end DocComment.Command
