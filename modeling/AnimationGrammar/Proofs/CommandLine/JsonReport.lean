import AnimationGrammar.Proofs.CommandLine.Files
import AnimationGrammar.Proofs.Json.ReadBack

/-!
Reports as JSON.

A report as JSON is printed at the end of a run, in one piece.  It reads back as a list with one entry for
each file, which says what the lines for the file say.  The paths of issues are written as they are, so a
key that JSON cannot write keeps the whole report from being printed, whereas the lines only fail at keys
that are too long.
-/

namespace AnimationGrammar

open Json

def reportFiles (memory : Memory) (verbose : Bool) (settingsPath : FilePath) (tree : FileTree)
    (files : List String) : Execution :=
  Invocation.run memory ⟨verbose, .validate files true⟩ settingsPath tree

/-- What an entry of a report says about a file, beside the lines for the file. -/
inductive FileTree.Reports (tree : FileTree) (file : String) : List String → Value → Prop
  | clean {document} : tree.loadDocument (.ofText file) = .ok document → validate document = [] →
      FileTree.Reports tree file []
        (.object [("file", .text (FilePath.ofText file).text), ("success", .boolean true)])
  | unreadable {problem} : tree.loadDocument (.ofText file) = .error problem →
      FileTree.Reports tree file
        [FileReport.errorLine (FilePath.ofText file).text ("cannot parse: " ++ problem.message)]
        (.object [("file", .text (FilePath.ofText file).text), ("success", .boolean false),
          ("error", .text problem.message)])
  | failed {document} : tree.loadDocument (.ofText file) = .ok document → validate document ≠ [] →
      FileTree.Reports tree file
        ((validate document).map (FileReport.issueLine (FilePath.ofText file).text))
        (.object [("file", .text (FilePath.ofText file).text), ("success", .boolean false),
          ("issues", .list ((validate document).map FileReport.issueValue))])

/-- A run that reports as JSON tells what a run that reports in lines does. -/
structure ReportsAlike (report inLines : List String → Execution) (tree : FileTree)
    (files : List String) : Prop where
  finished : (report files).aborted.isNone
  exitCode : (report files).exitCode = (inLines files).exitCode
  together : (inLines files).errorLines = files.flatMap fun file => (inLines [file]).errorLines
  entries : ∃ printed entries, (report files).output = [printed] ∧
    Json.read printed = .ok (.list entries) ∧
    List.Forall₂ (fun file entry => tree.Reports file (inLines [file]).errorLines entry) files entries

/-! ### Entries -/

theorem FileTree.reports_found (tree : FileTree) (file : String) :
    tree.Reports file (tree.dueLines file) ((tree.found file).report.entry (tree.found file).path) := by
  rw [tree.dueLines_eq, CheckedFile.lines, found]
  cases loaded : tree.loadDocument (.ofText file) with
  | error problem => exact .unreadable loaded
  | ok document =>
      cases issues : validate document with
      | nil =>
          simp only [reportOf, issues]
          exact .clean loaded issues
      | cons issue rest =>
          have failed := Reports.failed loaded (by simp [issues])
          rw [issues] at failed
          simp only [reportOf, issues]
          exact failed

namespace FileReport

theorem readable_issueValue (issue : Issue) : Readable (issueValue issue) := by
  refine .of_object (by simp) ?_
  simp only [List.forall_mem_cons, List.not_mem_nil, false_imp_iff, implies_true, and_true]
  refine ⟨.atom _, .list ?_, .atom _⟩
  rw [List.forall_mem_map]
  exact fun step _ => .atom step

theorem readable_entry (path : String) (report : FileReport) : Readable (report.entry path) := by
  have issues (issues : List Issue) : Readable (.list (issues.map issueValue)) := by
    refine .list ?_
    rw [List.forall_mem_map]
    exact fun issue _ => readable_issueValue issue
  cases report with
  | unreadable message => exact .of_object (by simp) (by simp [Readable.atom])
  | checked found =>
      cases found with
      | nil => exact .of_object (by simp) (by simp [Readable.atom])
      | cons issue rest =>
          refine .of_object (by simp) ?_
          simp only [List.forall_mem_cons, List.not_mem_nil, false_imp_iff, implies_true, and_true]
          exact ⟨.atom _, .atom _, issues (issue :: rest)⟩

section
variable {indent level : Nat}

theorem writes_issueValue_iff (issue : Issue) :
    Writes indent level (issueValue issue) ↔ ∀ step ∈ issue.path, isWritable step = true := by
  simp [issueValue, writes_object_iff, writes_list_iff, writes_atom_iff, isWritable,
    Atom.isLongNumber]

theorem writes_entry_iff (path : String) (report : FileReport) :
    Writes indent level (report.entry path) ↔
      ∀ issues, report = .checked issues → ∀ issue ∈ issues, ∀ step ∈ issue.path,
        isWritable step = true := by
  have text (content : String) (level : Nat) : Writes indent level (.text content) :=
    writes_atom_iff.mpr rfl
  have boolean (value : Bool) (level : Nat) : Writes indent level (.boolean value) :=
    writes_atom_iff.mpr rfl
  cases report with
  | unreadable message => simp [entry, writes_object_iff, text, boolean]
  | checked found =>
      cases found with
      | nil => simp [entry, writes_object_iff, text, boolean]
      | cons issue rest =>
          simp [entry, writes_object_iff, text, boolean, writes_list_iff, writes_issueValue_iff]

end

end FileReport

/-! ### Runs -/

/-- An indent that can be counted, on a machine with memory for the text. -/
structure Memory.Holds (memory : Memory) (indent : Nat) (value : Value) : Prop where
  countable : indent < wordLimit
  fits : memory indent value = true

theorem jsonText_eq_ok_iff {memory : Memory} {indent : Nat} {value : Value} {text : String} :
    jsonText memory indent value = .ok text ↔
      memory.Holds indent value ∧ write indent 0 value = .ok text := by
  rw [jsonText]
  split
  next uncountable =>
      simp only [reduceCtorEq, false_iff, not_and]
      exact fun holds => absurd holds.countable (not_lt.mpr uncountable)
  next countable =>
      split
      next large =>
          simp only [reduceCtorEq, false_iff, not_and]
          exact fun holds => absurd holds.fits (by simpa using large)
      next fits =>
          have holds : memory.Holds indent value := ⟨not_le.mp countable, by simpa using fits⟩
          cases write indent 0 value <;> simp [holds]

section
variable {memory : Memory} {level : LogLevel} {indent : Nat} {tree : FileTree} {files : List String}

def FileTree.reportValue (tree : FileTree) (files : List String) : Value :=
  .list (files.map fun file => (tree.found file).report.entry (tree.found file).path)

theorem aborted_ofFiles_asJson (files : List CheckedFile) :
    (Transcript.ofFiles level true (files.map .ok)).aborted = none := by
  induction files with
  | nil => rfl
  | cons file rest inductionHypothesis =>
      simp only [Transcript.ofFiles, List.map_cons, List.foldr_cons, Transcript.ofFile]
        at inductionHypothesis ⊢
      exact inductionHypothesis

variable (memory level indent) in
/-- A run that reports as JSON comes to its end if the report has a text, and prints that text. -/
theorem runValidate_asJson (reads : ∀ file ∈ files, tree.ReadsOrReports file) :
    let run := runValidate memory level indent files true tree
    match jsonText memory indent (tree.reportValue files) with
    | .ok text => run.aborted = none ∧ run.output = [text] ∧
        run.exitCode = if tree.allClean files then 0 else 1
    | .error _ => run.aborted.isNone = false := by
  have report : (files.map tree.found).map (fun file => file.report.entry file.path) =
      files.map fun file => (tree.found file).report.entry (tree.found file).path := by
    rw [List.map_map]
    rfl
  simp only [runValidate, FileTree.checkFiles_eq reads, aborted_ofFiles_asJson,
    filterMap_toOption_found, FileTree.all_found_isClean, report, FileTree.reportValue, if_true]
  cases jsonText memory indent (.list _) <;> simp [Execution.abort]

theorem FileTree.readable_reportValue (tree : FileTree) (files : List String) :
    Readable (tree.reportValue files) := by
  refine .list ?_
  rw [List.forall_mem_map]
  exact fun file _ => FileReport.readable_entry _ _

theorem FileTree.writes_reportValue_iff :
    Writes indent 0 (tree.reportValue files) ↔
      ∀ file ∈ files, ∀ document, tree.loadDocument (.ofText file) = .ok document →
        ∀ issue ∈ validate document, ∀ step ∈ issue.path, isWritable step = true := by
  rw [reportValue, writes_list_iff, List.forall_mem_map]
  refine forall₂_congr fun file _ => ?_
  rw [FileReport.writes_entry_iff, found]
  cases tree.loadDocument (.ofText file) with
  | error problem => simp [reportOf]
  | ok document => simp [reportOf]

/-- Issues that can be written as JSON can be printed in lines. -/
theorem FileTree.isPrintable_found_of_isWritable {file : String}
    (writable : ∀ document, tree.loadDocument (.ofText file) = .ok document →
      ∀ issue ∈ validate document, ∀ step ∈ issue.path, isWritable step = true) :
    (tree.found file).report.isPrintable = true := by
  rw [tree.isPrintable_found_iff]
  intro document loaded issue reported
  rw [List.any_eq_false]
  intro step inPath
  rw [isLongNumber_of_isWritable (writable document loaded issue reported step inPath)]
  exact Bool.false_ne_true

end

/-- Under valid settings, a report as JSON tells what the lines tell if and only if the indent can be counted,
there is memory for the report, and no path of an issue holds a time, bytes or an integer that is too long to
be written. -/
theorem reportFiles_alike_iff {memory : Memory} {verbose : Bool} {settingsPath : FilePath}
    {tree settled : FileTree} {settings : Settings} {files : List String}
    (valid : Settings.load tree settingsPath = .ok (settings, settled))
    (usable : ∀ file ∈ files, '\x00' ∉ file.toList)
    (reads : ∀ file ∈ files, settled.ReadsOrReports file) :
    ReportsAlike (reportFiles memory verbose settingsPath tree)
        (validateFiles memory verbose settingsPath tree) settled files ↔
      memory.Holds settings.jsonIndent (settled.reportValue files) ∧
        ∀ file ∈ files, ∀ document, settled.loadDocument (.ofText file) = .ok document →
          ∀ issue ∈ validate document, ∀ step ∈ issue.path, isWritable step = true := by
  have run_eq : reportFiles memory verbose settingsPath tree files =
      runValidate memory (settings.effectiveLevel verbose) settings.jsonIndent files true settled :=
    Invocation.run_validate_eq valid usable
  have outcome :=
    runValidate_asJson memory (settings.effectiveLevel verbose) settings.jsonIndent reads
  rw [← run_eq] at outcome
  constructor
  · intro alike
    cases printed : jsonText memory settings.jsonIndent (settled.reportValue files) with
    | error reason =>
        rw [printed] at outcome
        exact absurd alike.finished (by simp [outcome])
    | ok text =>
        obtain ⟨holds, written⟩ := jsonText_eq_ok_iff.mp printed
        exact ⟨holds, FileTree.writes_reportValue_iff.mp ⟨text, written⟩⟩
  · rintro ⟨holds, writable⟩
    obtain ⟨text, written⟩ := FileTree.writes_reportValue_iff.mpr writable
    rw [jsonText_eq_ok_iff.mpr ⟨holds, written⟩] at outcome
    obtain ⟨finished, output, exitCode⟩ := outcome
    have printable : ∀ file ∈ files, (settled.found file).report.isPrintable = true :=
      fun file member => FileTree.isPrintable_found_of_isWritable (writable file member)
    have alone : ∀ file ∈ files,
        (validateFiles memory verbose settingsPath tree [file]).errorLines = settled.dueLines file := by
      intro file member
      exact errorLines_validateFiles_single valid (usable file member) (reads file member)
        (printable file member)
    have inLines : validateFiles memory verbose settingsPath tree files = _ := validateFiles_eq valid usable
    constructor
    case finished => rw [finished]; rfl
    case exitCode => rw [exitCode, inLines, (runValidate_of_printable reads printable).2.1]
    case together =>
      rw [inLines, errorLines_runValidate_of_printable reads printable]
      exact List.flatMap_congr fun file member => (alone file member).symm
    case entries =>
      refine ⟨text, _, output, (settled.readable_reportValue files).read_write written, ?_⟩
      rw [List.forall₂_map_right_iff, List.forall₂_same]
      intro file member
      rw [alone file member]
      exact settled.reports_found file

/-- Of three files one is in order, one holds a list and one is missing. -/
theorem reportFiles_missingFile :
    let tree := folderWith "list.json" [91, 93]
    let files := ["settings.json", "list.json", "none.json"]
    let report := reportFiles .ample false (.ofText "settings.json") tree
    ReportsAlike report (validateFiles .ample false (.ofText "settings.json") tree) tree files ∧
      (report files).exitCode = 1 := by
  intro tree files report
  have settings : tree.loadDocument (.ofText "settings.json") = .ok (.mapping []) := by rfl
  have list : tree.loadDocument (.ofText "list.json") = .ok (.list []) := by rfl
  have missing : tree.loadDocument (.ofText "none.json") =
      .error (.file (.blocked .missing (.ofText "none.json"))) := by rfl
  have reads : ∀ file ∈ files, tree.ReadsOrReports file := by
    simp [files, FileTree.ReadsOrReports, settings, list, missing]
  have writable : ∀ file ∈ files, ∀ document, tree.loadDocument (.ofText file) = .ok document →
      ∀ issue ∈ validate document, ∀ step ∈ issue.path, isWritable step = true := by
    simp [files, settings, list, missing, validate, notObjectIssue]
  refine ⟨(reportFiles_alike_iff (load_folderWith "list.json" [91, 93]) (by decide +kernel) reads).mpr
    ⟨⟨by decide, rfl⟩, writable⟩, ?_⟩
  decide +kernel

def folderWithDay : FileTree := folderWith "one.yaml" ("2020-01-01: 1\n".toList.map Char.toNat)

/-- The lines tell of the day, but the report is never printed. -/
theorem not_reportsAlike_day :
    (∀ file ∈ ["one.yaml"], folderWithDay.ReadsOrReports file) ∧
    (validateFiles .ample false (.ofText "settings.json") folderWithDay ["one.yaml"]).errorLines =
      ["[ERROR] one.yaml: 2020-01-01: Must be a valid roll option. (invalid_string)",
        "[ERROR] one.yaml: 2020-01-01: Input should be a valid list (invalid_type)"] ∧
    ¬ ReportsAlike (reportFiles .ample false (.ofText "settings.json") folderWithDay)
      (validateFiles .ample false (.ofText "settings.json") folderWithDay) folderWithDay ["one.yaml"] := by
  have aborted : (reportFiles .ample false (.ofText "settings.json") folderWithDay
      ["one.yaml"]).aborted.isNone = false := by
    decide +kernel
  exact ⟨by decide +kernel, by decide +kernel,
    fun alike => absurd alike.finished (by simp [aborted])⟩

end AnimationGrammar
