import AnimationGrammar.CommandLine.Run
import AnimationGrammar.Proofs.Files.FileTree
import AnimationGrammar.Proofs.Yaml.HexadecimalKey
import Mathlib.Data.List.Basic

/-!
Files on the command line.

Files are validated one after the other, and every one of them is reported as if it had been named
alone: that it could not be loaded, or the issues in it.  The run fails if one line is printed at
least.  All of this rests on every issue having a text.  The path of an issue may hold an integer that
is too long to be written, and then the run ends before the files that come later are reported.
-/

namespace AnimationGrammar

/-- Whether a line tells of an error, as opposed to the log. -/
def isErrorLine (line : String) : Bool := "[ERROR] ".toList.isPrefixOf line.toList

def Execution.errorLines (execution : Execution) : List String := execution.errors.filter isErrorLine

def validateFiles (memory : Memory) (verbose : Bool) (settingsPath : FilePath) (tree : FileTree)
    (files : List String) : Execution :=
  Invocation.run memory ⟨verbose, .validate files false⟩ settingsPath tree

/-- The lines that a file calls for: that it cannot be parsed, or what is wrong with its document. -/
def FileTree.dueLines (tree : FileTree) (file : String) : List String :=
  let path := (FilePath.ofText file).text
  match tree.loadDocument (.ofText file) with
  | .error problem => [FileReport.errorLine path ("cannot parse: " ++ problem.message)]
  | .ok document => (validate document).map (FileReport.issueLine path)

/-- A run over files reports each of them as a run over that file alone does. -/
structure ReportsEach (run : List String → Execution) (tree : FileTree) (files : List String) :
    Prop where
  finished : (run files).aborted.isNone
  together : (run files).errorLines = files.flatMap fun file => (run [file]).errorLines
  alone : ∀ file ∈ files, (run [file]).errorLines = tree.dueLines file
  exitCode : (run files).exitCode = if ∃ file ∈ files, (run [file]).errorLines ≠ [] then 1 else 0
  output : (run files).output =
    if (run files).exitCode = 0 then [integerText files.length ++ " file(s) validated successfully."]
    else []

/-! ### Lines -/

theorem LogEntry.isErrorLine_line (entry : LogEntry) : isErrorLine entry.line = false := by
  rcases entry with ⟨level, message⟩
  cases level <;> simp [isErrorLine, line, LogLevel.label, List.isPrefixOf]

theorem filter_logLines (level : LogLevel) (log : List LogEntry) :
    (logLines level log).filter isErrorLine = [] := by
  rw [List.filter_eq_nil_iff, logLines, List.forall_mem_map]
  simp [LogEntry.isErrorLine_line]

namespace FileReport

theorem isErrorLine_errorLine (path message : String) :
    isErrorLine (errorLine path message) = true := by
  simp [isErrorLine, errorLine]

theorem filter_lines (path : String) (report : FileReport) :
    (report.lines path).filter isErrorLine = report.lines path := by
  cases report with
  | unreadable message => simp [lines, isErrorLine_errorLine]
  | checked issues => simp [lines, issueLine, isErrorLine_errorLine]

theorem isClean_eq_true_iff (path : String) (report : FileReport) :
    report.isClean = true ↔ report.lines path = [] := by
  cases report with
  | unreadable message => simp [isClean, lines]
  | checked issues => simp [isClean, lines]

theorem isPrintable_checked_iff (issues : List Issue) :
    (checked issues).isPrintable = true ↔
      ∀ issue ∈ issues, issue.path.any (·.isLongNumber) = false := by
  simp [isPrintable]

theorem printable_of_isPrintable {report : FileReport} (printable : report.isPrintable = true) :
    report.printable = report := by
  cases report with
  | unreadable message => rfl
  | checked issues =>
      rw [isPrintable_checked_iff] at printable
      rw [FileReport.printable, List.takeWhile_eq_self_iff.mpr (by simpa using printable)]

theorem isPrintable_of_lines {path : String} {report : FileReport}
    (same : report.printable.lines path = report.lines path) : report.isPrintable = true := by
  cases report with
  | unreadable message => rfl
  | checked issues =>
      have counts := congrArg List.length same
      simp only [FileReport.printable, lines, List.length_map] at counts
      have all := (List.takeWhile_prefix _).eq_of_length counts
      rw [isPrintable_checked_iff]
      simpa using List.takeWhile_eq_self_iff.mp all

end FileReport

/-! ### Runs -/

def FileTree.found (tree : FileTree) (file : String) : CheckedFile where
  path := (FilePath.ofText file).text
  report := reportOf (tree.loadDocument (.ofText file))
  log := match tree.loadDocument (.ofText file) with
    | .ok document => validationLog document
    | .error _ => []

def CheckedFile.lines (file : CheckedFile) : List String := file.report.lines file.path

def CheckedFile.printed (file : CheckedFile) : List String := file.report.printable.lines file.path

theorem FileTree.dueLines_eq (tree : FileTree) (file : String) :
    tree.dueLines file = (tree.found file).lines := by
  unfold dueLines CheckedFile.lines found
  cases tree.loadDocument (.ofText file) with
  | error problem => rfl
  | ok document => rfl

theorem FileTree.dueLines_of_error {tree : FileTree} {file : String} {problem : LoadProblem}
    (failed : tree.loadDocument (.ofText file) = .error problem) :
    tree.dueLines file =
      [FileReport.errorLine (FilePath.ofText file).text ("cannot parse: " ++ problem.message)] := by
  rw [dueLines_eq, CheckedFile.lines, found, failed]
  rfl

/-- The parser of a file either finds a document or raises an error that is reported.  Files are left out that
break the parser, and those that it reads as something that is no value here. -/
def FileTree.ReadsOrReports (tree : FileTree) (file : String) : Prop :=
  ∀ problem, tree.loadDocument (.ofText file) ≠ .error (.yaml (.fatal problem))

/-- Whether a file was read with an error that is not reported. -/
def isFatal : Except LoadProblem Value → Bool
  | .error (.yaml (.fatal _)) => true
  | _ => false

theorem FileTree.readsOrReports_iff {tree : FileTree} {file : String} :
    tree.ReadsOrReports file ↔ isFatal (tree.loadDocument (.ofText file)) = false := by
  rw [ReadsOrReports]
  generalize tree.loadDocument (.ofText file) = loaded
  rw [isFatal.eq_def]
  split
  next problem => simp
  next other =>
      simp only [iff_true]
      exact other

instance FileTree.decidableReadsOrReports (tree : FileTree) (file : String) :
    Decidable (tree.ReadsOrReports file) :=
  decidable_of_iff _ readsOrReports_iff.symm

theorem FileTree.ReadsOrReports.checkFile_eq {tree : FileTree} {file : String}
    (reads : tree.ReadsOrReports file) : tree.checkFile (.ofText file) = .ok (tree.found file) := by
  unfold checkFile
  dsimp only
  split
  · next problem fatal => exact absurd fatal (reads problem)
  · rfl

section Run

variable {memory : Memory} {level : LogLevel} {indent : Nat} {tree : FileTree} {file : String} {files : List String}

/-- The lines of a run are those of its files, whether it was cut short or not. -/
theorem runValidate_errors :
    (runValidate memory level indent files false tree).errors =
      (Transcript.ofFiles level false
        (files.map fun file => tree.checkFile (.ofText file))).lines := by
  unfold runValidate
  dsimp only
  split
  · rfl
  · rfl

/-- A file adds its lines, and the files after it are reported if all of its issues can be printed. -/
theorem errorLines_runValidate_cons (reads : tree.ReadsOrReports file) :
    (runValidate memory level indent (file :: files) false tree).errorLines =
      (tree.found file).printed ++
        if (tree.found file).report.isPrintable then
          (runValidate memory level indent files false tree).errorLines
        else [] := by
  rw [Execution.errorLines, Execution.errorLines, runValidate_errors, runValidate_errors,
    List.map_cons, reads.checkFile_eq, Transcript.ofFiles, List.map_cons, List.foldr_cons]
  cases printable : (tree.found file).report.isPrintable <;>
    simp [Transcript.ofFile, Transcript.andThen, Transcript.ofFiles, printable, filter_logLines,
      FileReport.filter_lines, CheckedFile.printed]

theorem errorLines_runValidate_single (reads : tree.ReadsOrReports file) :
    (runValidate memory level indent [file] false tree).errorLines = (tree.found file).printed := by
  have none : (runValidate memory level indent [] false tree).errorLines = [] := by
    rfl
  rw [errorLines_runValidate_cons reads, none, ite_self, List.append_nil]

theorem errorLines_runValidate_of_printable (reads : ∀ file ∈ files, tree.ReadsOrReports file)
    (printable : ∀ file ∈ files, (tree.found file).report.isPrintable = true) :
    (runValidate memory level indent files false tree).errorLines = files.flatMap tree.dueLines := by
  induction files with
  | nil => rfl
  | cons file rest inductionHypothesis =>
      rw [List.forall_mem_cons] at reads printable
      rw [errorLines_runValidate_cons reads.1, if_pos printable.1,
        inductionHypothesis reads.2 printable.2, List.flatMap_cons, tree.dueLines_eq,
        CheckedFile.printed, FileReport.printable_of_isPrintable printable.1, CheckedFile.lines]

def FileTree.allClean (tree : FileTree) (files : List String) : Bool :=
  files.all fun file => (tree.found file).report.isClean

theorem FileTree.allClean_eq_true_iff :
    tree.allClean files = true ↔ ∀ file ∈ files, tree.dueLines file = [] := by
  rw [allClean, List.all_eq_true]
  apply forall₂_congr
  intro file _
  rw [FileReport.isClean_eq_true_iff (tree.found file).path, tree.dueLines_eq, CheckedFile.lines]

theorem aborted_ofFiles_of_printable {files : List CheckedFile}
    (printable : ∀ file ∈ files, file.report.isPrintable = true) :
    (Transcript.ofFiles level false (files.map .ok)).aborted = none := by
  induction files with
  | nil => rfl
  | cons file rest inductionHypothesis =>
      rw [List.forall_mem_cons] at printable
      have later := inductionHypothesis printable.2
      simp only [Transcript.ofFiles, List.map_cons, List.foldr_cons, Transcript.ofFile,
        printable.1] at later ⊢
      exact later

theorem FileTree.checkFiles_eq (reads : ∀ file ∈ files, tree.ReadsOrReports file) :
    (files.map fun file => tree.checkFile (.ofText file)) = (files.map tree.found).map .ok := by
  rw [List.map_map]
  exact List.map_congr_left fun file member => (reads file member).checkFile_eq

theorem FileTree.all_found_isClean (tree : FileTree) (files : List String) :
    ((files.map tree.found).all fun file => file.report.isClean) = tree.allClean files :=
  List.all_map

theorem filterMap_toOption_found (tree : FileTree) (files : List String) :
    ((files.map tree.found).map .ok).filterMap
      (Except.toOption : Except Yaml.FatalProblem CheckedFile → Option CheckedFile) =
        files.map tree.found := by
  rw [List.filterMap_map]
  exact List.filterMap_some

/-- A run over files all of whose issues can be printed comes to its end, and its outcome is settled by
whether they are clean. -/
theorem runValidate_of_printable (reads : ∀ file ∈ files, tree.ReadsOrReports file)
    (printable : ∀ file ∈ files, (tree.found file).report.isPrintable = true) :
    (runValidate memory level indent files false tree).aborted = none ∧
    (runValidate memory level indent files false tree).exitCode = (if tree.allClean files then 0 else 1) ∧
    (runValidate memory level indent files false tree).output =
      if tree.allClean files then [integerText files.length ++ " file(s) validated successfully."]
      else [] := by
  have finished : (Transcript.ofFiles level false ((files.map tree.found).map .ok)).aborted = none :=
    aborted_ofFiles_of_printable (List.forall_mem_map.mpr printable)
  simp only [runValidate, FileTree.checkFiles_eq reads, finished, filterMap_toOption_found,
    FileTree.all_found_isClean, Bool.false_eq_true, if_false, and_self]

end Run

theorem FileTree.isPrintable_found_iff (tree : FileTree) (file : String) :
    (tree.found file).report.isPrintable = true ↔
      ∀ document, tree.loadDocument (.ofText file) = .ok document →
        ∀ issue ∈ validate document, issue.path.any (·.isLongNumber) = false := by
  unfold found
  cases tree.loadDocument (.ofText file) with
  | error problem => simp [reportOf, FileReport.isPrintable]
  | ok document =>
      rw [reportOf, FileReport.isPrintable_checked_iff]
      exact ⟨fun printable _ same => Except.ok.inj same ▸ printable,
        fun printable => printable document rfl⟩

theorem Invocation.run_validate_eq {memory : Memory} {verbose asJson : Bool} {settingsPath : FilePath}
    {tree settled : FileTree} {settings : Settings} {files : List String}
    (valid : Settings.load tree settingsPath = .ok (settings, settled))
    (usable : ∀ file ∈ files, '\x00' ∉ file.toList) :
    Invocation.run memory ⟨verbose, .validate files asJson⟩ settingsPath tree =
      runValidate memory (settings.effectiveLevel verbose) settings.jsonIndent files asJson settled := by
  have noNull : (files.any fun file => '\x00' ∈ file.toList) = false := by
    simpa using usable
  simp only [Invocation.run, valid, Invocation.runWith, Command.pathTexts, noNull,
    Bool.false_eq_true, if_false]

theorem validateFiles_eq {memory : Memory} {verbose : Bool} {settingsPath : FilePath} {tree settled : FileTree}
    {settings : Settings} {files : List String}
    (valid : Settings.load tree settingsPath = .ok (settings, settled))
    (usable : ∀ file ∈ files, '\x00' ∉ file.toList) :
    validateFiles memory verbose settingsPath tree files =
      runValidate memory (settings.effectiveLevel verbose) settings.jsonIndent files false settled :=
  Invocation.run_validate_eq valid usable

theorem errorLines_validateFiles_single {memory : Memory} {verbose : Bool} {settingsPath : FilePath}
    {tree settled : FileTree} {settings : Settings} {file : String}
    (valid : Settings.load tree settingsPath = .ok (settings, settled))
    (usable : '\x00' ∉ file.toList) (reads : settled.ReadsOrReports file)
    (printable : (settled.found file).report.isPrintable = true) :
    (validateFiles memory verbose settingsPath tree [file]).errorLines = settled.dueLines file := by
  rw [validateFiles_eq valid (List.forall_mem_singleton.mpr usable),
    errorLines_runValidate_of_printable (List.forall_mem_singleton.mpr reads)
      (List.forall_mem_singleton.mpr printable), List.flatMap_singleton]

/-! ### Keys that are too long -/

theorem Utf8.decode_ascii {text : List Char} (ascii : ∀ c ∈ text, c.toNat < 128) :
    Utf8.decode (text.map Char.toNat) = .ok (String.ofList text) := by
  have decoded : ∀ position, Utf8.decodeFrom position 0 (text.map Char.toNat) = .ok text := by
    induction text with
    | nil => exact fun _ => rfl
    | cons c rest inductionHypothesis =>
        intro position
        rw [List.forall_mem_cons] at ascii
        have lead : Utf8.leadByte? c.toNat = some ⟨c.toNat, 0, 0x80, 0xBF⟩ := if_pos ascii.1
        rw [List.map_cons, Utf8.decodeFrom, lead]
        simp only [Utf8.following, inductionHypothesis ascii.2, Except.map, Char.ofNat_toNat]
  rw [Utf8.decode, decoded 0]
  rfl

theorem isLongNumber_of_le {n : Nat} (long : Nat.pow 10 Atom.textDigits ≤ n) :
    (Atom.number (.integer n)).isLongNumber = true := by
  rw [Atom.isLongNumber, Int.natAbs_natCast, decide_eq_true_iff]
  exact long

theorem pow_lt_pow_sixteen (digits : Nat) (positive : 0 < digits) :
    Nat.pow 10 digits < Nat.pow 16 digits :=
  Nat.pow_lt_pow_left (by decide) (Nat.ne_of_gt positive)

theorem keyIssues_longKey {key : Atom} (long : key.isLongNumber = true) :
    keyIssues key = [⟨.invalidString, [key], "Must be a valid roll option."⟩] := by
  cases key with
  | number value => rfl
  | null | boolean | text | time | bytes => cases long

/-- An integer that is too long to be written is no roll option, and that is the first issue. -/
theorem FileReport.longKey_unprintable {key : Atom} (long : key.isLongNumber = true) (value : Value)
    (rest : List (Atom × Value)) :
    (reportOf (.ok (.mapping ((key, value) :: rest)))).isPrintable = false ∧
      (reportOf (.ok (.mapping ((key, value) :: rest)))).printable = .checked [] := by
  have noText : key ≠ .text tokenImagesKey := by
    rintro rfl
    cases long
  constructor
  all_goals
    simp [reportOf, validate, blockIssues, noText, entryIssues, keyIssues_longKey long, isPrintable,
      printable, long]

/-- A folder with settings in which nothing is set, and with one more file. -/
def folderWith (name : String) (bytes : List Nat) : FileTree where
  current := []
  entries := [(["settings.json"], .file [123, 125]), ([name], .file bytes)]

theorem load_folderWith (name : String) (bytes : List Nat) :
    Settings.load (folderWith name bytes) (.ofText "settings.json") =
      .ok ({}, folderWith name bytes) := by
  rfl

theorem loadDocument_folderWith {text : List Char} {document : Value}
    (ascii : ∀ c ∈ text, c.toNat < 128) (noReturn : ∀ c ∈ text, c ≠ '\r')
    (read : Yaml.read (String.ofList text) = .ok document) (filled : document.isTruthy = true) :
    (folderWith "one.yaml" (text.map Char.toNat)).loadDocument (.ofText "one.yaml") =
      .ok document := by
  have bytes : (folderWith "one.yaml" (text.map Char.toNat)).readBytes (.ofText "one.yaml") =
      .ok (text.map Char.toNat) := by
    rfl
  have found : (folderWith "one.yaml" (text.map Char.toNat)).readText (.ofText "one.yaml") =
      .ok (String.ofList text) := by
    simp only [FileTree.readText, bytes, Utf8.decode_ascii ascii, String.toList_ofList,
      unifyLineEnds_eq_self noReturn]
  have asYaml : isYamlPath (.ofText "one.yaml") = true := by
    decide +kernel
  simp only [FileTree.loadDocument, found, readDocument, asYaml, if_true, read, filled]

theorem loadDocument_missing (bytes : List Nat) :
    (folderWith "one.yaml" bytes).loadDocument (.ofText "two.json") =
      .error (.file (.blocked .missing (.ofText "two.json"))) := by
  rfl

def folderWithKey (width n : Nat) : FileTree :=
  folderWith "one.yaml" ((Yaml.markedEntry (Yaml.hexadecimal width n)).map Char.toNat)

section LongKey

variable {width n : Nat} (positive : 0 < width) (bound : n < Nat.pow 16 width)

include positive bound in
theorem loadDocument_folderWithKey :
    (folderWithKey width n).loadDocument (.ofText "one.yaml") =
      .ok (.mapping [(.number (.integer n), .integer 1)]) :=
  loadDocument_folderWith (Yaml.forall_mem_markedEntry (by decide) (by decide) width n)
    (Yaml.forall_mem_markedEntry (by decide) (by decide) width n)
    (Yaml.read_hexadecimalKey positive bound) rfl

include positive bound in
/-- A key that is too long keeps everything from being reported: the issues of its own file, and
whatever is to be said about the files after it. -/
theorem errorLines_folderWithKey (long : (Atom.number (.integer n)).isLongNumber = true)
    (memory : Memory) (verbose : Bool) {rest : List String}
    (usable : ∀ file ∈ rest, '\x00' ∉ file.toList) :
    (validateFiles memory verbose (.ofText "settings.json") (folderWithKey width n)
      ("one.yaml" :: rest)).errorLines = [] := by
  have loaded := loadDocument_folderWithKey positive bound
  have reads : (folderWithKey width n).ReadsOrReports "one.yaml" := by
    simp [FileTree.ReadsOrReports, loaded]
  obtain ⟨cut, printed⟩ : ((folderWithKey width n).found "one.yaml").report.isPrintable = false ∧
      ((folderWithKey width n).found "one.yaml").report.printable = .checked [] := by
    rw [FileTree.found, loaded]
    exact FileReport.longKey_unprintable long _ _
  have valid : Settings.load (folderWithKey width n) (.ofText "settings.json") =
      .ok ({}, folderWithKey width n) := load_folderWith "one.yaml" _
  have usable : ∀ file ∈ "one.yaml" :: rest, '\x00' ∉ file.toList :=
    List.forall_mem_cons.mpr ⟨by decide +kernel, usable⟩
  rw [validateFiles_eq valid usable, errorLines_runValidate_cons reads, cut, CheckedFile.printed,
    printed]
  rfl

include positive bound in
theorem not_reportsEach_folderWithKey (long : (Atom.number (.integer n)).isLongNumber = true) :
    (∀ file ∈ ["one.yaml", "two.json"], (folderWithKey width n).ReadsOrReports file) ∧
    ¬ ReportsEach (validateFiles .ample false (.ofText "settings.json") (folderWithKey width n))
      (folderWithKey width n) ["one.yaml", "two.json"] := by
  have loaded := loadDocument_folderWithKey positive bound
  have missing : (folderWithKey width n).loadDocument (.ofText "two.json") =
      .error (.file (.blocked .missing (.ofText "two.json"))) := loadDocument_missing _
  constructor
  · simp [FileTree.ReadsOrReports, loaded, missing]
  · intro reports
    have usable : ∀ file ∈ ["two.json"], '\x00' ∉ file.toList := by decide +kernel
    have nothing := errorLines_folderWithKey positive bound long .ample false usable
    rw [reports.together, List.flatMap_eq_nil_iff] at nothing
    have due : (folderWithKey width n).dueLines "two.json" ≠ [] := by
      rw [FileTree.dueLines_of_error missing]
      exact List.cons_ne_nil _ _
    apply due
    rw [← reports.alone "two.json" (by simp)]
    exact nothing "two.json" (by simp)

end LongKey

/-! ### Reports -/

/-- Under valid settings, a run reports each of its files as a run over that file alone does if and only
if no issue of a document that was loaded has an integer in its path that is too long to be written. -/
theorem validateFiles_reportsEach_iff {memory : Memory} {verbose : Bool} {settingsPath : FilePath}
    {tree settled : FileTree} {settings : Settings} {files : List String}
    (valid : Settings.load tree settingsPath = .ok (settings, settled))
    (usable : ∀ file ∈ files, '\x00' ∉ file.toList)
    (reads : ∀ file ∈ files, settled.ReadsOrReports file) :
    ReportsEach (validateFiles memory verbose settingsPath tree) settled files ↔
      ∀ file ∈ files, ∀ document, settled.loadDocument (.ofText file) = .ok document →
        ∀ issue ∈ validate document, issue.path.any (·.isLongNumber) = false := by
  have single : ∀ file ∈ files, validateFiles memory verbose settingsPath tree [file] =
      runValidate memory (settings.effectiveLevel verbose) settings.jsonIndent [file] false settled :=
    fun file member => validateFiles_eq valid (List.forall_mem_singleton.mpr (usable file member))
  simp only [← FileTree.isPrintable_found_iff]
  constructor
  · intro reports file member
    have alone := reports.alone file member
    rw [single file member, errorLines_runValidate_single (reads file member),
      settled.dueLines_eq] at alone
    exact FileReport.isPrintable_of_lines alone
  · intro printable
    have alone : ∀ file ∈ files,
        (validateFiles memory verbose settingsPath tree [file]).errorLines = settled.dueLines file := by
      intro file member
      rw [single file member, errorLines_runValidate_of_printable
        (List.forall_mem_singleton.mpr (reads file member))
        (List.forall_mem_singleton.mpr (printable file member)), List.flatMap_singleton]
    have whole : validateFiles memory verbose settingsPath tree files = _ := validateFiles_eq valid usable
    obtain ⟨finished, exitCode, output⟩ := runValidate_of_printable reads printable
    constructor
    case finished => rw [whole, finished]; rfl
    case together =>
      rw [whole, errorLines_runValidate_of_printable reads printable]
      exact List.flatMap_congr fun file member => (alone file member).symm
    case alone => exact alone
    case exitCode =>
      have failing : (∃ file ∈ files,
          (validateFiles memory verbose settingsPath tree [file]).errorLines ≠ []) ↔
            ¬ settled.allClean files = true := by
        rw [FileTree.allClean_eq_true_iff]
        push Not
        exact exists_congr fun file => and_congr_right fun member => by rw [alone file member]
      rw [whole, exitCode, if_congr failing rfl rfl, ite_not]
    case output =>
      rw [whole, output, exitCode]
      cases settled.allClean files <;> rfl

/-- Of three files one is in order, one holds a list and one is missing. -/
theorem validateFiles_missingFile :
    let tree := folderWith "list.json" [91, 93]
    let files := ["settings.json", "list.json", "none.json"]
    let run := validateFiles .ample false (.ofText "settings.json") tree
    ReportsEach run tree files ∧ (run files).errorLines =
      ["[ERROR] list.json: <root>: JSON must represent an object, received array. (invalid_type)",
        "[ERROR] none.json: cannot parse: [Errno 2] No such file or directory: 'none.json'"] := by
  intro tree files run
  have settings : tree.loadDocument (.ofText "settings.json") = .ok (.mapping []) := by rfl
  have list : tree.loadDocument (.ofText "list.json") = .ok (.list []) := by rfl
  have missing : tree.loadDocument (.ofText "none.json") =
      .error (.file (.blocked .missing (.ofText "none.json"))) := by rfl
  have reads : ∀ file ∈ files, tree.ReadsOrReports file := by
    simp [files, FileTree.ReadsOrReports, settings, list, missing]
  have printable : ∀ file ∈ files, ∀ document, tree.loadDocument (.ofText file) = .ok document →
      ∀ issue ∈ validate document, issue.path.any (·.isLongNumber) = false := by
    simp [files, settings, list, missing, validate, notObjectIssue]
  have reports : ReportsEach run tree files :=
    (validateFiles_reportsEach_iff (load_folderWith "list.json" [91, 93]) (by decide +kernel) reads).mpr
      printable
  refine ⟨reports, ?_⟩
  decide +kernel

/-- The first file has a key of 4301 digits, and the second one is missing. -/
theorem not_reportsEach_longKey :
    (∀ file ∈ ["one.yaml", "two.json"],
      (folderWithKey Atom.textDigits (Nat.pow 10 Atom.textDigits)).ReadsOrReports file) ∧
    ¬ ReportsEach
      (validateFiles .ample false (.ofText "settings.json")
        (folderWithKey Atom.textDigits (Nat.pow 10 Atom.textDigits)))
      (folderWithKey Atom.textDigits (Nat.pow 10 Atom.textDigits)) ["one.yaml", "two.json"] := by
  have positive : 0 < Atom.textDigits := by decide
  exact not_reportsEach_folderWithKey positive (pow_lt_pow_sixteen Atom.textDigits positive)
    (isLongNumber_of_le (Nat.le_refl _))

end AnimationGrammar
