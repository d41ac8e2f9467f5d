import AnimationGrammar.Proofs.CommandLine.Files
import AnimationGrammar.Proofs.Value.Identity

/-!
Two formats for one document.

The name of a file settles how the file is read.  A text that both readers take for the same document is
validated as that document from either kind of file, with one exception: a document that counts as not
given is an empty object in YAML, and only there.
-/

namespace AnimationGrammar

/-! ### Documents -/

/-- A text that both readers take for one document is read as that document, except that YAML has an empty
object for one that counts as not given. -/
theorem readDocument_of_reads {text : String} {document : Value}
    (inJson : Json.read text = .ok document) (inYaml : Yaml.read text = .ok document)
    (asYaml : Bool) :
    readDocument asYaml text =
      .ok (if asYaml && !document.isTruthy then .mapping [] else document) := by
  cases asYaml with
  | false => simp [readDocument, inJson]
  | true => cases given : document.isTruthy <;> simp [readDocument, inYaml, given]

theorem validate_of_not_isTruthy {document : Value} (notGiven : document.isTruthy = false)
    (filled : document ≠ .mapping []) : validate document = [notObjectIssue document] := by
  cases document with
  | mapping entries =>
      rw [Value.isTruthy, Bool.not_eq_false', List.isEmpty_iff] at notGiven
      exact absurd (congrArg Value.mapping notGiven) filled
  | atom | list | tuple | record => rfl

/-! ### Runs -/

def FileReport.messages : FileReport → List String
  | unreadable message => ["cannot parse: " ++ message]
  | checked issues => issues.map fun issue =>
      pathText issue.path ++ ": " ++ issue.message ++ " (" ++ issue.kind.label ++ ")"

theorem FileReport.lines_eq (path : String) (report : FileReport) :
    report.lines path = report.messages.map (errorLine path) := by
  cases report with
  | unreadable message => rfl
  | checked issues => simp [lines, messages, issueLine]

/-- Two files come out alike: one report is made of both, and a run over either of them ends the same way
and prints the same messages. -/
structure SameVerdict (run : List String → Execution) (tree : FileTree) (first second : String) :
    Prop where
  report : (tree.found first).report = (tree.found second).report
  exitCode : (run [first]).exitCode = (run [second]).exitCode
  output : (run [first]).output = (run [second]).output
  messages : ∃ messages : List String, ∀ file ∈ [first, second],
    (run [file]).errorLines = messages.map (FileReport.errorLine (FilePath.ofText file).text)

theorem FileReport.isPrintable_of_isClean {report : FileReport} (clean : report.isClean = true) :
    report.isPrintable = true := by
  cases report with
  | unreadable message => rfl
  | checked issues =>
      obtain rfl := List.isEmpty_iff.mp clean
      rfl

theorem runValidate_of_not_printable {memory : Memory} {level : LogLevel} {indent : Nat} {tree : FileTree}
    {file : String} (reads : tree.ReadsOrReports file)
    (cut : (tree.found file).report.isPrintable = false) :
    (runValidate memory level indent [file] false tree).exitCode = 1 ∧
      (runValidate memory level indent [file] false tree).output = [] := by
  simp [runValidate, reads.checkFile_eq, Transcript.ofFiles, Transcript.ofFile, Transcript.andThen,
    cut, Execution.abort]

theorem validateFiles_single (memory : Memory) (verbose : Bool) {settingsPath : FilePath} {tree settled : FileTree}
    {settings : Settings} {file : String}
    (valid : Settings.load tree settingsPath = .ok (settings, settled))
    (usable : '\x00' ∉ file.toList) (reads : settled.ReadsOrReports file) :
    let run := validateFiles memory verbose settingsPath tree [file]
    let report := (settled.found file).report
    run.exitCode = (if report.isClean then 0 else 1) ∧
    run.output =
      (if report.isClean then [integerText 1 ++ " file(s) validated successfully."] else []) ∧
    run.errorLines =
      report.printable.messages.map (FileReport.errorLine (FilePath.ofText file).text) := by
  intro run report
  have run_eq : run = runValidate _ _ _ [file] false settled :=
    validateFiles_eq valid (List.forall_mem_singleton.mpr usable)
  have errorLines : run.errorLines =
      report.printable.messages.map (FileReport.errorLine (FilePath.ofText file).text) := by
    rw [run_eq, errorLines_runValidate_single reads, CheckedFile.printed, FileReport.lines_eq]
    rfl
  cases printable : report.isPrintable with
  | true =>
      have clean : settled.allClean [file] = report.isClean := Bool.and_true _
      obtain ⟨-, exitCode, output⟩ := runValidate_of_printable (List.forall_mem_singleton.mpr reads)
        (List.forall_mem_singleton.mpr printable)
      rw [← run_eq, clean] at exitCode output
      exact ⟨exitCode, output, errorLines⟩
  | false =>
      have notClean : report.isClean = false := by
        rw [Bool.eq_false_iff]
        intro clean
        rw [FileReport.isPrintable_of_isClean clean] at printable
        cases printable
      obtain ⟨exitCode, output⟩ := runValidate_of_not_printable reads printable
      rw [← run_eq] at exitCode output
      rw [notClean]
      exact ⟨exitCode, output, errorLines⟩

theorem FileTree.report_found_of_reads {tree : FileTree} {file text : String} {document : Value}
    (content : tree.readText (.ofText file) = .ok text)
    (inJson : Json.read text = .ok document) (inYaml : Yaml.read text = .ok document) :
    tree.ReadsOrReports file ∧ (tree.found file).report = .checked (validate
      (if isYamlPath (.ofText file) && !document.isTruthy then .mapping [] else document)) := by
  have asNamed : tree.loadDocument (.ofText file) =
      readDocument (isYamlPath (.ofText file)) text := by
    rw [loadDocument, content]
  have loaded := asNamed.trans (readDocument_of_reads inJson inYaml _)
  exact ⟨by simp [ReadsOrReports, loaded], by rw [found, loaded, reportOf]⟩

/-- Under valid settings, a text that both readers take for one document is validated alike in two files if
and only if both are read the same way, or the document counts as given, or it is an empty object. -/
theorem formats_alike_iff {memory : Memory} {verbose : Bool} {settingsPath : FilePath} {tree settled : FileTree}
    {settings : Settings} {first second text : String} {document : Value}
    (valid : Settings.load tree settingsPath = .ok (settings, settled))
    (usable : ∀ file ∈ [first, second], '\x00' ∉ file.toList)
    (texts : ∀ file ∈ [first, second], settled.readText (.ofText file) = .ok text)
    (inJson : Json.read text = .ok document) (inYaml : Yaml.read text = .ok document) :
    SameVerdict (validateFiles memory verbose settingsPath tree) settled first second ↔
      isYamlPath (.ofText first) = isYamlPath (.ofText second) ∨ document.isTruthy = true ∨
        document = .mapping [] := by
  have reported (file : String) (member : file ∈ [first, second]) :=
    FileTree.report_found_of_reads (texts file member) inJson inYaml
  have inFirst := reported first (by simp)
  have inSecond := reported second (by simp)
  constructor
  · intro alike
    have same := alike.report
    rw [inFirst.2, inSecond.2, FileReport.checked.injEq] at same
    by_cases given : document.isTruthy = true
    case pos => exact .inr (.inl given)
    by_cases empty : document = .mapping []
    case pos => exact .inr (.inr empty)
    rw [Bool.not_eq_true] at given
    have notObject := validate_of_not_isTruthy given empty
    have inOrder : validate (.mapping []) = [] := rfl
    left
    cases firstFormat : isYamlPath (.ofText first) <;>
      cases secondFormat : isYamlPath (.ofText second) <;>
        simp [firstFormat, secondFormat, given, notObject, inOrder] at same ⊢
  · intro condition
    have same : (settled.found first).report = (settled.found second).report := by
      rw [inFirst.2, inSecond.2]
      rcases condition with formats | given | rfl
      · rw [formats]
      · rw [given, Bool.not_true, Bool.and_false, Bool.and_false]
      · rw [ite_self, ite_self]
    have single (file : String) (member : file ∈ [first, second]) :=
      validateFiles_single memory verbose valid (usable file member) (reported file member).1
    obtain ⟨firstExit, firstOutput, firstLines⟩ := single first (by simp)
    obtain ⟨secondExit, secondOutput, secondLines⟩ := single second (by simp)
    rw [← same] at secondExit secondOutput secondLines
    constructor
    case report => exact same
    case exitCode => rw [firstExit, secondExit]
    case output => rw [firstOutput, secondOutput]
    case messages =>
      refine ⟨(settled.found first).report.printable.messages, ?_⟩
      rw [List.forall_mem_cons, List.forall_mem_singleton]
      exact ⟨firstLines, secondLines⟩

def folderWithBoth (bytes : List Nat) : FileTree where
  current := []
  entries := [(["settings.json"], .file [123, 125]), (["a.json"], .file bytes),
    (["b.yaml"], .file bytes)]

/-- An object with a key that is no roll option is reported alike. -/
theorem formats_alike_object :
    let tree := folderWithBoth ("\x7b\"No Slug\": \"fist\"\x7d".toList.map Char.toNat)
    let run := validateFiles .ample false (.ofText "settings.json") tree
    SameVerdict run tree "a.json" "b.yaml" ∧
      (run ["b.yaml"]).errorLines =
        ["[ERROR] b.yaml: No Slug: Must be a valid roll option. (invalid_string)"] := by
  intro tree run
  have texts : ∀ file ∈ ["a.json", "b.yaml"],
      tree.readText (.ofText file) = .ok "\x7b\"No Slug\": \"fist\"\x7d" := by
    rw [List.forall_mem_cons, List.forall_mem_singleton]
    exact ⟨rfl, rfl⟩
  have inJson : Json.read "\x7b\"No Slug\": \"fist\"\x7d" =
      .ok (.object [("No Slug", .text "fist")]) := by
    decide +kernel
  have inYaml : Yaml.read "\x7b\"No Slug\": \"fist\"\x7d" =
      .ok (.object [("No Slug", .text "fist")]) := by
    decide +kernel
  have valid : Settings.load tree (.ofText "settings.json") = .ok ({}, tree) := rfl
  have alike : SameVerdict run tree "a.json" "b.yaml" :=
    (formats_alike_iff valid (by decide +kernel) texts inJson inYaml).mpr (.inr (.inl rfl))
  exact ⟨alike, by decide +kernel⟩

/-- An empty list is no object, but YAML has an empty object in its place. -/
theorem not_formats_alike_emptyList :
    let tree := folderWithBoth ("[]".toList.map Char.toNat)
    Json.read "[]" = .ok (.list []) ∧ Yaml.read "[]" = .ok (.list []) ∧
      (∀ file ∈ ["a.json", "b.yaml"], tree.readText (.ofText file) = .ok "[]") ∧
      ¬ SameVerdict (validateFiles .ample false (.ofText "settings.json") tree) tree "a.json" "b.yaml" := by
  intro tree
  have texts : ∀ file ∈ ["a.json", "b.yaml"], tree.readText (.ofText file) = .ok "[]" := by
    rw [List.forall_mem_cons, List.forall_mem_singleton]
    exact ⟨rfl, rfl⟩
  refine ⟨by decide +kernel, by decide +kernel, texts, fun alike => absurd alike.exitCode ?_⟩
  decide +kernel

end AnimationGrammar
