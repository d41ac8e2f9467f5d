import AnimationGrammar.Proofs.Settings.Text
import AnimationGrammar.Settings.Store

/-!
Settings survive the file.

Settings are saved and loaded at one path, in any order.  Whatever is called, the file at the path holds
the text of the settings that were saved last, once there is a file; the first load makes one.  So a load
gives these settings back and leaves everything as it was, as long as the reader takes the text.
-/

namespace AnimationGrammar

/-- A call that saves settings or loads them. -/
inductive SettingsCall
  | save (settings : Settings)
  | load

inductive SettingsAnswer
  | saved (outcome : Except FileProblem Unit)
  | loaded (outcome : Except SettingsFailure Settings)

def Settings.reloaded (settings : Settings) : Except SettingsFailure Settings :=
  if settings.IsReadable then .ok settings
  else .error (.invalid [⟨[], .notJson settings.refusal⟩])

namespace SettingsCall

def run (path : FilePath) (tree : FileTree) : SettingsCall → SettingsAnswer × FileTree
  | save settings =>
      match settings.save tree path with
      | .ok after => (.saved (.ok ()), after)
      | .error problem => (.saved (.error problem), tree)
  | load =>
      match Settings.load tree path with
      | .ok (settings, after) => (.loaded (.ok settings), after)
      | .error failure => (.loaded (.error failure), tree)

/-- What calls at a path answer, one after the other. -/
def answers (path : FilePath) (tree : FileTree) : List SettingsCall → List SettingsAnswer
  | [] => []
  | call :: rest => (call.run path tree).1 :: answers path (call.run path tree).2 rest

/-- What calls should answer if the settings saved last are remembered: every save succeeds, and every
load gives the last settings. -/
def dueAnswers (last : Settings) : List SettingsCall → List SettingsAnswer
  | [] => []
  | save settings :: rest => .saved (.ok ()) :: dueAnswers settings rest
  | load :: rest => .loaded last.reloaded :: dueAnswers last rest

/-! ### What stands at the path -/

/-- Which settings the files hold at a path: the defaults if nothing is there but can be, or those that
were saved. -/
inductive Holds (path : FilePath) (tree : FileTree) : Settings → Prop
  | nothing : tree.holds path = .ok false →
      (∃ after, ({} : Settings).save tree path = .ok after) → Holds path tree {}
  | saved {settings} : tree.HasFile path (Utf8.encode settings.text) → Holds path tree settings

variable {path : FilePath} {tree : FileTree} {last : Settings}

theorem save_eq_ok_iff {settings : Settings} {after : FileTree} :
    settings.save tree path = .ok after ↔
      ∃ ready, tree.ensureFolders path.parent = .ok ready ∧
        ready.writeText path settings.text = .ok after := by
  rw [Settings.save]
  cases tree.ensureFolders path.parent <;> simp

theorem hasFile_of_save {settings : Settings} {after : FileTree}
    (done : settings.save tree path = .ok after) :
    after.HasFile path (Utf8.encode settings.text) := by
  obtain ⟨ready, ensured, written⟩ := save_eq_ok_iff.mp done
  exact FileTree.hasFile_of_writeText (FileTree.hasFolder_of_ensureFolders ensured) written

/-- Where some settings can be saved, all others can be saved as well. -/
theorem exists_save {settings : Settings} {after : FileTree}
    (done : settings.save tree path = .ok after) (other : Settings) :
    ∃ after, other.save tree path = .ok after := by
  obtain ⟨ready, ensured, written⟩ := save_eq_ok_iff.mp done
  obtain ⟨place, found, located, noFolder, -⟩ := FileTree.writeText_eq_ok_iff.mp written
  exact ⟨_, save_eq_ok_iff.mpr
    ⟨ready, ensured, FileTree.writeText_eq_ok_iff.mpr ⟨place, found, located, noFolder, rfl⟩⟩⟩

theorem Holds.canSave (holds : Holds path tree last) (settings : Settings) :
    ∃ after, settings.save tree path = .ok after := by
  cases holds with
  | nothing _ writable =>
      obtain ⟨after, done⟩ := writable
      exact exists_save done settings
  | saved hasFile =>
      obtain ⟨after, written⟩ := hasFile.writeText settings.text
      exact ⟨after, save_eq_ok_iff.mpr ⟨tree, hasFile.inFolder.ensureFolders_eq, written⟩⟩

theorem Holds.run_save (holds : Holds path tree last) (settings : Settings) :
    ∃ after, (save settings).run path tree = (.saved (.ok ()), after) ∧
      Holds path after settings := by
  obtain ⟨after, done⟩ := holds.canSave settings
  refine ⟨after, ?_, .saved (hasFile_of_save done)⟩
  rw [run, done]

theorem readFrom_of_hasFile {settings : Settings}
    (hasFile : tree.HasFile path (Utf8.encode settings.text)) :
    Settings.readFrom tree path = settings.reloaded := by
  rw [Settings.readFrom, hasFile.readText, Settings.unifyLineEnds_text, String.ofList_toList,
    Settings.reloaded]
  by_cases readable : settings.IsReadable
  · simp only [Settings.ofText_text, if_pos readable]
  · simp only [Settings.ofText_text, if_neg readable]

theorem Holds.run_load (holds : Holds path tree last) :
    ∃ after, load.run path tree = (.loaded last.reloaded, after) ∧ Holds path after last := by
  cases holds with
  | nothing absent writable =>
      obtain ⟨after, done⟩ := writable
      have readable : ({} : Settings).IsReadable := by decide
      refine ⟨after, ?_, .saved (hasFile_of_save done)⟩
      rw [run, Settings.load, absent, Settings.reloaded, if_pos readable]
      simp only [done]
  | saved hasFile =>
      refine ⟨tree, ?_, .saved hasFile⟩
      rw [run, Settings.load, hasFile.holds, readFrom_of_hasFile hasFile]
      cases last.reloaded <;> rfl

/-- As long as the files hold the settings that are remembered, the calls answer what they should. -/
theorem Holds.answers_eq (holds : Holds path tree last) (calls : List SettingsCall) :
    answers path tree calls = dueAnswers last calls := by
  induction calls generalizing tree last with
  | nil => rfl
  | cons call rest inductionHypothesis =>
      cases call with
      | save settings =>
          obtain ⟨after, ran, holds⟩ := holds.run_save settings
          rw [answers, ran, dueAnswers, inductionHypothesis holds]
      | load =>
          obtain ⟨after, ran, holds⟩ := holds.run_load
          rw [answers, ran, dueAnswers, inductionHypothesis holds]

theorem dueAnswers_eraseIdx (last : Settings) (before after : List SettingsCall) :
    (dueAnswers last (before ++ load :: after)).eraseIdx before.length =
      dueAnswers last (before ++ after) := by
  induction before generalizing last with
  | nil => rfl
  | cons call rest inductionHypothesis =>
      cases call with
      | save settings =>
          rw [List.cons_append, List.cons_append, dueAnswers, dueAnswers, List.length_cons,
            List.eraseIdx_cons_succ, inductionHypothesis]
      | load =>
          rw [List.cons_append, List.cons_append, dueAnswers, dueAnswers, List.length_cons,
            List.eraseIdx_cons_succ, inductionHypothesis]

/-- Where nothing is at the path but settings can be saved, every load gives the settings saved last, or
the defaults; and leaving out a load leaves all other answers as they are. -/
theorem answers_eq_dueAnswers (absent : tree.holds path = .ok false)
    (writable : ∃ after, ({} : Settings).save tree path = .ok after) (calls : List SettingsCall) :
    answers path tree calls = dueAnswers {} calls ∧
      ∀ before after, calls = before ++ load :: after →
        (answers path tree calls).eraseIdx before.length = answers path tree (before ++ after) := by
  have holds : Holds path tree {} := .nothing absent writable
  refine ⟨holds.answers_eq calls, ?_⟩
  rintro before after rfl
  rw [holds.answers_eq, holds.answers_eq, dueAnswers_eraseIdx]

def emptyTree : FileTree := .empty ["tmp", "work"]

def settingsPath : FilePath := .ofText ".home/settings.json"

/-- Settings that have to be escaped, and an indent that no machine word holds. -/
def unusual : Settings :=
  { logLevel := .debug, schemaDirectory := "a \"b\"\\\r\n\t\x01é\u2028", jsonIndent := 10 ^ 30 }

/-- The first load gives the defaults, and a load behind a save what was saved. -/
theorem answers_unusual :
    emptyTree.holds settingsPath = .ok false ∧
      (∃ after, ({} : Settings).save emptyTree settingsPath = .ok after) ∧
      answers settingsPath emptyTree [load, save unusual, load, load] =
        [.loaded (.ok {}), .saved (.ok ()), .loaded (.ok unusual), .loaded (.ok unusual)] := by
  have absent : emptyTree.holds settingsPath = .ok false := rfl
  have writable : ∃ after, ({} : Settings).save emptyTree settingsPath = .ok after := ⟨_, rfl⟩
  refine ⟨absent, writable, ?_⟩
  rw [(answers_eq_dueAnswers absent writable _).1]
  rfl

def tooLong : Settings := { jsonIndent := 10 ^ Json.digitLimit }

theorem not_isReadable_tooLong : ¬ tooLong.IsReadable := by
  have positive : 0 < Json.digitLimit := by decide
  intro readable
  exact Nat.lt_irrefl _ ((digitCount_le_iff positive).mp readable)

/-- Settings that are too long are saved, but they are not what the next load gives. -/
theorem not_reloaded_tooLong :
    emptyTree.holds settingsPath = .ok false ∧
      (∃ after, ({} : Settings).save emptyTree settingsPath = .ok after) ∧
      answers settingsPath emptyTree [save tooLong, load] ≠
        [.saved (.ok ()), .loaded (.ok tooLong)] := by
  have holds : Holds settingsPath emptyTree {} := .nothing rfl ⟨_, rfl⟩
  refine ⟨rfl, ⟨_, rfl⟩, ?_⟩
  rw [holds.answers_eq, dueAnswers, dueAnswers, dueAnswers, Settings.reloaded,
    if_neg not_isReadable_tooLong]
  simp

end SettingsCall

end AnimationGrammar
