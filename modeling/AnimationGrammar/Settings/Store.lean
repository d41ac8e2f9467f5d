import AnimationGrammar.Files.FileTree
import AnimationGrammar.Settings.Reader

/-!
Settings in files.

Loading settings from a path where there is nothing writes the defaults there; saving replaces the
file and makes the folders that it needs.
-/

namespace AnimationGrammar

/-- Why settings could not be loaded. -/
inductive SettingsFailure
  | inaccessible (problem : FileProblem)
  | invalid (faults : List SettingsFault)

namespace Settings

def save (settings : Settings) (tree : FileTree) (path : FilePath) : Except FileProblem FileTree :=
  match tree.ensureFolders path.parent with
  | .error problem => .error problem
  | .ok tree => tree.writeText path settings.text

def readFrom (tree : FileTree) (path : FilePath) : Except SettingsFailure Settings :=
  match tree.readText path with
  | .error problem => .error (.inaccessible problem)
  | .ok text =>
      match ofText text with
      | .ok settings => .ok settings
      | .error faults => .error (.invalid faults)

/-- The settings at a path, and the files after they have been loaded. -/
def load (tree : FileTree) (path : FilePath) : Except SettingsFailure (Settings × FileTree) :=
  match tree.holds path with
  | .error problem => .error (.inaccessible problem)
  | .ok true => (readFrom tree path).map fun settings => (settings, tree)
  | .ok false =>
      let defaults : Settings := {}
      match defaults.save tree path with
      | .error problem => .error (.inaccessible problem)
      | .ok tree => .ok (defaults, tree)

end Settings

end AnimationGrammar
