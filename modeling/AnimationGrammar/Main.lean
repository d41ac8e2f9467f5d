import AnimationGrammar.CommandLine.Run

/-!
The program: its arguments and the files that they name go into a run, and what the run printed and
wrote comes out.
-/

namespace AnimationGrammar

def readEntry (place : Place) : IO (Option Entry) := do
  try
    let bytes ← IO.FS.readBinFile ("/" ++ "/".intercalate place)
    return some (.file (bytes.toList.map (·.toNat)))
  catch
    | .noFileOrDirectory .. => return none
    | _ => return some .folder

/-- The tree with everything that steps lead through on the disk. -/
def FileTree.readSteps (tree : FileTree) (place : Place) : List String → IO FileTree
  | [] => return tree
  | ".." :: rest => tree.readSteps place.dropLast rest
  | step :: rest => do
      let next := place ++ [step]
      match ← readEntry next with
      | none => return tree
      | some entry => (tree.put next entry).readSteps next rest

def FileTree.readPath (tree : FileTree) (path : FilePath) : IO FileTree :=
  tree.readSteps (if path.root = "" then tree.current else []) path.steps

def writeEntry (before : FileTree) (place : Place) (entry : Entry) : IO Unit := do
  if before.entry? place != some entry then
    let name := "/" ++ "/".intercalate place
    match entry with
    | .folder => IO.FS.createDirAll name
    | .file bytes => IO.FS.writeBinFile name (ByteArray.mk (bytes.map (·.toUInt8)).toArray)

def Invocation.paths (invocation : Invocation) (settings : FilePath) (tree : FileTree) :
    List FilePath :=
  let folder := match invocation.command, Settings.readFrom tree settings with
    | .exportSchemas none, .ok found => [FilePath.ofText found.schemaDirectory]
    | .exportSchemas none, _ => [FilePath.ofText ({} : Settings).schemaDirectory]
    | _, _ => []
  let named := invocation.command.pathTexts.map FilePath.ofText ++ folder
  match invocation.command with
  | .exportSchemas _ =>
      named.flatMap fun folder => SchemaName.all.map fun name => folder.child name.fileName
  | _ => named

def Execution.finish (execution : Execution) (before : FileTree) : IO UInt32 := do
  for (place, entry) in execution.tree.entries do
    writeEntry before place entry
  IO.print (Execution.linesText execution.output)
  IO.eprint (Execution.linesText execution.errors)
  match execution.aborted with
  | some reason => IO.eprintln reason.typeName
  | none => pure ()
  return execution.exitCode.toUInt32

end AnimationGrammar

open AnimationGrammar in
/-- Run the command that the arguments name. -/
def main (arguments : List String) : IO UInt32 := do
  match Invocation.ofArguments? arguments with
  | none =>
      IO.eprintln "usage: [--verbose] validate FILES [--json] | export-schemas [--out DIR] | schema NAME"
      return 2
  | some invocation =>
      let home := FilePath.ofText ((← IO.getEnv "HOME").getD ".")
      let settings := (home.child ".animation-grammar").child "settings.json"
      let current := (FilePath.ofText (← IO.currentDir).toString).steps
      let withSettings ← (FileTree.empty current).readPath settings
      let tree ← (invocation.paths settings withSettings).foldlM FileTree.readPath withSettings
      (invocation.run .ample settings tree).finish tree
