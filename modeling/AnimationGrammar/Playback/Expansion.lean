import AnimationGrammar.Text.Format

/-!
Expansion of database entries.

A group of alternatives between braces stands for each of them.  `expandEntry` writes an entry out as
all entries that it stands for, the last group varying fastest; anything that is no database entry is
left as it is.
-/

namespace AnimationGrammar

/-- What may stand at each place of a text that follows an opening brace and holds no other one. -/
def groupChoices (text : List Char) : List (List (List Char)) :=
  match text.takeWhile (· ≠ '\x7d'), text.dropWhile (· ≠ '\x7d') with
  | c :: body, _ :: rest => [(c :: body).splitOn ',', [rest]]
  | _, _ => [['\x7b' :: text]]

/-- What may stand at each place of an entry, a group offering its alternatives. -/
def choices (text : List Char) : List (List (List Char)) :=
  match text.splitOn '\x7b' with
  | [] => []
  | head :: groups => [head] :: groups.flatMap groupChoices

/-- All ways to choose one option at each place, joined together; the last place varies fastest. -/
def combinations : List (List (List Char)) → List (List Char)
  | [] => [[]]
  | options :: rest =>
      let tails := combinations rest
      options.flatMap fun option => tails.map (option ++ ·)

/-- The entries that a database entry stands for. -/
def expandEntry (entry : String) : List String :=
  if TextFormat.databaseEntry.accepts entry then
    (combinations (choices entry.toList)).map String.ofList
  else [entry]

/-- The files that a list of assets stands for. -/
def expandFiles (files : List String) : List String := files.flatMap expandEntry

end AnimationGrammar
