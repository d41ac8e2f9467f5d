import AnimationGrammar.Validation.Path

/-!
The text of a path: positions in brackets, keys after a dot.
-/

namespace AnimationGrammar

/-- The text of a path after the text of the steps before it. -/
def continuePath (before : String) : Path → String
  | [] => before
  | .number (.integer n) :: rest => continuePath (before ++ "[" ++ integerText n ++ "]") rest
  | .boolean value :: rest =>
      continuePath (before ++ "[" ++ (Atom.boolean value).display ++ "]") rest
  | key :: rest =>
      continuePath (if before = "" then key.display else before ++ "." ++ key.display) rest

/-- The text of a path; the empty path is the root. -/
def pathText (path : Path) : String :=
  match continuePath "" path with
  | "" => "<root>"
  | text => text

end AnimationGrammar
