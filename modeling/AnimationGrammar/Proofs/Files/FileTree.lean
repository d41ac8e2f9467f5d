import AnimationGrammar.Files.FileTree
import AnimationGrammar.Proofs.Text.Utf8

/-!
Writing to a tree of files.

Something that is put at a place changes what stands there and nowhere else.  A path only leads through
folders, so as long as no folder is replaced, it leads to the same place before and after.  Hence a file
that has been written at a path is found there, and the folders that it needed are there to stay.
-/

namespace AnimationGrammar

theorem unifyLineEnds_eq_self {text : List Char} (noReturn : ∀ c ∈ text, c ≠ '\r') :
    unifyLineEnds text = text := by
  induction text with
  | nil => rfl
  | cons c rest inductionHypothesis =>
      rw [List.forall_mem_cons] at noReturn
      rw [unifyLineEnds, inductionHypothesis noReturn.2]
      · exact fun _ same _ => noReturn.1 same
      · exact noReturn.1

namespace FileTree

variable {tree : FileTree}

/-! ### What stands at a place -/

theorem lookup_putGo (place other : Place) (entry : Entry) (entries : List (Place × Entry)) :
    (put.go place entry entries).lookup other =
      if other = place then some entry else entries.lookup other := by
  have apart {a b : Place} (different : a ≠ b) : (a == b) = false := by simpa using different
  induction entries with
  | nil =>
      by_cases same : other = place
      · simp [put.go, same]
      · simp [put.go, List.lookup_cons, apart same, same]
  | cons head rest inductionHypothesis =>
      rcases head with ⟨key, old⟩
      by_cases found : key = place
      · by_cases same : other = place
        · simp [put.go, found, same]
        · simp [put.go, List.lookup_cons, apart same, found, same]
      · by_cases same : other = key
        · simp [put.go, found, same]
        · simp [put.go, found, List.lookup_cons, apart same, inductionHypothesis]

/-- Only at the place itself something else stands than before. -/
theorem entry?_put {place : Place} (notRoot : place ≠ []) (other : Place) (entry : Entry) :
    entry? (tree.put place entry) other = if other = place then some entry else tree.entry? other := by
  unfold entry?
  cases other with
  | nil => simp [Ne.symm notRoot]
  | cons name names => exact lookup_putGo place (name :: names) entry tree.entries

theorem ne_nil_of_noFolder {place : Place} (noFolder : tree.entry? place ≠ some .folder) :
    place ≠ [] := by
  rintro rfl
  exact noFolder rfl

/-! ### Following steps -/

def nextPlace (place : Place) (step : String) : Place :=
  if step = ".." then place.dropLast else place ++ [step]

/-- A step leads on from a folder, unless its name is too long. -/
theorem follow_cons_iff {place : Place} {step : String} {rest : List String}
    {found : Place × Option Entry} :
    tree.follow place (step :: rest) = .ok found ↔
      tree.entry? place = some .folder ∧ (step = ".." ∨ step.utf8ByteSize ≤ nameLimit) ∧
        tree.follow (nextPlace place step) rest = .ok found := by
  rw [follow, nextPlace]
  cases tree.entry? place with
  | none => simp
  | some entry =>
      cases entry with
      | file bytes => simp
      | folder =>
          by_cases up : step = ".."
          · simp [up]
          · by_cases long : nameLimit < step.utf8ByteSize
            · simp [up, long, Nat.not_le.mpr long]
            · simp [up, long, Nat.not_lt.mp long]

theorem follow_found {start reached : Place} {steps : List String} {found : Option Entry}
    (leads : tree.follow start steps = .ok (reached, found)) : found = tree.entry? reached := by
  induction steps generalizing start with
  | nil =>
      rw [follow, Except.ok.injEq, Prod.mk.injEq] at leads
      rw [← leads.1, leads.2]
  | cons step steps inductionHypothesis => exact inductionHypothesis (follow_cons_iff.mp leads).2.2

/-- What is put where no folder stood leaves every path where it led. -/
theorem follow_put {place : Place} (noFolder : tree.entry? place ≠ some .folder) (entry : Entry)
    {start reached : Place} {steps : List String} {found : Option Entry}
    (leads : tree.follow start steps = .ok (reached, found)) :
    (tree.put place entry).follow start steps =
      .ok (reached, if reached = place then some entry else found) := by
  have stands (other : Place) :
      entry? (tree.put place entry) other = if other = place then some entry else tree.entry? other :=
    entry?_put (ne_nil_of_noFolder noFolder) other entry
  induction steps generalizing start with
  | nil =>
      rw [follow, Except.ok.injEq, Prod.mk.injEq] at leads
      obtain ⟨rfl, rfl⟩ := leads
      rw [follow, stands]
  | cons step steps inductionHypothesis =>
      obtain ⟨folder, short, leads⟩ := follow_cons_iff.mp leads
      have other : start ≠ place := by
        rintro rfl
        exact noFolder folder
      apply follow_cons_iff.mpr
      exact ⟨by rw [stands, if_neg other, folder], short, inductionHypothesis leads⟩

end FileTree

/-! ### Paths -/

/-- Whether a path can be one: it has no null character and is not too long. -/
structure FilePath.IsUsable (path : FilePath) : Prop where
  noNull : '\x00' ∉ path.text.toList
  short : path.text.utf8ByteSize ≤ pathLimit

namespace FileTree

variable {tree after : FileTree} {path : FilePath}

def start (tree : FileTree) (path : FilePath) : Place := if path.root = "" then tree.current else []

theorem locate_eq_ok_iff {found : Place × Option Entry} :
    tree.locate path = .ok found ↔
      path.IsUsable ∧ tree.follow (tree.start path) path.steps = .ok found := by
  rw [locate, ← start]
  by_cases null : '\x00' ∈ path.text.toList
  · simp only [null, if_true, reduceCtorEq, false_iff, not_and]
    exact fun usable => absurd null usable.noNull
  · by_cases long : pathLimit < path.text.utf8ByteSize
    · simp only [null, long, if_true, if_false, reduceCtorEq, false_iff, not_and]
      exact fun usable => absurd usable.short (Nat.not_le.mpr long)
    · have usable : path.IsUsable := ⟨null, Nat.not_lt.mp long⟩
      cases tree.follow (tree.start path) path.steps <;> simp [null, long, usable]

theorem locate_put {place : Place} (noFolder : tree.entry? place ≠ some .folder) (entry : Entry)
    {reached : Place} {found : Option Entry} (located : tree.locate path = .ok (reached, found)) :
    (tree.put place entry).locate path =
      .ok (reached, if reached = place then some entry else found) := by
  rw [locate_eq_ok_iff] at located ⊢
  exact ⟨located.1, follow_put noFolder entry located.2⟩

theorem locate_found {reached : Place} {found : Option Entry}
    (located : tree.locate path = .ok (reached, found)) : found = tree.entry? reached :=
  follow_found (locate_eq_ok_iff.mp located).2

/-! ### Folders -/

def HasFolder (tree : FileTree) (path : FilePath) : Prop :=
  ∃ place, tree.locate path = .ok (place, some .folder)

theorem HasFolder.ensureFolder_eq (hasFolder : tree.HasFolder path) :
    tree.ensureFolder path = .ok tree := by
  obtain ⟨place, located⟩ := hasFolder
  simp [ensureFolder, makeFolder, located]

theorem HasFolder.ensureFolders_eq (hasFolder : tree.HasFolder path) :
    tree.ensureFolders path = .ok tree := by
  rcases path with ⟨root, steps⟩
  rw [ensureFolders]
  cases reversed : steps.reverse with
  | nil =>
      obtain rfl : steps = [] := List.reverse_eq_nil_iff.mp reversed
      exact hasFolder.ensureFolder_eq
  | cons step above =>
      obtain rfl : steps = (step :: above).reverse := List.reverse_eq_iff.mp reversed
      simp only [ensureSteps, hasFolder.ensureFolder_eq]

theorem locate_blocked {obstacle : Obstacle} {other : FilePath}
    (blocked : tree.locate path = .error (.blocked obstacle other)) : other = path := by
  rw [locate] at blocked
  split at blocked
  · cases blocked
  · split at blocked
    · cases blocked
      rfl
    · split at blocked
      · cases blocked
      · cases blocked
        rfl

theorem hasFolder_of_ensureFolder (ensured : tree.ensureFolder path = .ok after) :
    after.HasFolder path := by
  rw [ensureFolder, makeFolder] at ensured
  cases located : tree.locate path with
  | error problem =>
      simp only [located] at ensured
      split at ensured
      next made => cases made
      next taken =>
          cases taken
          rw [locate_blocked located, located] at ensured
          cases ensured
      · cases ensured
  | ok reached =>
      rcases reached with ⟨place, _ | _ | bytes⟩
      · simp only [located, Except.ok.injEq] at ensured
        have noFolder : tree.entry? place ≠ some .folder := by
          simp [← locate_found located]
        exact ⟨place, by rw [← ensured, locate_put noFolder _ located, if_pos rfl]⟩
      · simp only [located, Except.ok.injEq] at ensured
        exact ⟨place, ensured ▸ located⟩
      · simp [located] at ensured

theorem hasFolder_of_ensureFolders (ensured : tree.ensureFolders path = .ok after) :
    after.HasFolder path := by
  rcases path with ⟨root, steps⟩
  rw [ensureFolders] at ensured
  cases reversed : steps.reverse with
  | nil =>
      obtain rfl : steps = [] := List.reverse_eq_nil_iff.mp reversed
      exact hasFolder_of_ensureFolder ensured
  | cons step above =>
      obtain rfl : steps = (step :: above).reverse := List.reverse_eq_iff.mp reversed
      simp only [reversed, ensureSteps] at ensured
      split at ensured
      · split at ensured
        · exact hasFolder_of_ensureFolder ensured
        · cases ensured
      · exact hasFolder_of_ensureFolder ensured

/-! ### Files -/

/-- Whether a file stands at a path, in a folder that stands at the path above. -/
structure HasFile (tree : FileTree) (path : FilePath) (bytes : List Nat) : Prop where
  located : ∃ place, tree.locate path = .ok (place, some (.file bytes))
  inFolder : tree.HasFolder path.parent

theorem writeText_eq_ok_iff {text : String} :
    tree.writeText path text = .ok after ↔ ∃ place found,
      tree.locate path = .ok (place, found) ∧ found ≠ some .folder ∧
        after = tree.put place (.file (Utf8.encode text)) := by
  rw [writeText]
  rcases tree.locate path with problem | ⟨place, _ | _ | bytes⟩ <;> simp [eq_comm]

theorem hasFile_of_writeText {text : String} (inFolder : tree.HasFolder path.parent)
    (written : tree.writeText path text = .ok after) :
    after.HasFile path (Utf8.encode text) := by
  obtain ⟨place, found, located, noFolder, rfl⟩ := writeText_eq_ok_iff.mp written
  obtain ⟨above, locatedAbove⟩ := inFolder
  rw [locate_found located] at noFolder
  have apart : above ≠ place := by
    rintro rfl
    exact noFolder (locate_found locatedAbove).symm
  constructor
  · exact ⟨place, by rw [locate_put noFolder _ located, if_pos rfl]⟩
  · exact ⟨above, by rw [locate_put noFolder _ locatedAbove, if_neg apart]⟩

theorem HasFile.writeText {bytes : List Nat} (hasFile : tree.HasFile path bytes) (text : String) :
    ∃ after, tree.writeText path text = .ok after := by
  obtain ⟨place, located⟩ := hasFile.located
  exact ⟨_, writeText_eq_ok_iff.mpr ⟨place, _, located, by simp, rfl⟩⟩

theorem HasFile.readBytes {bytes : List Nat} (hasFile : tree.HasFile path bytes) :
    tree.readBytes path = .ok bytes := by
  obtain ⟨place, located⟩ := hasFile.located
  simp [FileTree.readBytes, located]

/-- A text that stands in a file is read, with its line ends unified. -/
theorem HasFile.readText {text : String} (hasFile : tree.HasFile path (Utf8.encode text)) :
    tree.readText path = .ok (String.ofList (unifyLineEnds text.toList)) := by
  rw [FileTree.readText, hasFile.readBytes]
  simp only [Utf8.decode_encode]

theorem HasFile.holds {bytes : List Nat} (hasFile : tree.HasFile path bytes) :
    tree.holds path = .ok true := by
  obtain ⟨place, located⟩ := hasFile.located
  simp [FileTree.holds, located]

end FileTree

end AnimationGrammar
