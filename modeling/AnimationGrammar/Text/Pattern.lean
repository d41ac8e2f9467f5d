import AnimationGrammar.Text.CharClass

/-!
Regular patterns over characters.

A `Pattern` is both what `Pattern.source` writes out for other tools and what `Pattern.matchesWhole`
decides.  Deciding goes by derivatives: `p.derivative c` is what may follow after `p` has read `c`,
and a text matches when the pattern that remains after its last character may be empty.
-/

namespace AnimationGrammar

/-- One entry of a set of characters. -/
inductive CharItem
  | char (c : Char)
  | range (low high : Char)
  | word
  | digit
  deriving DecidableEq

/-- A set of characters, or all characters outside of it. -/
structure CharSet where
  items : List CharItem
  complement : Bool := false
  deriving DecidableEq

namespace CharItem

def contains : CharItem → Char → Bool
  | .char c, x => c == x
  | .range low high, x => low ≤ x && x ≤ high
  | .word, x => isWordChar x
  | .digit, x => isDigitChar x

/-- The entry as written between brackets. -/
def bracketSource : CharItem → List Char
  | .char c => if c = '\\' then ['\\', '\\'] else [c]
  | .range low high => [low, '-', high]
  | .word => ['\\', 'w']
  | .digit => ['\\', 'd']

/-- The entry as written by itself. -/
def bareSource : CharItem → List Char
  | .char c => if c ∈ ['.', '{', '}', '\\'] then ['\\', c] else [c]
  | item => item.bracketSource

end CharItem

namespace CharSet

def contains (set : CharSet) (c : Char) : Bool :=
  set.items.any (·.contains c) != set.complement

def source (set : CharSet) : List Char :=
  match set.items, set.complement with
  | [.char c], false => (CharItem.char c).bareSource
  | [.word], false => CharItem.word.bareSource
  | [.digit], false => CharItem.digit.bareSource
  | items, complement =>
      ('[' :: (if complement then ['^'] else [])) ++ items.flatMap (·.bracketSource) ++ [']']

end CharSet

/-- A regular pattern. -/
inductive Pattern
  /-- Matches no text. -/
  | nothing
  /-- Matches the empty text. -/
  | empty
  | one (set : CharSet)
  | seq (first second : Pattern)
  | alt (left right : Pattern)
  /-- Any number of times, none included. -/
  | star (body : Pattern)
  /-- At least once. -/
  | plus (body : Pattern)
  | optional (body : Pattern)
  | times (body : Pattern) (count : Nat)
  /-- From the start of the text to its end. -/
  | anchored (body : Pattern)
  deriving DecidableEq

namespace Pattern

/-- Whether the empty text matches. -/
def matchesEmpty : Pattern → Bool
  | nothing => false
  | empty => true
  | one _ => false
  | seq first second => first.matchesEmpty && second.matchesEmpty
  | alt left right => left.matchesEmpty || right.matchesEmpty
  | star _ => true
  | plus body => body.matchesEmpty
  | optional _ => true
  | times body count => count == 0 || body.matchesEmpty
  | anchored body => body.matchesEmpty

/-- A sequence, without parts that make no difference. -/
def followedBy : Pattern → Pattern → Pattern
  | nothing, _ => nothing
  | empty, second => second
  | first, second => if second = nothing then nothing else seq first second

/-- A choice, without parts that make no difference. -/
def orElse (left right : Pattern) : Pattern :=
  if left = nothing then right
  else if right = nothing || left = right then left
  else alt left right

/-- What may follow after a pattern has read a character. -/
def derivative (c : Char) : Pattern → Pattern
  | nothing => nothing
  | empty => nothing
  | one set => if set.contains c then empty else nothing
  | seq first second =>
      let through := (first.derivative c).followedBy second
      if first.matchesEmpty then through.orElse (second.derivative c) else through
  | alt left right => (left.derivative c).orElse (right.derivative c)
  | star body => (body.derivative c).followedBy (star body)
  | plus body => (body.derivative c).followedBy (star body)
  | optional body => body.derivative c
  | times body count =>
      if count = 0 then nothing else (body.derivative c).followedBy (times body (count - 1))
  | anchored body => body.derivative c

/-- Whether a pattern matches a text from its first to its last character. -/
def matchesWhole (pattern : Pattern) (text : List Char) : Bool :=
  (text.foldl (fun rest c => rest.derivative c) pattern).matchesEmpty

/-- How tightly a pattern's source holds together. -/
inductive Binding
  | choice | sequence | unit
  deriving DecidableEq

/-- The source of a pattern, with how tightly it binds. -/
def sourceWithBinding : Pattern → List Char × Binding
  | nothing => ("[^\\s\\S]".toList, .unit)
  | empty => ([], .sequence)
  | one set => (set.source, .unit)
  | seq first second =>
      (inSequence first.sourceWithBinding ++ inSequence second.sourceWithBinding, .sequence)
  | alt left right => (left.sourceWithBinding.1 ++ '|' :: right.sourceWithBinding.1, .choice)
  | star body => (asUnit body.sourceWithBinding ++ ['*'], .sequence)
  | plus body => (asUnit body.sourceWithBinding ++ ['+'], .sequence)
  | optional body => (asUnit body.sourceWithBinding ++ ['?'], .sequence)
  | times body count =>
      (asUnit body.sourceWithBinding ++ '{' :: Nat.toDigits 10 count ++ ['}'], .sequence)
  | anchored body => ('^' :: inSequence body.sourceWithBinding ++ ['$'], .sequence)
where
  grouped (source : List Char) : List Char := ['(', '?', ':'] ++ source ++ [')']
  inSequence : List Char × Binding → List Char
    | (source, .choice) => grouped source
    | (source, _) => source
  asUnit : List Char × Binding → List Char
    | (source, .unit) => source
    | (source, _) => grouped source

/-- The pattern in the notation that other tools read. -/
def source (pattern : Pattern) : String := String.ofList pattern.sourceWithBinding.1

end Pattern

end AnimationGrammar
