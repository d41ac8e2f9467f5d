import AnimationGrammar.Grammar.Primitive

/-!
Token images: rules that swap the picture of a token.
-/

namespace AnimationGrammar

namespace Form

/-- A rule in short form: slug, file and scale, and then perhaps a second file and its scale. -/
def ruleTuple (length : Nat) : Form :=
  .tuple ([slug, filePath, positiveNumber, filePath, positiveNumber].take length) false

def ruleTuples : Form :=
  .choice .length [("3", ruleTuple 3), ("4", ruleTuple 4), ("5", ruleTuple 5)]

end Form

def tokenImageAnimationDefinition : Definition where
  fields :=
    [{ name := "duration", form := .positiveNumber },
     { name := "transition", form := .nonEmptyText },
     { name := "easing", form := .ease },
     { name := "name", form := .nonEmptyText }]
  rules := [.someKey]

def ringSubjectDefinition : Definition where
  fields :=
    [{ name := "texture", form := .filePath, required := true },
     { name := "scale", form := .anyNumber }]
  rules := [.someKey]

def ringColorsDefinition : Definition where
  fields :=
    [{ name := "background", form := .anyText },
     { name := "ring", form := .anyText }]
  rules := [.someKey]

def tokenRingDefinition : Definition where
  fields :=
    [{ name := "subject", form := .model .ringSubject, required := true },
     { name := "colors", form := .model .ringColors }]
  rules := [.someKey]

/-- The keys that a token-image rule shares with every rule element. -/
def ruleElementFields : List Field :=
  ["key", "label", "slug", "predicate", "priority", "ignored", "requiresInvestment",
    "requiresEquipped", "removeUponCreate"].map fun name => { name, form := .anyJson }

def tokenImageRuleDefinition : Definition where
  fields := ruleElementFields ++
    [{ name := "value", form := .filePath, required := true },
     { name := "scale", form := .anyNumber },
     { name := "tint", form := .anyText },
     { name := "alpha", form := .anyNumber },
     { name := "animation", form := .model .tokenImageAnimation, required := true },
     { name := "ring", form := .model .tokenRing }]
  description := some ("A token-image rule element; the generic rule-element keys accept any JSON " ++
    "value.")

def tokenImageEntryDefinition : Definition where
  fields :=
    [{ name := "name", form := .nonEmptyText, required := true },
     { name := "requires", form := .nonEmptyText, required := true },
     { name := "uuid", form := .ofFormat .documentIdentifier, required := true },
     { name := "rules",
       form := .uniqueList
         (.byKind [(.array, .ruleTuples), (.object, .model .tokenImageRule)]),
       required := true }]

/-- The key of a document that holds its token images. -/
def tokenImagesKey : String := "_tokenImages"

def tokenImagesDefinition : Definition where
  fields :=
    [{ name := tokenImagesKey, form := .uniqueList (.model .tokenImageEntry), required := true }]
  closed := false
  description := some ("Token-image swap rules. Only \x60_tokenImages\x60 is read; sibling animation " ++
    "keys are ignored.")

end AnimationGrammar
