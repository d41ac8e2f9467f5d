import AnimationGrammar.Grammar.Effect

/-!
Animations: entries with a trigger, a preset and a file, nested by `contents`, and the document that
maps roll options to lists of them.
-/

namespace AnimationGrammar

namespace Form

def trigger : Form :=
  .literal
    ["attack-roll", "damage-roll", "place-template", "action", "toggle", "effect", "self-effect",
     "start-turn", "end-turn", "damage-taken", "saving-throw", "check", "skill-check",
     "flat-check", "initiative", "perception-check", "counteract-check", "modifiers-matter"]

def preset : Form := .literal ["onToken", "ranged", "melee", "template", "sound", "macro"]

def triggers : Form := byKind [(.string, trigger), (.array, .list trigger (some 1) false)]

def files : Form := byKind [(.string, asset), (.array, .list asset none false)]

/-- The entries of one roll option. -/
def animationObjects : Form := uniqueList (.model .animationObject)

/-- A whole document: every roll option is an alias of another one or has entries of its own. -/
def animations : Form :=
  .dictionary (.format .rollOption) (byKind [(.string, rollOption), (.array, animationObjects)])

end Form

/-- The fields that both models of an animation have, with those named here required. -/
def animationFields (required : List String) : List Field :=
  let field (name : String) (form : Form) : Field := { name, form, required := name ∈ required }
  [field "overrides" (.uniqueList .rollOption),
   field "trigger" .triggers,
   field "preset" .preset,
   field "file" .files,
   field "default" .flag,
   field "predicate" .predicates,
   field "options" (.model .effectOptions),
   field "reference" .rollOption]

def referenceObjectDefinition : Definition where
  fields := animationFields ["trigger", "preset", "file"]
  description := some ("A fully specified animation: what triggers it, how it is placed and which " ++
    "file it plays.")

def animationObjectDefinition : Definition where
  fields := animationFields [] ++ [{ name := "contents", form := .animationObjects }]
  rules := [.someKey]
  description := some ("An animation entry. Every key is optional: entries nested in " ++
    "\x60contents\x60 inherit what they omit\nfrom their parent, and top-level entries may be " ++
    "completed through \x60reference\x60.")

end AnimationGrammar
