import AnimationGrammar.Grammar.Placement
import AnimationGrammar.Grammar.Predicate

/-!
Sounds, and the presets that place an effect and may play one.
-/

namespace AnimationGrammar

/-- One sound, or several that differ. -/
def Form.sound : Form :=
  byKind [(.object, .model .soundData), (.array, uniqueList (.model .soundData))]

def soundEffectDefinition : Definition where
  fields :=
    [{ name := "type", form := .nonEmptyText, required := true },
     { name := "intensity", form := .positiveNumber, required := true }]

def soundDataDefinition : Definition where
  fields :=
    [{ name := "file", form := .asset, required := true },
     { name := "waitUntilFinished", form := .anyNumber },
     { name := "atLocation", form := .model .atLocationOptions },
     { name := "radius", form := .positiveNumber },
     { name := "volume", form := .positiveNumber },
     { name := "duration", form := .positiveNumber },
     { name := "constrainedByWalls", form := .flag },
     { name := "predicate", form := .predicates },
     { name := "default", form := .flag },
     { name := "delay", form := .nonZeroNumber },
     { name := "muffledEffect", form := .model .soundEffect },
     { name := "baseEffect", form := .model .soundEffect }]

/-- A switch, or the options of what it switches on. -/
def Form.flagOr (options : ModelName) : Form := byKind [(.boolean, .flag), (.object, .model options)]

def bounceDefinition : Definition where
  fields :=
    [{ name := "file", form := .asset, required := true },
     { name := "sound", form := .sound }]
  rules := [.someKey]

def Form.location : Form := .literal ["target", "source", "both"]

def presetOptionsDefinition : Definition where
  fields :=
    [{ name := "attachTo", form := .flagOr .attachToOptions },
     { name := "atLocation", form := .flagOr .atLocationOptions },
     { name := "bounce", form := .model .bounceOptions },
     { name := "location", form := .location },
     { name := "rotateTowards", form := .flagOr .rotateTowardsOptions },
     { name := "stretchTo", form := .model .stretchToOptions },
     { name := "templateAsOrigin", form := .flag },
     { name := "targets", form := .list .anyText (some 1) false }]
  rules := [.someKey]
  description := some "Placement and attachment of the effect relative to its source/targets."

end AnimationGrammar
