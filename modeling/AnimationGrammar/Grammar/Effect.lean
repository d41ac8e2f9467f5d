import AnimationGrammar.Grammar.Filter
import AnimationGrammar.Grammar.Placement
import AnimationGrammar.Grammar.Shape
import AnimationGrammar.Grammar.Sound
import AnimationGrammar.Grammar.Timing

/-!
The options of one effect.
-/

namespace AnimationGrammar

/-- A number other than zero, or an object of options in its place. -/
def Form.nonZeroOr (options : ModelName) : Form :=
  byKind [(.number, nonZeroNumber), (.object, .model options)]

def effectOptionsDefinition : Definition where
  fields :=
    [{ name := "sound", form := .sound },
     { name := "preset", form := .model .presetOptions },
     { name := "locally", form := .flag },
     { name := "id", form := .text .animationId },
     { name := "name", form := .nonEmptyText },
     { name := "syncGroup", form := .anyText },
     { name := "randomRotation", form := .flag },
     { name := "randomizeMirrorX", form := .flag },
     { name := "randomizeMirrorY", form := .flag },
     { name := "mirrorX", form := .flag },
     { name := "mirrorY", form := .flag },
     { name := "remove", form := .byKind [(.string, .slug), (.array, .uniqueList .slug)] },
     { name := "tieToDocuments", form := .flag },
     { name := "belowTokens", form := .flag },
     { name := "waitUntilFinished", form := .nonZeroNumber },
     { name := "zIndex", form := .anyNumber },
     describedField "duration" .positiveNumber
       "The duration of the animationDataObject in milliseconds.",
     describedField "tint" .hexColour
       "A hexadecimal colour code to give the animationDataObject a certain tint.",
     describedField "rotate" .angle
       "An angle in degrees (°) to rotate the animationDataObject.",
     describedField "opacity"
       (.boundedNumber { above := some (.integer 0), below := some (.integer 1) })
       "An opacity scaler from 0 to 1 (exclusive).",
     { name := "mask", form := .flag },
     { name := "fadeIn", form := .nonZeroOr .fadeOptions },
     { name := "fadeOut", form := .nonZeroOr .fadeOptions },
     { name := "wait", form := .numberOr .rangeOptions },
     { name := "delay", form := .numberOr .rangeOptions },
     { name := "size", form := .numberOr .sizeOptions },
     { name := "spriteRotation", form := .angle },
     { name := "scale", form := .numberOr .scaleOptions },
     { name := "scaleToObject", form := .numberOr .scaleToObjectOptions },
     { name := "spriteOffset", form := .model .spriteOffset },
     { name := "persist", form := .flagOr .persistOptions },
     { name := "repeats",
       form := .byKind
         [(.number, .integer { atLeast := some (.integer 1) }), (.object, .model .repeatOptions)] },
     { name := "moveTowards", form := .model .moveTowardsOptions },
     { name := "filter", form := .filter },
     { name := "missed", form := .flag },
     { name := "anchor", form := .model .vector2 },
     { name := "template", form := .model .templateOptions },
     { name := "loopProperty", form := .uniqueList (.model .loopProperty) },
     { name := "animateProperty", form := .uniqueList (.model .animateProperty) },
     { name := "shape",
       form := .byKind
         [(.object, .model .shape), (.array, .uniqueList (.model .shape))] }]
  rules := [.someKey]
  description := some ("Options applied to one effect. Empty objects are rejected since they " ++
    "configure nothing.")

end AnimationGrammar
