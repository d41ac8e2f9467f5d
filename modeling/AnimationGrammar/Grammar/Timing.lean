import AnimationGrammar.Grammar.Placement

/-!
Timing and transforms: fades, movement, ranges, sizes, scales, repetition and animated properties.
-/

namespace AnimationGrammar

def easingFields : List Field :=
  [{ name := "ease", form := .ease },
   { name := "delay", form := .positiveNumber }]

def easingDefinition : Definition where
  fields := easingFields

def fadeDefinition : Definition where
  fields := easingFields ++ [{ name := "value", form := .nonZeroNumber, required := true }]

def moveTowardsDefinition : Definition where
  fields := easingFields ++
    [{ name := "target", form := .byKind [(.object, .model .vector2), (.string, .anyText)],
       required := true }]

def rangeDefinition : Definition where
  fields :=
    [{ name := "min", form := .nonZeroNumber, required := true },
     { name := "max", form := .anyNumber }]

def sizeDefinition : Definition where
  fields :=
    [{ name := "value", form := .positiveNumber, required := true },
     { name := "gridUnits", form := .flag }]

def scaleXYDefinition : Definition where
  fields :=
    [{ name := "x", form := .anyNumber, required := true },
     { name := "y", form := .anyNumber, required := true }]

/-- A number, or an object of options in its place. -/
def Form.numberOr (options : ModelName) : Form :=
  byKind [(.number, anyNumber), (.object, .model options)]

def scaleDefinition : Definition where
  fields :=
    [{ name := "min", form := .numberOr .scaleXY, required := true },
     { name := "max", form := .anyNumber }]

def scaleToObjectDefinition : Definition where
  fields :=
    [{ name := "value", form := .positiveNumber, required := true }] ++
      flagFields ["uniform", "considerTokenScale"]

def spriteOffsetDefinition : Definition where
  fields :=
    [{ name := "offset", form := .model .offset, required := true }] ++
      flagFields ["gridUnits", "local"]

def persistDefinition : Definition where
  fields := flagFields ["value", "persistTokenPrototype"]
  rules := [.someKey]

def repeatDefinition : Definition where
  fields :=
    [{ name := "count", form := .boundedNumber { atLeast := some (.integer 1) }, required := true },
     { name := "delayMin", form := .anyNumber },
     { name := "delayMax", form := .positiveNumber }]
  rules := [.orderedDelays]

def templateDefinition : Definition where
  fields :=
    [{ name := "gridSize", form := .positiveNumber, required := true },
     { name := "startPoint", form := .anyNumber, required := true },
     { name := "endPoint", form := .anyNumber, required := true }]

def loopPropertyOptionsDefinition : Definition where
  fields :=
    [{ name := "duration", form := .anyNumber, required := true },
     { name := "from", form := .anyNumber },
     { name := "to", form := .anyNumber },
     { name := "values", form := .uniqueList .anyNumber },
     { name := "loops", form := .positiveInteger },
     { name := "pingPong", form := .flag },
     { name := "delay", form := .positiveNumber },
     { name := "ease", form := .ease }] ++ flagFields ["fromEnd", "gridUnits"]

def animatePropertyOptionsDefinition : Definition where
  fields :=
    [{ name := "duration", form := .anyNumber, required := true },
     { name := "from", form := .anyNumber, required := true },
     { name := "to", form := .anyNumber, required := true },
     { name := "delay", form := .anyNumber },
     { name := "ease", form := .ease }] ++ flagFields ["fromEnd", "gridUnits"]

def propertyDefinition (options : ModelName) : Definition where
  fields :=
    [{ name := "target", form := .anyText, required := true },
     { name := "property", form := .anyText, required := true },
     { name := "options", form := .model options, required := true }]

end AnimationGrammar
