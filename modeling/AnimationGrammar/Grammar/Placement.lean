import AnimationGrammar.Grammar.Primitive

/-!
Offsets and placements: where an effect is put, relative to something else.
-/

namespace AnimationGrammar

def flagFields (names : List String) : List Field :=
  names.map fun name => { name, form := .flag }

def vector2Definition : Definition where
  fields :=
    [{ name := "x", form := .nonZeroNumber },
     { name := "y", form := .nonZeroNumber }]
  rules := [.someKey]

/-- A dimension of an offset: fixed, or picked from a range. -/
def Form.offsetDimension : Form := byKind [(.number, nonZeroNumber), (.array, offsetRange)]

def offsetDefinition : Definition where
  fields :=
    [{ name := "x", form := .offsetDimension },
     { name := "y", form := .offsetDimension }] ++ flagFields ["flipX", "flipY"]
  rules := [.someKey, .someDimension]
  description := some ("Positional offset. Each dimension is a non-zero number or a " ++
    "\x60[min, max]\x60 range to pick from.")

def placementFields : List Field :=
  [{ name := "offset", form := .model .offset },
   { name := "randomOffset", form := .anyNumber }] ++ flagFields ["gridUnits", "local"]

def placementDefinition (fields : List Field) : Definition where
  fields := placementFields ++ fields
  rules := [.someKey]

def atLocationDefinition : Definition := placementDefinition (flagFields ["cacheLocation"])

def attachToDefinition : Definition :=
  placementDefinition
    ([{ name := "align", form := .anyText },
      { name := "edge", form := .anyText }] ++
      flagFields ["bindVisibility", "bindAlpha", "bindScale", "bindElevation", "followRotation"])

def rotateTowardsDefinition : Definition :=
  placementDefinition
    ([{ name := "rotationOffset", form := .anyNumber }] ++ flagFields ["cacheLocation", "attachTo"])

def stretchToDefinition : Definition :=
  placementDefinition
    (flagFields ["cacheLocation", "attachTo", "onlyX", "tiling", "requiresLineOfSight",
      "hideLineOfSight"])

end AnimationGrammar
