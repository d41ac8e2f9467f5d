import AnimationGrammar.Grammar.Primitive

/-!
Filters over the picture of an effect.
-/

namespace AnimationGrammar

def describedField (name : String) (form : Form) (description : String) : Field where
  name := name
  form := form
  description := some description

def colorMatrixOptionsDefinition : Definition where
  fields :=
    [describedField "hue" .angle "The hue, in degrees.",
     describedField "brightness" .anyNumber
       "The value of the brightness (0 to 1, where 0 is black).",
     describedField "contrast" .anyNumber "The value of the contrast (0 to 1).",
     describedField "saturate" .anyNumber
       ("The value of the saturation amount. Negative numbers cause it to become desaturated " ++
         "(-1 to 1)")]
  rules := [.someKey]

def glowOptionsDefinition : Definition where
  fields :=
    [describedField "distance" .positiveNumber "The distance of the glow, in pixels.",
     describedField "outerStrength" .positiveNumber
       "The strength of the glow outward from the edge of the sprite.",
     describedField "innerStrength" .positiveNumber
       "The strength of the glow inward from the edge of the sprite.",
     describedField "color" .hexColour "The color of the glow",
     describedField "quality"
       (.boundedNumber { atLeast := some (.integer 0), atMost := some (.integer 1) })
       "Describes the quality of the glow (0 to 1). A higher number is less performant.",
     describedField "knockout" .flag
       ("Toggle to hide the contents and only show the glow (effectively hides the " ++
         "sprite).")]
  rules := [.someKey]

def blurOptionsDefinition : Definition where
  fields :=
    [describedField "strength" .positiveNumber "The strength of the filter.",
     describedField "blurX" .positiveNumber "The strength of the blur on the horizontal axis.",
     describedField "blurY" .positiveNumber "The strength of the blur on the vertical axis.",
     { describedField "blur" .positiveNumber
         ("Sets the strength of the blur in both the horizontal and vertical axes " ++
           "simultaneously.") with
       excludes := ["blurX", "blurY"] },
     describedField "quality" .positiveInteger "Quality of the filter.",
     describedField "resolution" .positiveNumber "Sets the resolution of the blur filter.",
     describedField "kernelSize" .positiveInteger
       "Effectively how many passes the blur goes through."]
  rules := [.someKey]

def noiseOptionsDefinition : Definition where
  fields :=
    [describedField "noise"
       (.boundedNumber { above := some (.integer 0), atMost := some (.integer 1) })
       "The noise intensity.",
     describedField "seed" .anyNumber
       "A random seed for the noise generation (default is \x60Math.random()\x60)."]
  rules := [.someKey]

/-- The filters, by what their key `type` says. -/
def filterModels : List (String × ModelName) :=
  [("ColorMatrix", .colorMatrixFilter), ("Glow", .glowFilter), ("Blur", .blurFilter),
   ("Noise", .noiseFilter), ("Clip", .clipFilter)]

def Form.filter : Form :=
  .choice .type (filterModels.map fun (type, name) => (type, .model name))

def filterTypeField (type : String) : Field where
  name := "type"
  form := .literal [type]
  required := true

/-- A filter that needs its options. -/
def filterDefinition (type : String) (options : ModelName) : Definition where
  fields := [filterTypeField type, { name := "options", form := .model options, required := true }]

def noiseFilterDefinition : Definition where
  fields := [filterTypeField "Noise", { name := "options", form := .model .noiseOptions }]

def clipFilterDefinition : Definition where
  fields := [filterTypeField "Clip"]

end AnimationGrammar
