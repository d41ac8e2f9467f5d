/-!
The names of the objects that a configuration is made of.
-/

namespace AnimationGrammar

/-- A kind of object, each with its own set of keys. -/
inductive ModelName
  | eqPredicate | gtPredicate | gtePredicate | ltPredicate | ltePredicate
  | andPredicate | orPredicate | xorPredicate | nandPredicate | norPredicate | iffPredicate
  | notPredicate | ifPredicate
  | vector2 | offset | placement | atLocationOptions
  | soundEffect | soundData
  | attachToOptions | rotateTowardsOptions | stretchToOptions | bounceOptions | presetOptions
  | easingOptions | fadeOptions | moveTowardsOptions | rangeOptions | sizeOptions | scaleXY
  | scaleOptions | scaleToObjectOptions | spriteOffset | persistOptions | repeatOptions
  | templateOptions
  | colorMatrixOptions | glowOptions | blurOptions | noiseOptions
  | colorMatrixFilter | glowFilter | blurFilter | noiseFilter | clipFilter
  | loopPropertyOptions | loopProperty | animatePropertyOptions | animateProperty
  | shapeOffset | shape
  | effectOptions
  | referenceObject | animationObject
  | tokenImageAnimation | ringSubject | ringColors | tokenRing | tokenImageRule | tokenImageEntry
  | tokenImages
  deriving DecidableEq

namespace ModelName

/-- The name that messages and schemas use. -/
def label : ModelName → String
  | eqPredicate => "EqPredicate"
  | gtPredicate => "GtPredicate"
  | gtePredicate => "GtePredicate"
  | ltPredicate => "LtPredicate"
  | ltePredicate => "LtePredicate"
  | andPredicate => "AndPredicate"
  | orPredicate => "OrPredicate"
  | xorPredicate => "XorPredicate"
  | nandPredicate => "NandPredicate"
  | norPredicate => "NorPredicate"
  | iffPredicate => "IffPredicate"
  | notPredicate => "NotPredicate"
  | ifPredicate => "IfPredicate"
  | vector2 => "Vector2"
  | offset => "Offset"
  | placement => "_Placement"
  | atLocationOptions => "AtLocationOptions"
  | soundEffect => "SoundEffect"
  | soundData => "SoundData"
  | attachToOptions => "AttachToOptions"
  | rotateTowardsOptions => "RotateTowardsOptions"
  | stretchToOptions => "StretchToOptions"
  | bounceOptions => "BounceOptions"
  | presetOptions => "PresetOptions"
  | easingOptions => "EasingOptions"
  | fadeOptions => "FadeOptions"
  | moveTowardsOptions => "MoveTowardsOptions"
  | rangeOptions => "RangeOptions"
  | sizeOptions => "SizeOptions"
  | scaleXY => "ScaleXY"
  | scaleOptions => "ScaleOptions"
  | scaleToObjectOptions => "ScaleToObjectOptions"
  | spriteOffset => "SpriteOffset"
  | persistOptions => "PersistOptions"
  | repeatOptions => "RepeatOptions"
  | templateOptions => "TemplateOptions"
  | colorMatrixOptions => "ColorMatrixOptions"
  | glowOptions => "GlowOptions"
  | blurOptions => "BlurOptions"
  | noiseOptions => "NoiseOptions"
  | colorMatrixFilter => "ColorMatrixFilter"
  | glowFilter => "GlowFilter"
  | blurFilter => "BlurFilter"
  | noiseFilter => "NoiseFilter"
  | clipFilter => "ClipFilter"
  | loopPropertyOptions => "LoopPropertyOptions"
  | loopProperty => "LoopProperty"
  | animatePropertyOptions => "AnimatePropertyOptions"
  | animateProperty => "AnimateProperty"
  | shapeOffset => "ShapeOffset"
  | shape => "Shape"
  | effectOptions => "EffectOptions"
  | referenceObject => "ReferenceObject"
  | animationObject => "AnimationObject"
  | tokenImageAnimation => "TokenImageAnimation"
  | ringSubject => "RingSubject"
  | ringColors => "RingColors"
  | tokenRing => "TokenRing"
  | tokenImageRule => "TokenImageRule"
  | tokenImageEntry => "TokenImageEntry"
  | tokenImages => "TokenImages"

def all : List ModelName :=
  [eqPredicate, gtPredicate, gtePredicate, ltPredicate, ltePredicate, andPredicate, orPredicate,
   xorPredicate, nandPredicate, norPredicate, iffPredicate, notPredicate, ifPredicate, vector2,
   offset, placement, atLocationOptions, soundEffect, soundData, attachToOptions,
   rotateTowardsOptions, stretchToOptions, bounceOptions, presetOptions, easingOptions, fadeOptions,
   moveTowardsOptions, rangeOptions, sizeOptions, scaleXY, scaleOptions, scaleToObjectOptions,
   spriteOffset, persistOptions, repeatOptions, templateOptions, colorMatrixOptions, glowOptions,
   blurOptions, noiseOptions, colorMatrixFilter, glowFilter, blurFilter, noiseFilter, clipFilter,
   loopPropertyOptions, loopProperty, animatePropertyOptions, animateProperty, shapeOffset, shape,
   effectOptions, referenceObject, animationObject, tokenImageAnimation, ringSubject, ringColors,
   tokenRing, tokenImageRule, tokenImageEntry, tokenImages]

/-- The model with a given name. -/
def ofLabel? (label : String) : Option ModelName := all.find? (·.label == label)

end ModelName

end AnimationGrammar
