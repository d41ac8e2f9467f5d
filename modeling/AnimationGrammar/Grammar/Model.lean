import AnimationGrammar.Grammar.Animation
import AnimationGrammar.Grammar.TokenImage

/-!
The models of the grammar, by name.
-/

namespace AnimationGrammar

def ModelName.definition : ModelName → Definition
  | .eqPredicate => comparisonDefinition "eq"
  | .gtPredicate => comparisonDefinition "gt"
  | .gtePredicate => comparisonDefinition "gte"
  | .ltPredicate => comparisonDefinition "lt"
  | .ltePredicate => comparisonDefinition "lte"
  | .andPredicate => connectiveDefinition "and"
  | .orPredicate => connectiveDefinition "or"
  | .xorPredicate => connectiveDefinition "xor"
  | .nandPredicate => connectiveDefinition "nand"
  | .norPredicate => connectiveDefinition "nor"
  | .iffPredicate => connectiveDefinition "iff"
  | .notPredicate => negationDefinition
  | .ifPredicate => conditionalDefinition
  | .vector2 => vector2Definition
  | .offset => offsetDefinition
  | .placement => placementDefinition []
  | .atLocationOptions => atLocationDefinition
  | .soundEffect => soundEffectDefinition
  | .soundData => soundDataDefinition
  | .attachToOptions => attachToDefinition
  | .rotateTowardsOptions => rotateTowardsDefinition
  | .stretchToOptions => stretchToDefinition
  | .bounceOptions => bounceDefinition
  | .presetOptions => presetOptionsDefinition
  | .easingOptions => easingDefinition
  | .fadeOptions => fadeDefinition
  | .moveTowardsOptions => moveTowardsDefinition
  | .rangeOptions => rangeDefinition
  | .sizeOptions => sizeDefinition
  | .scaleXY => scaleXYDefinition
  | .scaleOptions => scaleDefinition
  | .scaleToObjectOptions => scaleToObjectDefinition
  | .spriteOffset => spriteOffsetDefinition
  | .persistOptions => persistDefinition
  | .repeatOptions => repeatDefinition
  | .templateOptions => templateDefinition
  | .colorMatrixOptions => colorMatrixOptionsDefinition
  | .glowOptions => glowOptionsDefinition
  | .blurOptions => blurOptionsDefinition
  | .noiseOptions => noiseOptionsDefinition
  | .colorMatrixFilter => filterDefinition "ColorMatrix" .colorMatrixOptions
  | .glowFilter => filterDefinition "Glow" .glowOptions
  | .blurFilter => filterDefinition "Blur" .blurOptions
  | .noiseFilter => noiseFilterDefinition
  | .clipFilter => clipFilterDefinition
  | .loopPropertyOptions => loopPropertyOptionsDefinition
  | .loopProperty => propertyDefinition .loopPropertyOptions
  | .animatePropertyOptions => animatePropertyOptionsDefinition
  | .animateProperty => propertyDefinition .animatePropertyOptions
  | .shapeOffset => shapeOffsetDefinition
  | .shape => shapeDefinition
  | .effectOptions => effectOptionsDefinition
  | .referenceObject => referenceObjectDefinition
  | .animationObject => animationObjectDefinition
  | .tokenImageAnimation => tokenImageAnimationDefinition
  | .ringSubject => ringSubjectDefinition
  | .ringColors => ringColorsDefinition
  | .tokenRing => tokenRingDefinition
  | .tokenImageRule => tokenImageRuleDefinition
  | .tokenImageEntry => tokenImageEntryDefinition
  | .tokenImages => tokenImagesDefinition

/-- The forms that have a name of their own, apart from the models. -/
def Form.named : List (String × Form) :=
  [("Slug", slug),
   ("RollOption", rollOption),
   ("HexColour", hexColour),
   ("FilePath", filePath),
   ("SequencerDBEntry", ofFormat .databaseEntry),
   ("Asset", asset),
   ("DocumentUUID", ofFormat .documentIdentifier),
   ("AnimationId", .text .animationId),
   ("NonEmptyStr", nonEmptyText),
   ("Flag", .flag),
   ("Number", anyNumber),
   ("Integer", integer {}),
   ("NonZeroNumber", nonZeroNumber),
   ("PositiveNumber", positiveNumber),
   ("PositiveInteger", positiveInteger),
   ("Angle", angle),
   ("OffsetRange", offsetRange),
   ("Operand", operand),
   ("Comparison", comparison),
   ("Predicate", predicate),
   ("PredicateList", predicates),
   ("Ease", ease),
   ("Trigger", trigger),
   ("Preset", preset),
   ("ShapeType", shapeType),
   ("Location", location),
   ("Triggers", triggers),
   ("Files", files),
   ("Point", point),
   ("Colour", colour),
   ("Filter", filter),
   ("RuleTuple", ruleTuples),
   ("RuleTuple3", ruleTuple 3),
   ("RuleTuple4", ruleTuple 4),
   ("RuleTuple5", ruleTuple 5),
   ("SoundConfig", sound),
   ("Operands", predicates),
   ("AnimationObjects", animationObjects),
   ("Animations", animations)]

/-- The form with a given name: one of its own, or that of a model. -/
def Form.ofName? (name : String) : Option Form :=
  (named.lookup name).or ((ModelName.ofLabel? name).map .model)

end AnimationGrammar
