import AnimationGrammar.Main
import AnimationGrammar.Proofs.CommandLine.Formats
import AnimationGrammar.Proofs.CommandLine.JsonReport
import AnimationGrammar.Proofs.CommandLine.PathText
import AnimationGrammar.Proofs.Playback.Assets
import AnimationGrammar.Proofs.Playback.Files
import AnimationGrammar.Proofs.Playback.PlainOptions
import AnimationGrammar.Proofs.Playback.Template
import AnimationGrammar.Proofs.Schema.Agreement
import AnimationGrammar.Proofs.Schema.Descriptions
import AnimationGrammar.Proofs.Settings.Calls
import AnimationGrammar.Proofs.Validation.Absence
import AnimationGrammar.Proofs.Validation.AnimationModels
import AnimationGrammar.Proofs.Validation.AnimationTrees
import AnimationGrammar.Proofs.Validation.Checks
import AnimationGrammar.Proofs.Validation.Congruence
import AnimationGrammar.Proofs.Validation.Documents
import AnimationGrammar.Proofs.Validation.Integers
import AnimationGrammar.Proofs.Validation.Isolation
import AnimationGrammar.Proofs.Validation.Locality
import AnimationGrammar.Proofs.Validation.Predicates
import AnimationGrammar.Proofs.Validation.RepeatDelays
import AnimationGrammar.Proofs.Validation.Revalidation
import AnimationGrammar.Proofs.Validation.Siblings
import AnimationGrammar.Proofs.Validation.Uniqueness
import AnimationGrammar.Proofs.Schema.Published
