import AnimationGrammar.Grammar.Primitive

/-!
Predicates: roll options joined by comparisons and by the operators of propositional logic.

An object is a predicate of the variant that its operator names, and of no other: the first key that
is an operator decides.
-/

namespace AnimationGrammar

namespace Form

/-- What a roll option is compared with: another one, or a number. -/
def operand : Form := byKind [(.string, rollOption), (.number, anyNumber)]

def comparison : Form := .tuple [rollOption, operand] false

def predicateModels : List ModelName :=
  [.eqPredicate, .gtPredicate, .gtePredicate, .ltPredicate, .ltePredicate, .andPredicate,
   .orPredicate, .xorPredicate, .notPredicate, .nandPredicate, .norPredicate, .ifPredicate,
   .iffPredicate]

def rollOptionLabel : String := "RollOption"

/-- A roll option, or an object of the variant that its operator names. -/
def predicate : Form :=
  .choice .operator
    ((rollOptionLabel, rollOption) :: predicateModels.map fun name => (name.label, .model name))

def predicates : Form := uniqueList predicate

end Form

/-- The operators and the variants that they name; either key of a conditional names it. -/
def predicateOperators : List (String × ModelName) :=
  [("eq", .eqPredicate), ("gt", .gtPredicate), ("gte", .gtePredicate), ("lt", .ltPredicate),
   ("lte", .ltePredicate), ("and", .andPredicate), ("or", .orPredicate), ("xor", .xorPredicate),
   ("nand", .nandPredicate), ("nor", .norPredicate), ("iff", .iffPredicate),
   ("not", .notPredicate), ("if", .ifPredicate), ("then", .ifPredicate)]

/-- The variant named by the first key that is an operator. -/
def operatorModel? : List (Atom × Value) → Option ModelName
  | [] => none
  | (.text key, _) :: rest => (predicateOperators.lookup key).or (operatorModel? rest)
  | _ :: rest => operatorModel? rest

/-- The variant of predicate that a value claims to be. -/
def predicateLabel? : Value → Option String
  | .text _ => some Form.rollOptionLabel
  | .record model _ => some model.label
  | .mapping entries => (operatorModel? entries).map (·.label)
  | _ => none

def comparisonDefinition (operator : String) : Definition where
  fields := [{ name := operator, form := .comparison, required := true }]

def connectiveDefinition (operator : String) : Definition where
  fields := [{ name := operator, form := .predicates, required := true }]

def negationDefinition : Definition where
  fields := [{ name := "not", form := .predicate, required := true }]

def conditionalDefinition : Definition where
  fields :=
    [{ name := "if", form := .predicate, required := true },
     { name := "then", form := .predicate, required := true }]

end AnimationGrammar
