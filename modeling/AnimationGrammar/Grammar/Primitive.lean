import AnimationGrammar.Grammar.Form

/-!
The forms without parts that the grammar is built from.
-/

namespace AnimationGrammar.Form

def anyNumber : Form := .number {}

/-- A number other than zero: zero is written by leaving the key out. -/
def nonZeroNumber : Form := .number { nonZero := true }

def boundedNumber (bounds : Bounds) : Form := .number { bounds }

def positiveNumber : Form := boundedNumber { above := some (.integer 0) }

def integer (bounds : Bounds) : Form := .number { bounds, whole := true }

def positiveInteger : Form := integer { above := some (.integer 0) }

/-- Degrees: above -180, at most 180, and not zero. -/
def angle : Form :=
  .number {
    bounds := { above := some (.integer (-180)), atMost := some (.integer 180) }
    nonZero := true }

def offsetRange : Form := .tuple [anyNumber, anyNumber] true

def anyText : Form := .text .any

def nonEmptyText : Form := .text .nonEmpty

def ofFormat (format : TextFormat) : Form := .text (.format format)

def slug : Form := ofFormat .slug

def rollOption : Form := ofFormat .rollOption

def hexColour : Form := ofFormat .hexColour

def filePath : Form := ofFormat .filePath

def asset : Form := ofFormat .asset

def ease : Form :=
  .literal
    ["easeInBack", "easeInBounce", "easeInCirc", "easeInCubic", "easeInElastic", "easeInExpo",
     "easeInOutBack", "easeInOutBounce", "easeInOutCirc", "easeInOutCubic", "easeInOutElastic",
     "easeInOutExpo", "easeInOutQuad", "easeInOutQuart", "easeInOutQuint", "easeInOutSine",
     "easeInQuad", "easeInQuart", "easeInQuint", "easeInSine", "easeOutBack", "easeOutBounce",
     "easeOutCirc", "easeOutCubic", "easeOutElastic", "easeOutExpo", "easeOutQuad",
     "easeOutQuart", "easeOutQuint", "easeOutSine"]

end AnimationGrammar.Form
