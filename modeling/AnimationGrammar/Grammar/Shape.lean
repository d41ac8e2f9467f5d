import AnimationGrammar.Grammar.Primitive

/-!
Shapes that are drawn beside an effect.
-/

namespace AnimationGrammar

namespace Form

def shapeType : Form := .literal ["polygon", "rectangle", "circle", "ellipse", "roundedRect"]

/-- A pair of coordinates, or an object with the names of the axes. -/
def point : Form :=
  byKind [(.array, .tuple [anyNumber, anyNumber] false), (.object, .model .vector2)]

def colour : Form := byKind [(.string, hexColour), (.number, anyNumber)]

end Form

def shapeOffsetDefinition : Definition where
  fields :=
    [{ name := "x", form := .anyNumber },
     { name := "y", form := .anyNumber },
     { name := "gridUnits", form := .flag }]

def shapeDefinition : Definition where
  fields :=
    [{ name := "type", form := .shapeType, required := true },
     { name := "radius", form := .positiveNumber },
     { name := "width", form := .positiveNumber },
     { name := "height", form := .positiveNumber },
     { name := "points", form := .uniqueList .point },
     { name := "gridUnits", form := .flag },
     { name := "name", form := .anyText },
     { name := "fillColor", form := .colour },
     { name := "fillAlpha", form := .positiveNumber },
     { name := "alpha", form := .positiveNumber },
     { name := "lineSize", form := .positiveNumber },
     { name := "lineColor", form := .colour },
     { name := "offset", form := .model .shapeOffset },
     { name := "isMask", form := .flag }]
  rules := [.someKey]

end AnimationGrammar
