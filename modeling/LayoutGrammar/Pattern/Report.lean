import LayoutGrammar.Pattern.Basic

/-!
# Patterns for a reader

A pattern is listed on a few lines: its id with its kind and its parents, then its size, its item
pattern and its components with their constrained sides.
-/

namespace LayoutGrammar

/-- The constrained sides of a location in brackets. -/
def Location.brackets (l : Location) : String :=
  if l.isFree then ""
  else " [" ++ " ".intercalate (l.tokens.map fun e => e.1.name ++ "=" ++ e.2) ++ "]"

/-- The line of a component. -/
def Component.line (placement : Placement) (name : String) (c : Component) : String :=
  "  " ++ placement.name ++ " " ++ name ++
    (if c.pattern = name then "" else " -> " ++ c.pattern) ++ c.location.brackets

namespace Pattern

/-- The first line of a pattern. -/
def headline (id : String) (p : Pattern) : String :=
  id ++ (if p.kind.isGiven then " (" ++ p.kind.text ++ ")" else "") ++
    (if p.parents.isEmpty then "" else " extends " ++ ", ".intercalate p.parents)

/-- The lines of a pattern. -/
def lines (id : String) (p : Pattern) : List String :=
  p.headline id ::
    (if p.size.isGiven then ["  size: " ++ p.size.text] else []) ++
    (p.itemPattern.elim [] fun item => ["  item: " ++ item]) ++
    (p.inner.entries.map fun e => e.2.line .inner e.1) ++
    (p.outer.entries.map fun e => e.2.line .outer e.1)

/-- A pattern as a text of lines. -/
def report (id : String) (p : Pattern) : String := "\n".intercalate (p.lines id)

end Pattern

/-- A dictionary as a text of lines, one pattern after the other. -/
def Dictionary.report (d : Dictionary) : String :=
  String.join (d.entries.map fun e => e.2.report e.1 ++ "\n")

end LayoutGrammar
