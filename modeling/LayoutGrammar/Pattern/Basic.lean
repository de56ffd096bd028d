import LayoutGrammar.Constraint.Location
import LayoutGrammar.Table

/-!
# Patterns

A pattern is a named rectangular region: free properties, components placed inside or beside it,
the patterns it extends, and for arrays the pattern of the items. A component names the pattern it
shows and where it stands; the pattern it names need not exist.
-/

namespace LayoutGrammar

/-- Where a component stands: inside its owner or beside it. Other names are kept, so that they can
be reported where they are met. -/
inductive Placement where
  | inner
  | outer
  | other (name : String)
deriving DecidableEq, Repr

namespace Placement

/-- The name of a placement. -/
def name : Placement → String
  | .inner => "inner"
  | .outer => "outer"
  | .other s => s

/-- The placement of a name. -/
def ofName (s : String) : Placement :=
  if s = "inner" then .inner else if s = "outer" then .outer else .other s

/-- Components stand inside or beside their owner. -/
def isKnown : Placement → Bool
  | .other _ => false
  | _ => true

end Placement

/-- A component: the pattern it shows and where it stands. -/
structure Component where
  pattern : String
  location : Location
deriving DecidableEq, Repr

/-- A named region of a layout. -/
structure Pattern where
  kind : Value
  size : Value
  properties : Table Value Value
  inner : Table String Component
  outer : Table String Component
  parents : List String
  itemPattern : Option String

/-- Patterns by id, in the order in which they came. -/
abbrev Dictionary := Table String Pattern

namespace Pattern

/-- The kinds that a pattern is expected to have. -/
def knownKinds : List String := ["external", "internal", "area", "cell", "array"]

/-- A pattern without any content. -/
def blank : Pattern := ⟨.null, .null, ∅, ∅, ∅, [], none⟩

instance : Inhabited Pattern := ⟨blank⟩

/-- The components at a placement. -/
def components (p : Pattern) : Placement → Except Error (Table String Component)
  | .inner => .ok p.inner
  | .outer => .ok p.outer
  | .other s => .error (.unknownPlacement s)

/-- Changes the components at a placement. -/
def mapComponents (p : Pattern) (placement : Placement)
    (f : Table String Component → Table String Component) : Pattern :=
  match placement with
  | .inner => { p with inner := f p.inner }
  | .outer => { p with outer := f p.outer }
  | .other _ => p

/-- Every id that a pattern points at: components inside, components beside it, parents, items. -/
def references (p : Pattern) : List String :=
  p.inner.values.map (·.pattern) ++ p.outer.values.map (·.pattern) ++ p.parents ++
    p.itemPattern.toList

/-- The locations of all components, inside and beside. -/
def locations (p : Pattern) : List Location :=
  p.inner.values.map (·.location) ++ p.outer.values.map (·.location)

/-- The kind is the text `array`. -/
def isArray (p : Pattern) : Bool :=
  match p.kind with
  | .str s => s == "array"
  | _ => false

end Pattern

end LayoutGrammar
