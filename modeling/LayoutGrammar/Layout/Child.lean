import LayoutGrammar.Layout.Axis

/-!
# Placed children

A child of a scene: the component it comes from, its box, the box it started from, and how it may be
dragged. A child is known by its placement and its name.
-/

namespace LayoutGrammar

/-- Placement and name of a child. -/
abbrev ChildKey := Placement × String

/-- A child with its box. -/
structure Child (α : Type) where
  name : String
  mode : Placement
  pattern : String
  location : Option Location
  bounds : Rect α
  initial : Rect α
  pins : Pins
  draggable : Bool
  /-- The side of the parent that a child beside it is attached to. -/
  attachment : Option Side
deriving DecidableEq

/-- A key in a trace. -/
def ChildKey.item {α : Type} (key : ChildKey) : Item α := .tuple [.text key.1.name, .text key.2]

namespace Child

variable {α : Type}

/-- What a child is known by. -/
def key (c : Child α) : ChildKey := (c.mode, c.name)

/-- A child in a trace. -/
def item (c : Child α) : Item α :=
  .record "PlacedChild"
    [("name", .text c.name), ("mode", .text c.mode.name), ("pattern_id", .text c.pattern),
      ("location", .option Location.item c.location), ("bounds", c.bounds.item),
      ("initial", c.initial.item), ("fixed", c.pins.item), ("draggable", .bool c.draggable),
      ("attachment", .option Side.item c.attachment)]

end Child

end LayoutGrammar
