import LayoutGrammar.Report.Item

/-!
# Settings of the layout

The sizes that scaling, placing and spreading depend on. A computation is given its settings, or
takes those in force; which of the two is remembered, because a trace shows the difference.
-/

namespace LayoutGrammar

open Scalar

/-- The sizes that a layout depends on. -/
structure Settings (α : Type) where
  /-- The largest size of a grid cell, and its size where none is computed. -/
  gridSize : α
  /-- The smallest size of a grid cell. -/
  minCell : α
  /-- The room kept for the child itself when offsets are fitted. -/
  iconSize : α
  /-- The cells that an open offset needs above its minimum. -/
  headroom : Int
  /-- The smallest gap between siblings that are spread. -/
  minSpacing : α
  /-- How many times the surface is larger than the parent on each axis. -/
  areaRatio : α
  innerSize : Size α
  outerSize : Size α

namespace Settings

variable {α : Type}

/-- The settings in force unless others are set. -/
def standard [Scalar α] : Settings α where
  gridSize := ofNat 50
  minCell := ofNat 5
  iconSize := ofNat 100
  headroom := 10
  minSpacing := ofNat 10
  areaRatio := ofNat 3 / ofNat 2
  innerSize := ⟨ofNat 100, ofNat 70⟩
  outerSize := ⟨ofNat 100, ofNat 70⟩

/-- The size of a child at a placement. -/
def childSize (s : Settings α) : Placement → Size α
  | .inner => s.innerSize
  | _ => s.outerSize

/-- Settings in a trace. -/
def item (s : Settings α) : Item α :=
  .record "LayoutConfig"
    [("grid_size", .number s.gridSize), ("min_cell", .number s.minCell),
      ("pattern_icon_size", .number s.iconSize), ("open_range_headroom", .int s.headroom),
      ("min_spacing", .number s.minSpacing), ("inner_area_ratio", .number s.areaRatio),
      ("inner_child_size", s.innerSize.item), ("outer_child_size", s.outerSize.item)]

end Settings

/-- The settings of a computation: given to it, or those in force. -/
structure Choice (α : Type) where
  settings : Settings α
  isGiven : Bool

namespace Choice

variable {α : Type}

/-- Settings that are given. -/
def given (s : Settings α) : Choice α := ⟨s, true⟩

/-- The settings in force. -/
def inForce (s : Settings α) : Choice α := ⟨s, false⟩

/-- A choice in a trace: settings that are not given do not show. -/
def item (c : Choice α) : Item α := if c.isGiven then c.settings.item else .none

end Choice

end LayoutGrammar
