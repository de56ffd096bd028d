import LayoutGrammar.Layout.Event

/-!
# Scaling the grid

The cells of a parent are as large as possible, but so small that every declared offset fits beside
the room kept for the child. The capacity of an axis is the largest number of cells that any
component needs at one of its sides; the cell is the smaller quotient of room and capacity, within
the limits of the settings.

Extents, rooms and cells are computed as arrays are, by the documented rules of an array library:
integers are stored in signed words of 64 bits, and one that does not fit is refused (`isWord`); the
lesser, the greater and the clipped value of numbers that do not compare is no number
(`Scalar.strictLesser`, `Scalar.strictGreater`).
-/

namespace LayoutGrammar.Layout

open Scalar

variable {α : Type} [Scalar α]

/-! ## Extents -/

/-- The cells that a location needs at each side. -/
def neededCells (headroom : Int) (l : Location) : Sides Int :=
  l.map fun o => o.elim 0 (·.cells headroom)

/-- Whether an extent fits a signed word of 64 bits; an array of words refuses any other integer. -/
def isWord (n : Int) : Bool := -(Decimal.twoTo 63 : Int) ≤ n && n < (Decimal.twoTo 63 : Int)

/-- The greater value at each side. -/
def maxSides (s t : Sides Int) : Sides Int :=
  ⟨max s.top t.top, max s.right t.right, max s.bottom t.bottom, max s.left t.left⟩

/-- The most cells that any of the locations needs at each side. -/
def extents (locations : List Location) (headroom : Int) : Except Error (Sides Int) :=
  match locations.map (neededCells headroom) with
  | [] => .ok ⟨0, 0, 0, 0⟩
  | row :: rows =>
    if (row :: rows).all fun s => s.toList.all fun e => isWord e.2 then
      .ok (rows.foldl maxSides row)
    else .error .extentTooLarge

/-- `extents`, traced. -/
def measureExtents (locations : List Location) (headroom : Int) : Traced α (Sides Int) :=
  traced .measureExtents [.list (locations.map Location.item)] [("headroom", .int headroom)]
    Sides.extentsItem (.ofExcept (extents locations headroom))

/-! ## Cells -/

/-- The capacities of the horizontal and the vertical axis. -/
def capacities (e : Sides Int) : Int × Int := (max e.left e.right, max e.top e.bottom)

/-- The room for offsets along an axis. -/
def room (available icon : α) : α :=
  strictGreater (available - icon) zero

/-- The largest cells that an axis has room for; an axis without capacity sets no limit. -/
def axisCell? (capacity : Int) (available icon : α) : Option α :=
  if 0 < capacity then some (room available icon / ofInt capacity) else none

/-- The largest cells that both axes have room for. -/
def fittingCell? (capacity : Int × Int) (available : Size α) (icon : α) : Option α :=
  match axisCell? capacity.1 available.width icon, axisCell? capacity.2 available.height icon with
  | some a, some b => some (strictLesser a b)
  | some a, none => some a
  | none, some b => some b
  | none, none => none

/-- A cell size within the limits of the settings. -/
def limitCell (s : Settings α) (cell : α) : α :=
  strictLesser s.gridSize (strictGreater s.minCell cell)

/-- The size of the cells for some locations in the available room. -/
def fitCell (locations : List Location) (available : Size α) (choice : Choice α) : Traced α α :=
  traced .fitCell [.list (locations.map Location.item), available.item, choice.item] [] .number
    (do
      let s := choice.settings
      let e ← measureExtents locations s.headroom
      let capacity := capacities e
      match fittingCell? capacity available s.iconSize with
      | none => pure s.gridSize
      | some fitting => do
        let cell := limitCell s fitting
        Logged.say (.gridScaled e [ofInt capacity.1, ofInt capacity.2] cell)
        pure cell)

/-- The locations of a pattern's components, traced. -/
def listLocations (p : Pattern) : Traced α (List Location) :=
  traced .listLocations [p.item] [] (fun ls => .list (ls.map Location.item)) (pure p.locations)

/-- The size of the cells of a pattern. -/
def fitPatternCell (p : Pattern) (available : Size α) (choice : Choice α) : Traced α α :=
  traced .fitPatternCell [p.item, available.item, choice.item] [] .number
    (do
      let locations ← listLocations p
      fitCell locations available choice)

end LayoutGrammar.Layout
