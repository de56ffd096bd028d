import LayoutGrammar.Decimal.Shortest
import LayoutGrammar.Geometry.Rect
import LayoutGrammar.Pattern.Basic

/-!
# What a trace shows

The arguments and results that a trace mentions are `Item`s: values, numbers, records with named
fields and containers of items. Every domain type that a trace shows has its item here.
-/

namespace LayoutGrammar

/-- Something that a trace shows, over a type of numbers. -/
inductive Item (α : Type) where
  | value (v : Value)
  | number (x : α)
  | record (name : String) (fields : List (String × Item α))
  | list (items : List (Item α))
  | tuple (items : List (Item α))
  | set (items : List (Item α))
  | map (entries : List (Item α × Item α))
  | array (numbers : List α)
  /-- A thing that is shown by its kind only. -/
  | handle (name : String)

namespace Item

variable {α : Type}

/-- A text. -/
def text (s : String) : Item α := .value (.str s)

/-- Nothing. -/
def none : Item α := .value .null

/-- An integer. -/
def int (n : Int) : Item α := .value (.int n)

/-- A truth value. -/
def bool (b : Bool) : Item α := .value (.bool b)

/-- Something that may be missing. -/
def option {β : Type} (f : β → Item α) : Option β → Item α
  | some b => f b
  | .none => .none

end Item

variable {α : Type}

/-- A size in a trace. -/
def Size.item (s : Size α) : Item α :=
  .record "Size" [("width", .number s.width), ("height", .number s.height)]

/-- A box in a trace. -/
def Rect.item (r : Rect α) : Item α :=
  .record "Rect"
    [("x", .number r.x), ("y", .number r.y), ("width", .number r.width),
      ("height", .number r.height)]

/-- A side in a trace. -/
def Side.item (s : Side) : Item α := .text s.name

/-- An offset in a trace; a missing bound shows as infinity. -/
def Offset.item (o : Offset) : Item α :=
  .record "OffsetRange"
    [("min", .int o.min), ("max", o.max.elim (.value (.float (1.0 / 0.0))) .int)]

/-- A location in a trace. -/
def Location.item (l : Location) : Item α := .map (l.offsets.map fun e => (e.1.item, e.2.item))

/-- Pins in a trace. -/
def Pins.item (p : Pins) : Item α :=
  .record "FixedSides" (p.toList.map fun e => (e.1.name, .bool e.2))

/-- Extents in a trace. -/
def Sides.extentsItem (s : Sides Int) : Item α :=
  .map (s.toList.map fun e => (e.1.item, .int e.2))

/-- A component in a trace. -/
def Component.item (c : Component) : Item α :=
  .record "ComponentRef" [("pattern", .text c.pattern), ("location", c.location.item)]

/-- A pattern in a trace. -/
def Pattern.item (p : Pattern) : Item α :=
  let components (cs : Table String Component) : Item α :=
    .map (cs.entries.map fun e => (.text e.1, e.2.item))
  .record "Pattern"
    [("kind", .value p.kind), ("size", .value p.size),
      ("properties", .map (p.properties.entries.map fun e => (.value e.1, .value e.2))),
      ("inner", components p.inner), ("outer", components p.outer),
      ("extends", .list (p.parents.map .text)), ("item_pattern", .option .text p.itemPattern)]

end LayoutGrammar
