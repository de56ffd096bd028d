import LayoutGrammar.Constraint.OffsetText
import LayoutGrammar.Constraint.Sides

/-!
# Locations and pins

A location constrains some of the sides of a child by offsets. A side is pinned when its offset
starts at zero: the child is then flush with the parent there and cannot be dragged along that axis.
The primary side is the one that a child beside its parent is attached to.
-/

namespace LayoutGrammar

/-- The offsets of the constrained sides. -/
abbrev Location := Sides (Option Offset)

namespace Location

/-- No side is constrained. -/
def free : Location := ⟨none, none, none, none⟩

instance : Inhabited Location := ⟨free⟩

/-- The constrained sides with their offsets, clockwise from the top. -/
def offsets (l : Location) : List (Side × Offset) :=
  l.toList.filterMap fun e => e.2.map (e.1, ·)

/-- Whether no side is constrained. -/
def isFree (l : Location) : Bool := l.offsets.isEmpty

/-- The tokens of the constrained sides. -/
def tokens (l : Location) : List (Side × String) := l.offsets.map fun e => (e.1, e.2.text)

/-- The token that is displayed at a side; a side without constraint reads as at least zero. -/
def displayed (l : Location) (side : Side) : String := (l.get side).elim "0+" Offset.text

/-- The tokens that are displayed at all sides. -/
def display (l : Location) : List (Side × String) :=
  Side.all.map fun side => (side, l.displayed side)

/-- Sets the side that a key names from a token; without a token, or with a blank one, the side
loses its constraint. -/
def setToken (l : Location) (key : String) (token : Option String) (strict : Bool) :
    Logged Notice Error Location :=
  match readSideKey? key with
  | none => Logged.fail (.unknownSide key)
  | some (_, side) =>
    match token with
    | none => pure (l.set side none)
    | some t =>
      if Text.isBlankText t then pure (l.set side none)
      else do
        let o ← Offset.read strict (.str t)
        pure (l.set side (some o))

/-- The order in which sides are tried for attachment. -/
def attachmentOrder : List Side := [.left, .right, .top, .bottom]

/-- The side of the parent that a child beside it is attached to. -/
def primarySide (l : Location) : Option Side :=
  attachmentOrder.find? fun side => (l.get side).isSome

end Location

/-- Which sides are pinned. -/
abbrev Pins := Sides Bool

namespace Pins

/-- The sides whose offset starts at zero. -/
def ofLocation (l : Location) : Pins := l.map fun o => o.any (·.min == 0)

/-- The position along the horizontal axis cannot change. -/
def locksX (p : Pins) : Bool := p.left || p.right

/-- The position along the vertical axis cannot change. -/
def locksY (p : Pins) : Bool := p.top || p.bottom

/-- The pinned sides, clockwise from the top. -/
def sides (p : Pins) : List Side := Side.all.filter p.get

/-- How many sides are pinned. -/
def count (p : Pins) : Nat := p.sides.length

/-- A child can be dragged unless all its sides are pinned. -/
def draggable (p : Pins) : Bool := p.count < 4

/-- The only pinned side. -/
def single? (p : Pins) : Option Side :=
  match p.sides with
  | [side] => some side
  | _ => none

/-- Whether the side of a given name is pinned. -/
def named (p : Pins) (name : String) : Except Error Bool :=
  match Side.ofName? name with
  | some side => .ok (p.get side)
  | none => .error (.noEntry name)

@[simp] theorem get_ofLocation (l : Location) (side : Side) :
    (ofLocation l).get side = (l.get side).any (·.min == 0) := Sides.get_map _ _ _

end Pins

end LayoutGrammar
