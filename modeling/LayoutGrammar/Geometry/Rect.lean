import LayoutGrammar.Constraint.Side
import LayoutGrammar.Error
import LayoutGrammar.Geometry.Scalar

/-!
# Rectangles

Axis-aligned boxes, their overlap, and moving a box into an area, onto the surface or off another
box. Boxes that only touch do not overlap, and none of the moves changes a size.
-/

namespace LayoutGrammar

open Scalar

/-- Width and height. -/
structure Size (α : Type) where
  width : α
  height : α
deriving DecidableEq, Repr

/-- A box by its left upper corner and its size; the vertical axis points down. -/
structure Rect (α : Type) where
  x : α
  y : α
  width : α
  height : α
deriving DecidableEq, Repr

namespace Rect

variable {α : Type} [Scalar α]

/-- The right edge. -/
def right (r : Rect α) : α := r.x + r.width

/-- The lower edge. -/
def bottom (r : Rect α) : α := r.y + r.height

omit [Scalar α] in
/-- The size of a box. -/
def size (r : Rect α) : Size α := ⟨r.width, r.height⟩

omit [Scalar α] in
/-- A box of the same size at another place. -/
def placedAt (r : Rect α) (x y : α) : Rect α := { r with x, y }

/-- Whether two boxes overlap; touching is no overlap. -/
def collides (a b : Rect α) : Bool :=
  a.x < b.right && b.x < a.right && a.y < b.bottom && b.y < a.bottom

/-- Moves a box into an area; a box too large for it goes to the area's corner. -/
def movedInside (r area : Rect α) : Rect α :=
  r.placedAt (clamp r.x area.x (area.right - r.width)) (clamp r.y area.y (area.bottom - r.height))

/-- A surface as a box at the origin. -/
def ofSurface (surface : Size α) : Rect α := ⟨zero, zero, surface.width, surface.height⟩

/-- Moves a box onto the surface. -/
def ontoSurface (r : Rect α) (surface : Size α) : Rect α := r.movedInside (ofSurface surface)

/-- The area in the middle of a surface that is smaller by a ratio on each axis. -/
def innerArea (surface : Size α) (ratio : α) : Except Error (Rect α) :=
  if isZero ratio then .error .divisionByZero
  else
    let width := surface.width / ratio
    let height := surface.height / ratio
    .ok ⟨(surface.width - width) / two, (surface.height - height) / two, width, height⟩

/-- How far a box has to move to leave an area through one of its sides. -/
def exitDistance (r area : Rect α) : Side → α
  | .left => r.right - area.x
  | .right => area.right - r.x
  | .top => r.bottom - area.y
  | .bottom => area.bottom - r.y

/-- The side through which a box leaves an area with the shortest move; the horizontal sides are
tried first. -/
def nearestExit (r area : Rect α) : Side :=
  [Side.right, .top, .bottom].foldl
    (fun best side => if r.exitDistance area side < r.exitDistance area best then side else best)
    .left

/-- The box moved until it touches a side of the area from outside. -/
def beside (r area : Rect α) : Side → Rect α
  | .left => r.placedAt (area.x - r.width) r.y
  | .right => r.placedAt area.right r.y
  | .top => r.placedAt r.x (area.y - r.height)
  | .bottom => r.placedAt r.x area.bottom

/-- Moves a box onto the surface and, if it overlaps an area, off the area through the preferred
side, or else through the nearest one, and onto the surface again. -/
def pushOut (r area : Rect α) (surface : Size α) (prefer : Option Side) : Rect α :=
  let r := r.ontoSurface surface
  if r.collides area then
    (r.beside area (prefer.getD (r.nearestExit area))).ontoSurface surface
  else r

end Rect

end LayoutGrammar
