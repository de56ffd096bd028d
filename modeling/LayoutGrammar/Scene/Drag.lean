import LayoutGrammar.Layout.Event

/-!
# Dragging a child

While a child is dragged, every proposed position is first made legal on its own: locked axes keep
their initial coordinate, a child inside its parent stays inside, a child beside it stays on the
surface and off the parent. If the outcome overlaps a sibling, only the horizontal move is tried,
then only the vertical one; if both fail, the child stays where it is. A `Gesture` is one drag from
begin to end.
-/

namespace LayoutGrammar

open Scalar

/-- What restricts a child that is dragged. -/
structure DragLimits (α : Type) where
  mode : Placement
  parent : Rect α
  surface : Size α
  pins : Pins
  initial : Rect α
  /-- The name of the side through which a child leaves the parent; other names say nothing. -/
  attachment : Option String
deriving DecidableEq

namespace DragLimits

variable {α : Type}

/-- Constraints in a trace. -/
def item (c : DragLimits α) : Item α :=
  .record "DragConstraints"
    [("mode", .text c.mode.name), ("parent", c.parent.item), ("surface", c.surface.item),
      ("fixed", c.pins.item), ("initial", c.initial.item),
      ("attachment", .option .text c.attachment)]

variable [Scalar α]

/-- The proposed place with the locked coordinates put back to their initial values. -/
def freeze (c : DragLimits α) (current : Rect α) (x y : α) : Rect α :=
  current.placedAt (if c.pins.locksX then c.initial.x else x)
    (if c.pins.locksY then c.initial.y else y)

/-- A proposed place, made legal without regard to siblings. -/
def adjust (c : DragLimits α) (current : Rect α) (x y : α) : Except Error (Rect α) :=
  let box := c.freeze current x y
  match c.mode with
  | .inner => .ok (box.movedInside c.parent)
  | .outer => .ok (box.pushOut c.parent c.surface (c.attachment.bind Side.ofName?))
  | .other name => .error (.unknownMode name)

/-- Whether a box overlaps no sibling and, beside the parent, not the parent either. -/
def admits (c : DragLimits α) (siblings : List (Rect α)) (box : Rect α) : Bool :=
  !(c.mode = .outer && box.collides c.parent) && !siblings.any box.collides

end DragLimits

namespace Layout

variable {α : Type} [Scalar α]

/-- A proposed place made legal, traced. -/
def adjustProposal (x y : α) (current : Rect α) (c : DragLimits α) : Traced α (Rect α) :=
  traced .adjustProposal [.number x, .number y, current.item, c.item] [] Rect.item
    (.ofExcept (c.adjust current x y))

/-- Where a child goes when it is dragged to a place: there, or along one axis only, or nowhere. -/
def followPointer (x y : α) (current : Rect α) (c : DragLimits α) (siblings : List (Rect α)) :
    Traced α (Rect α) :=
  traced .followPointer
    [.number x, .number y, current.item, c.item, .list (siblings.map Rect.item)] [] Rect.item
    (do
      let full ← adjustProposal x y current c
      let xOnly ← adjustProposal full.x current.y current c
      let yOnly ← adjustProposal current.x full.y current c
      pure (([full, xOnly, yOnly].find? (c.admits siblings)).getD current))

end Layout

/-- One drag of a child: its box, what restricts it, and the siblings as they stood at the start. -/
structure Gesture (α : Type) where
  bounds : Rect α
  constraints : DragLimits α
  siblings : List (Rect α)
  isDragging : Bool
deriving DecidableEq

namespace Gesture

variable {α : Type}

/-- A gesture before it begins. -/
def idle (bounds : Rect α) (constraints : DragLimits α) (siblings : List (Rect α)) :
    Gesture α := ⟨bounds, constraints, siblings, false⟩

/-- The name of the state of a gesture. -/
def stateName (g : Gesture α) : String := if g.isDragging then "dragging" else "idle"

/-- A gesture in a trace. -/
def item (_ : Gesture α) : Item α := .handle "pattern_grammar.drag.DragGesture"

/-- Begins to drag; a drag in progress goes on. -/
def start (g : Gesture α) : Traced α (Gesture α) :=
  traced .gestureBegin [g.item] [] (fun _ => .none)
    (if g.isDragging then do
      notify .gestureInProgress
      pure g
    else pure { g with isDragging := true })

/-- Drags to a place; nothing moves outside a drag. -/
def move [Scalar α] (g : Gesture α) (x y : α) : Traced α (Gesture α) :=
  traced .gestureMove [g.item, .number x, .number y] [] (·.bounds.item)
    (if g.isDragging then do
      let bounds ← Layout.followPointer x y g.bounds g.constraints g.siblings
      pure { g with bounds }
    else do
      notify .moveOutsideGesture
      pure g)

/-- Ends the drag. -/
def stop (g : Gesture α) : Traced α (Gesture α) :=
  traced .gestureEnd [g.item] [] (·.bounds.item) (pure { g with isDragging := false })

end Gesture

end LayoutGrammar
