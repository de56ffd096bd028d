import LayoutGrammar.Layout.Event

/-!
# Placing a box

Along each axis a child has a near side (left or top) and a far one. Pinned on both, it stretches
across its parent; pinned on one, it is flush there; with two offsets it stands in the middle of
what they leave, or at the near one if it does not fit; with one offset it keeps that distance; with
none it is centred. A child inside its parent follows these rules on both axes and is then moved
into the parent. A child beside its parent stands at its primary side and follows them on the other
axis.
-/

namespace LayoutGrammar.Layout

open Scalar

variable {α : Type} [Scalar α]

/-! ## One axis -/

/-- The least distance of an offset in pixels. -/
def pixels (o : Offset) (cell : α) : Except Error α :=
  if overflows α o.min then .error .integerTooLarge else .ok (ofInt o.min * cell)

/-- The position and the length of a child along one axis, by the offsets of its near and far
sides. -/
def placeOnAxis (near far : Option Offset) (start span length cell : α) : Except Error (α × α) :=
  match near, far with
  | some n, some f =>
    if n.min = 0 then
      if f.min = 0 then do
        let before ← pixels n cell
        let after ← pixels f cell
        pure (start + before, greater zero (span - before - after))
      else pure (start, length)
    else if f.min = 0 then pure (start + span - length, length)
    else do
      let before ← pixels n cell
      let after ← pixels f cell
      let low := start + before
      let high := start + span - after
      if length ≤ high - low then pure (low + (high - low - length) / two, length)
      else pure (low, length)
  | some n, none =>
    if n.min = 0 then pure (start, length)
    else do
      let before ← pixels n cell
      pure (start + before, length)
  | none, some f =>
    if f.min = 0 then pure (start + span - length, length)
    else do
      let after ← pixels f cell
      pure (start + span - after - length, length)
  | none, none => pure (start + (span - length) / two, length)

/-- `placeOnAxis`, traced. -/
def alongAxis (near far : Option Offset) (start span length cell : α) : Traced α (α × α) :=
  traced .alongAxis
    [.option Offset.item near, .option Offset.item far, .number start, .number span,
      .number length, .number cell] []
    (fun p => .tuple [.number p.1, .number p.2])
    (.ofExcept (placeOnAxis near far start span length cell))

/-! ## Boxes -/

/-- The primary side of a location that may be missing. -/
def primarySide (location : Option Location) : Traced α (Option Side) :=
  traced .primarySide [.option Location.item location] [] (.option Side.item)
    (pure (location.bind Location.primarySide))

/-- A child in the middle of its parent. -/
def centerBox (parent : Rect α) (child : Size α) : Traced α (Rect α) :=
  traced .centerBox [parent.item, child.item] [] Rect.item
    (pure ⟨parent.x + (parent.width - child.width) / two,
      parent.y + (parent.height - child.height) / two, child.width, child.height⟩)

/-- Where a child stands along the horizontal axis of its parent, and how wide it is. -/
def alongX (l : Location) (parent : Rect α) (child : Size α) (cell : α) : Traced α (α × α) :=
  alongAxis l.left l.right parent.x parent.width child.width cell

/-- Where a child stands along the vertical axis of its parent, and how high it is. -/
def alongY (l : Location) (parent : Rect α) (child : Size α) (cell : α) : Traced α (α × α) :=
  alongAxis l.top l.bottom parent.y parent.height child.height cell

/-- The box of a child inside its parent. -/
def placeInside (l : Location) (parent : Rect α) (child : Size α) (cell : α) :
    Traced α (Rect α) := do
  let (x, width) ← alongX l parent child cell
  let (y, height) ← alongY l parent child cell
  pure (Rect.movedInside ⟨x, y, width, height⟩ parent)

/-- The box of a child that stands beside its parent on the given side, as far from it as the
side's offset says. -/
def placeBeside (l : Location) (parent : Rect α) (child : Size α) (cell : α) (side : Side) :
    Traced α (Rect α) := do
  let gap ← .ofExcept (pixels ((l.get side).getD .zero) cell)
  match side with
  | .left => do
    let (y, height) ← alongY l parent child cell
    pure ⟨parent.x - child.width - gap, y, child.width, height⟩
  | .right => do
    let (y, height) ← alongY l parent child cell
    pure ⟨parent.right + gap, y, child.width, height⟩
  | .top => do
    let (x, width) ← alongX l parent child cell
    pure ⟨x, parent.y - child.height - gap, width, child.height⟩
  | .bottom => do
    let (x, width) ← alongX l parent child cell
    pure ⟨x, parent.bottom + gap, width, child.height⟩

/-- The box of a child. A cell is as large as the settings say unless its size is given; a child
beside its parent is kept on the surface if there is one. -/
def placeBox (location : Option Location) (parent : Rect α) (child : Size α) (mode : Placement)
    (cell : Option α) (surface : Option (Size α)) (choice : Choice α) : Traced α (Rect α) :=
  traced .placeBox
    [.option Location.item location, parent.item, child.item, .text mode.name]
    [("cell", .option .number cell), ("surface", .option Size.item surface),
      ("config", choice.item)]
    Rect.item
    (if !mode.isKnown then .fail (.unknownMode mode.name)
    else do
      let cell := cell.getD choice.settings.gridSize
      let side ← primarySide location
      match location, side with
      | some l, some side =>
        if mode = .inner then placeInside l parent child cell
        else do
          let box ← placeBeside l parent child cell side
          pure (surface.elim box box.ontoSurface)
      | _, _ => centerBox parent child)

end LayoutGrammar.Layout
