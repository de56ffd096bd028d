import LayoutGrammar.Layout.Cell
import LayoutGrammar.Layout.Spread
import LayoutGrammar.Scene.Drag

/-!
# Scenes

A scene shows one pattern: its parent area in the middle of a surface and the boxes of all its
components whose patterns exist. `build` computes it, `gestureFor` begins to drag one of its
children, `commit` puts a dragged box into it, and `positions` remembers where the boxes stand, so
that a later `build` can put them there again.
-/

namespace LayoutGrammar

open Layout

/-- The placed children of a pattern. -/
structure Scene (α : Type) where
  pattern : String
  surface : Size α
  parent : Rect α
  cell : α
  children : List (Child α)
deriving DecidableEq

/-- Where boxes stand, by the keys of their children. -/
abbrev Positions (α : Type) := Table ChildKey (α × α)

namespace Scene

variable {α : Type}

/-- The child of a key. -/
def child (s : Scene α) (key : ChildKey) : Except Error (Child α) :=
  match s.children.find? (·.key = key) with
  | some c => .ok c
  | none => .error (.unknownComponent s.pattern key.1.name key.2)

/-- All children but the one of a key. -/
def siblings (s : Scene α) (key : ChildKey) : List (Child α) := s.children.filter (·.key ≠ key)

/-- Where the children stand. -/
def positions (s : Scene α) : Positions α :=
  .ofList (s.children.map fun c => (c.key, (c.bounds.x, c.bounds.y)))

/-- The scene with the box of one child replaced. -/
def commit (s : Scene α) (key : ChildKey) (bounds : Rect α) : Except Error (Scene α) := do
  let _ ← s.child key
  pure { s with children := s.children.map fun c => if c.key = key then { c with bounds } else c }

/-- A gesture for one child against all others. -/
def gestureFor (s : Scene α) (key : ChildKey) : Except Error (Gesture α) := do
  let c ← s.child key
  pure (.idle c.bounds
    { mode := c.mode
      parent := s.parent
      surface := s.surface
      pins := c.pins
      initial := c.initial
      attachment := c.attachment.map Side.name }
    ((s.siblings key).map (·.bounds)))

variable [Scalar α]

/-- What all children of a scene have in common while it is built. -/
structure Frame (α : Type) where
  patterns : Dictionary
  surface : Size α
  parent : Rect α
  cell : α
  settings : Settings α

/-- Places one component; a component whose pattern is missing is skipped. -/
def placeChild (f : Frame α) (mode : Placement) (component : String × Component) :
    Traced α (Option (Child α)) := do
  let (name, c) := component
  if !f.patterns.contains c.pattern then do
    notify (.skippedComponent mode.name name c.pattern)
    pure none
  else do
    let isOuter : Bool := mode = .outer
    let box ← placeBox (some c.location) f.parent (f.settings.childSize mode) mode (some f.cell)
      (if isOuter then some f.surface else none) (.given f.settings)
    let attachment ← if isOuter then primarySide (some c.location) else pure none
    let pins := Pins.ofLocation c.location
    pure (some
      { name, mode, pattern := c.pattern, location := some c.location, bounds := box,
        initial := box, pins, draggable := pins.draggable, attachment })

/-- Places components in order. -/
def placeChildren (f : Frame α) (mode : Placement) :
    List (String × Component) → Traced α (List (Child α))
  | [] => pure []
  | component :: rest => do
    let placed ← placeChild f mode component
    let others ← placeChildren f mode rest
    pure (placed.toList ++ others)

/-- A child at the box that spreading gives it, which also becomes the box it started from. -/
def withSpread (boxes : Boxes α) (c : Child α) : Child α :=
  let box := (boxes.get? c.key).getD c.bounds
  { c with bounds := box, initial := box }

/-- A child at the place where it stood before, if that is known. -/
def withPosition (positions : Positions α) (c : Child α) : Child α :=
  match positions.get? c.key with
  | some (x, y) => { c with bounds := c.bounds.placedAt x y }
  | none => c

/-- The scene of a pattern on a surface. -/
def build (patterns : Dictionary) (id : String) (surface : Size α) (positions : Positions α)
    (autoDistribute : Bool) (settings : Settings α) : Traced α (Scene α) := do
  match patterns.get? id with
  | none => .fail (.unknownPattern id)
  | some p => do
    let parent ← .ofExcept (Rect.innerArea surface settings.areaRatio)
    let cell ← fitPatternCell p parent.size (.given settings)
    let frame : Frame α := ⟨patterns, surface, parent, cell, settings⟩
    let inner ← placeChildren frame .inner p.inner.entries
    let outer ← placeChildren frame .outer p.outer.entries
    let placed := inner ++ outer
    let spread ←
      if autoDistribute then do
        let boxes ← distribute placed parent (.given settings)
        pure (placed.map (withSpread boxes))
      else pure placed
    let children := spread.map (withPosition positions)
    Logged.say (.sceneBuilt id children.length cell)
    pure ⟨id, surface, parent, cell, children⟩

end Scene

end LayoutGrammar
