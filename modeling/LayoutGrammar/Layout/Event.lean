import LayoutGrammar.Layout.Settings

/-!
# Events of a layout

Besides notices a layout leaves a trace: each of its steps notes its arguments on entry and its
result on exit. `traced` puts a computation between these two notes; its value is not affected.
-/

namespace LayoutGrammar

/-- The steps that are traced. -/
inductive Step where
  | measureExtents
  | fitCell
  | listLocations
  | fitPatternCell
  | primarySide
  | alongAxis
  | centerBox
  | placeBox
  | groupSide
  | gatherGroups
  | spread
  | distribute
  | adjustProposal
  | followPointer
  | gestureBegin
  | gestureMove
  | gestureEnd
deriving DecidableEq, Repr

namespace Step

/-- The name of a step in a trace. -/
def name : Step → String
  | .measureExtents => "side_extents"
  | .fitCell => "cell_size"
  | .listLocations => "pattern_locations"
  | .fitPatternCell => "pattern_cell_size"
  | .primarySide => "primary_side"
  | .alongAxis => "resolve_axis"
  | .centerBox => "centered"
  | .placeBox => "resolve"
  | .groupSide => "anchor_side"
  | .gatherGroups => "group_children"
  | .spread => "spread"
  | .distribute => "distribute"
  | .adjustProposal => "clamp_proposal"
  | .followPointer => "resolve_drag"
  | .gestureBegin => "DragGesture.begin"
  | .gestureMove => "DragGesture.move"
  | .gestureEnd => "DragGesture.end"

/-- The topic of a step. -/
def topic : Step → Topic
  | .measureExtents | .fitCell | .listLocations | .fitPatternCell => .grid
  | .primarySide | .alongAxis | .centerBox | .placeBox => .layout
  | .groupSide | .gatherGroups | .spread | .distribute => .distribution
  | .adjustProposal | .followPointer | .gestureBegin | .gestureMove | .gestureEnd => .drag

end Step

/-- What a layout notes. -/
inductive Event (α : Type) where
  | notice (n : Notice)
  | entering (step : Step) (args : List (Item α)) (named : List (String × Item α))
  | exiting (step : Step) (result : Item α)
  | failed (step : Step)
  | gridScaled (extents : Sides Int) (capacity : List α) (cell : α)
  | distributed (mode : Placement) (side : Side) (count : Nat) (spacing : α)
  | sceneBuilt (pattern : String) (count : Nat) (cell : α)

/-- A computation of a layout. -/
abbrev Traced (α β : Type) := Logged (Event α) Error β

/-- Notes a notice. -/
def notify {α : Type} (n : Notice) : Traced α Unit := Logged.say (.notice n)

/-- Puts a step between a note of its arguments and a note of its result. -/
def traced {α β : Type} (step : Step) (args : List (Item α)) (named : List (String × Item α))
    (shown : β → Item α) (body : Traced α β) : Traced α β :=
  body.between (.entering step args named) fun
    | .ok b => .exiting step (shown b)
    | .error _ => .failed step

@[simp] theorem result_traced {α β : Type} (step : Step) (args : List (Item α))
    (named : List (String × Item α)) (shown : β → Item α) (body : Traced α β) :
    (traced step args named shown body).result = body.result := rfl

end LayoutGrammar
