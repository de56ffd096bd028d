import LayoutGrammar.Scene.Basic

/-!
# Drag sessions

A drag session takes one child of a scene, goes through any steps of a gesture in any order, and
commits the box at which the gesture stands. `Scene.afterSession` is the scene that results; a step
or a session that ends in an error changes nothing.
-/

namespace LayoutGrammar

variable {α : Type} [Scalar α]

/-- What a user does during a gesture. -/
inductive GestureStep (α : Type) where
  | start
  | move (x y : α)
  | stop

namespace GestureStep

/-- Carries out one step of a gesture. -/
def apply (g : Gesture α) : GestureStep α → Traced α (Gesture α)
  | .start => g.start
  | .move x y => g.move x y
  | .stop => g.stop

/-- Carries out one step; a step that fails leaves the gesture as it is. -/
def applyOrKeep (g : Gesture α) (step : GestureStep α) : Gesture α :=
  match (step.apply g).result with
  | .ok g' => g'
  | .error _ => g

end GestureStep

/-- A child to drag and what is done with it. -/
structure DragSession (α : Type) where
  key : ChildKey
  steps : List (GestureStep α)

namespace Scene

/-- The scene after a child has been dragged and its box committed. -/
def afterSession (s : Scene α) (session : DragSession α) : Except Error (Scene α) := do
  let g ← s.gestureFor session.key
  s.commit session.key (session.steps.foldl GestureStep.applyOrKeep g).bounds

/-- The scene after some sessions, one after the other; a session for no child changes nothing. -/
def afterSessions (s : Scene α) (sessions : List (DragSession α)) : Scene α :=
  sessions.foldl
    (fun s session =>
      match s.afterSession session with
      | .ok s' => s'
      | .error _ => s)
    s

end Scene

end LayoutGrammar
