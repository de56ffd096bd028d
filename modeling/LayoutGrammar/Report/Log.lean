import LayoutGrammar.Report.Summary

/-!
# Log lines

Level, topic and wording of the events of a layout.
-/

namespace LayoutGrammar

open Decimal

namespace Event

/-- How much an event matters; the trace matters least. -/
def level {α : Type} : Event α → Level
  | .notice n => n.level
  | _ => .debug

/-- The topic of an event. -/
def topic {α : Type} : Event α → Topic
  | .notice n => n.topic
  | .entering step .. => step.topic
  | .exiting step _ => step.topic
  | .failed step => step.topic
  | .gridScaled .. => .grid
  | .distributed .. => .distribution
  | .sceneBuilt .. => .scene

/-- Extents with the names of their sides. -/
def extentsText (e : Sides Int) : String :=
  (Value.map (e.toList.map fun p => (.str p.1.name, .int p.2))).shown

/-- The wording of an event. -/
def text : Event Float → String
  | .notice n => n.text
  | .entering step args named => "Entering " ++ step.name ++ " (" ++ argumentText args named ++ ")"
  | .exiting step result => "Exiting " ++ step.name ++ " -> " ++ result.summary
  | .failed step => "Exception in " ++ step.name
  | .gridScaled e capacity cell =>
    "grid extents=" ++ extentsText e ++ " capacity=" ++
      (Value.list (capacity.map .float)).shown ++ " cell=" ++ fixedText 3 cell
  | .distributed mode side count spacing =>
    "distribute " ++ mode.name ++ "/" ++ side.name ++ ": " ++ Text.natString count ++
      " child(ren), spacing=" ++ fixedText 3 spacing
  | .sceneBuilt id count cell =>
    "Scene for " ++ Text.quoted id ++ ": " ++ Text.natString count ++ " child(ren), cell=" ++
      fixedText 3 cell

end Event

/-- The events of a log that matter at least as much as a rank. -/
def eventsFrom (rank : Nat) (log : List (Event Float)) : List (Event Float) :=
  log.filter fun e => rank ≤ e.level.rank

end LayoutGrammar
