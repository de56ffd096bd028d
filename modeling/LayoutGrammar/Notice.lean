import LayoutGrammar.Error
import LayoutGrammar.Logged

/-!
# What is worth noting

Reading, extracting and editing go on after many irregularities and note them. A `Notice` says what
was met; its level, the topic it is filed under and its wording follow from that.
-/

namespace LayoutGrammar

/-- How much a note matters. -/
inductive Level where
  | debug
  | info
  | warning
  | error
deriving DecidableEq, Repr

namespace Level

/-- The name of a level. -/
def name : Level → String
  | .debug => "DEBUG"
  | .info => "INFO"
  | .warning => "WARNING"
  | .error => "ERROR"

/-- The rank of a level: a log kept from some rank on holds the notes of that rank and above. -/
def rank : Level → Nat
  | .debug => 10
  | .info => 20
  | .warning => 30
  | .error => 40

end Level

/-- The parts of the program under which notes are filed. -/
inductive Topic where
  | location
  | ancestry
  | extraction
  | editing
  | grid
  | layout
  | distribution
  | drag
  | scene
  | command
deriving DecidableEq, Repr

/-- The name of a topic in a log. -/
def Topic.name : Topic → String
  | .location => "pattern_grammar.location"
  | .ancestry => "pattern_grammar.inheritance"
  | .extraction => "pattern_grammar.extract"
  | .editing => "pattern_grammar.editing"
  | .grid => "pattern_grammar.grid"
  | .layout => "pattern_grammar.layout"
  | .distribution => "pattern_grammar.distribute"
  | .drag => "pattern_grammar.drag"
  | .scene => "pattern_grammar.scene"
  | .command => "pattern_grammar.__main__"

/-- Something worth noting about texts, trees and patterns. -/
inductive Notice where
  | malformedToken (raw : Value)
  | unknownLocationKey (key : Value)
  | ignoredLocationItem (item : Value)
  | ignoredLocation (raw : Value)
  | rejectedEdge (cause : Error)
  | ignoredExtends (raw : Value)
  | unknownKind (kind : Value)
  | skippedEntry (id : String)
  | ignoredComponents (owner placement : String) (raw : Value)
  | ignoredComponent (owner placement name : String)
  | extracted (count : Nat)
  | rejectedEdit (cause : Error)
  | renamed (old new : String)
  | danglingComponent (target : String)
  | skippedComponent (placement name target : String)
  | gestureInProgress
  | moveOutsideGesture
  | loading (path : String)
  | unreadable (path : String)
  | invalidGrammar (cause : Error)
  | validated
  | noLayout (id : String) (cause : Error)

namespace Notice

/-- How much a notice matters. -/
def level : Notice → Level
  | .malformedToken _ | .unknownLocationKey _ | .ignoredLocationItem _ | .ignoredLocation _
  | .ignoredExtends _ | .unknownKind _ | .ignoredComponents .. | .ignoredComponent ..
  | .skippedComponent .. | .gestureInProgress | .moveOutsideGesture => .warning
  | .rejectedEdge _ | .extracted _ | .rejectedEdit _ | .renamed .. | .loading _ | .validated =>
    .info
  | .skippedEntry _ | .danglingComponent _ => .debug
  | .unreadable _ | .invalidGrammar _ | .noLayout .. => .error

/-- The topic of a notice. -/
def topic : Notice → Topic
  | .malformedToken _ | .unknownLocationKey _ | .ignoredLocationItem _ | .ignoredLocation _ =>
    .location
  | .rejectedEdge _ => .ancestry
  | .ignoredExtends _ | .unknownKind _ | .skippedEntry _ | .ignoredComponents ..
  | .ignoredComponent .. | .extracted _ => .extraction
  | .rejectedEdit _ | .renamed .. | .danglingComponent _ => .editing
  | .skippedComponent .. => .scene
  | .gestureInProgress | .moveOutsideGesture => .drag
  | .loading _ | .unreadable _ | .invalidGrammar _ | .validated | .noLayout .. => .command

/-- The wording of a notice. -/
def text : Notice → String
  | .malformedToken raw => "Malformed location token " ++ raw.shown ++ ", using 0"
  | .unknownLocationKey key => "Ignoring unknown location key " ++ key.shown
  | .ignoredLocationItem item => "Ignoring location entry " ++ item.shown
  | .ignoredLocation raw => "Ignoring location of unsupported type " ++ raw.typeName
  | .rejectedEdge cause => "Rejected extends edge: " ++ cause.message
  | .ignoredExtends raw => "Ignoring extends value of type " ++ raw.typeName
  | .unknownKind kind => "Unknown pattern kind " ++ kind.shown
  | .skippedEntry id => "Skipping non-map entry " ++ Text.quoted id
  | .ignoredComponents owner placement raw =>
    "Pattern " ++ Text.quoted owner ++ ": ignoring " ++ placement ++ " components of type " ++
      raw.typeName
  | .ignoredComponent owner placement name =>
    "Pattern " ++ Text.quoted owner ++ ": ignoring " ++ placement ++ " component " ++
      Text.quoted name
  | .extracted count => "Extracted " ++ Text.natString count ++ " pattern(s)"
  | .rejectedEdit cause => "Edit rejected: " ++ cause.message
  | .renamed old new => "Renamed pattern " ++ Text.quoted old ++ " to " ++ Text.quoted new
  | .danglingComponent target => "Component refers to missing pattern " ++ Text.quoted target
  | .skippedComponent placement name target =>
    "Skipping " ++ placement ++ " component " ++ Text.quoted name ++ ": pattern " ++
      Text.quoted target ++ " not found"
  | .gestureInProgress => "Drag gesture already in progress, ignoring begin"
  | .moveOutsideGesture => "Pointer move outside a drag gesture, position unchanged"
  | .loading path => "Loading patterns from " ++ path
  | .unreadable path => "Could not read " ++ path
  | .invalidGrammar cause => "Invalid pattern grammar: " ++ cause.message
  | .validated => "Validation succeeded"
  | .noLayout id cause => "Cannot lay out " ++ id ++ ": " ++ cause.message

end Notice

end LayoutGrammar
