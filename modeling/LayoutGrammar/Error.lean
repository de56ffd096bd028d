import LayoutGrammar.Tree.Shown

/-!
# What can go wrong

`Error` lists the causes for which an operation ends without a value, and `Error.message` words
them. A placement stands here by its name, because an unknown one is a cause of its own.
-/

namespace LayoutGrammar

/-- Why an operation has no value. -/
inductive Error where
  /-- Two entries or an edit claim one pattern id. -/
  | duplicatePattern (id : String)
  | unknownPattern (id : String)
  | invalidName (name : Value) (reason : String)
  | unknownTarget (id target : String)
  /-- An extends edge closes a cycle, which is given if it is known. -/
  | cyclicExtends (id target : String) (cycle : List String)
  | redundantExtends (id target : String)
  | componentCollision (owner placement name : String)
  | unknownComponent (owner placement name : String)
  | malformedToken (token : Value)
  /-- A map is met again while it is being extracted, along a path of ids. -/
  | recursiveDefinition (path : List String)
  | unknownSide (key : String)
  /-- Nothing is known by a name. -/
  | noEntry (name : String)
  | unknownPlacement (name : String)
  | unknownMode (name : String)
  | blankComponentName
  /-- A field of a pattern is edited by an operation of its own. -/
  | separateEdit (field : Value)
  /-- A field is named like what the edit is about. -/
  | reservedField (name : String)
  | notAMap (tree : Value)
  | divisionByZero
  /-- An index key is infinite. -/
  | infiniteIndex
  /-- An extent does not fit a machine word. -/
  | extentTooLarge
  /-- An integer exceeds every finite double. -/
  | integerTooLarge
  /-- The name of a log level stands for something else. -/
  | unknownLevel (name : String)
  /-- The name of a log level stands for something else that is no text. -/
  | notALevel (thing : String)
  /-- A log level is asked for without a name. -/
  | missingLevel
  /-- A surface is asked for without its width or its height. -/
  | missingNumber
  /-- A word is claimed to be a truth value. -/
  | noTruthValue (word : String)
  /-- A number has no digits. -/
  | blankNumber
  /-- A text is claimed to be a moment. -/
  | noMoment
  /-- A map is claimed to be a moment. -/
  | momentOfMap

namespace Error

/-- A name between double quotes, as it is. -/
def named (s : String) : String := "\"" ++ s ++ "\""

/-- Ids along a path. -/
def arrows (path : List String) : String := " -> ".intercalate path

/-- The wording of an error. -/
def message : Error → String
  | .duplicatePattern id => "pattern " ++ named id ++ " already exists"
  | .unknownPattern id => "pattern " ++ named id ++ " not found"
  | .invalidName name reason => "invalid pattern name " ++ name.shown ++ ": " ++ reason
  | .unknownTarget id target =>
    "pattern " ++ named id ++ " extends unknown pattern " ++ named target
  | .cyclicExtends id target cycle =>
    "pattern " ++ named id ++ " cannot extend " ++ named target ++ ": cycle" ++
      (if cycle.isEmpty then "" else " " ++ arrows cycle)
  | .redundantExtends id target => "pattern " ++ named id ++ " already extends " ++ named target
  | .componentCollision owner placement name =>
    "pattern " ++ named owner ++ " already has an " ++ placement ++ " component " ++ named name
  | .unknownComponent owner placement name =>
    "pattern " ++ named owner ++ " has no " ++ placement ++ " component " ++ named name
  | .malformedToken token => "malformed location token " ++ token.shown
  | .recursiveDefinition path => "inline pattern definition embeds itself: " ++ arrows path
  | .unknownSide key => "unknown side " ++ Text.quoted key
  | .noEntry name => Text.quoted name
  | .unknownPlacement name => "unknown placement " ++ Text.quoted name
  | .unknownMode name => "unknown placement mode " ++ Text.quoted name
  | .blankComponentName => "component name must not be empty"
  | .separateEdit field => field.shown ++ " has its own edit operation"
  | .reservedField name =>
    "update_pattern() got multiple values for argument " ++ Text.quoted name
  | .notAMap tree => "pattern tree must be a mapping, got " ++ tree.typeName
  | .divisionByZero => "float division by zero"
  | .infiniteIndex => "cannot convert float infinity to integer"
  | .extentTooLarge => "Python int too large to convert to C long"
  | .integerTooLarge => "int too large to convert to float"
  | .unknownLevel name => "Unknown level: " ++ Text.quoted name
  | .notALevel thing => "Level not an integer or a valid string: " ++ thing
  | .missingLevel => "'list' object has no attribute 'upper'"
  | .missingNumber => "unsupported operand type(s) for /: 'list' and 'float'"
  | .noTruthValue word => Text.quoted word
  | .blankNumber => "string index out of range"
  | .noMoment => "'NoneType' object has no attribute 'groupdict'"
  | .momentOfMap => "expected string or bytes-like object, got 'list'"

/-- A fault of the grammar or of a request to it, as opposed to a value that cannot be computed. -/
def isGrammarFault : Error → Bool
  | .duplicatePattern _ | .unknownPattern _ | .invalidName .. | .unknownTarget ..
  | .cyclicExtends .. | .redundantExtends .. | .componentCollision .. | .unknownComponent ..
  | .malformedToken _ | .recursiveDefinition _ => true
  | _ => false

end Error

/-- Why the contents of a file give no tree. -/
inductive ReadFault where
  /-- They break the rules of their notation. -/
  | unreadable
  | failed (e : Error)

end LayoutGrammar
