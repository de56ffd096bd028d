import LayoutGrammar.Pattern.Basic
import LayoutGrammar.Text.Blank

/-!
# Names for patterns

Which names a pattern may be given, and the names that are made up: `pattern_N` with `N` one more
than the greatest number in use. A made-up name is recognised also when a line break follows it.
-/

namespace LayoutGrammar

open Text

/-- What made-up names begin with. -/
def generatedLead : List Char := "pattern_".toList

/-- The number in a made-up name. -/
def generatedNumber? (id : String) : Option Nat :=
  let cs := id.toList
  if generatedLead.isPrefixOf cs then
    let digits := dropFinalBreak (cs.drop generatedLead.length)
    if digits.isEmpty || !digits.all isDigit then none else some (digitsValue digits)
  else none

/-- The made-up name of a number. -/
def generatedId (n : Nat) : String := String.ofList (generatedLead ++ natText n)

/-- The greatest number of a made-up name among some ids, zero if there is none. -/
def greatestNumber (ids : List String) : Nat := (ids.filterMap generatedNumber?).foldl max 0

/-- The next made-up name. -/
def nextId (ids : List String) : String := generatedId (greatestNumber ids + 1)

/-- The name that a raw value gives to a pattern, blanks at its ends removed. -/
def patternName (raw : Value) : Except Error String :=
  match raw with
  | .str s => if isBlankText s then .error (invalid raw) else .ok (stripped s)
  | _ => .error (invalid raw)
where
  /-- The error of a name that is no text or blank. -/
  invalid (raw : Value) : Error := .invalidName (.str raw.text) "name must not be empty"

end LayoutGrammar
