import LayoutGrammar.Constraint.Location
import LayoutGrammar.Table

/-!
# Shorthands for locations

A location may be written as a map from side keys to tokens, as a sequence of bare side names and
maps, or as one text `side:token, side:token`. `flatten` brings every form to one table of keys and
raw values; `Location.ofEntries` then lets the strongest spelling of each side win and reads its
value.
-/

namespace LayoutGrammar

open Text

namespace Shorthand

/-- The parts of a text between commas. -/
def splitCommas : List Char → List (List Char)
  | [] => [[]]
  | ',' :: rest => [] :: splitCommas rest
  | c :: rest =>
    match splitCommas rest with
    | [] => [[c]]
    | part :: parts => (c :: part) :: parts

/-- The key and the token of one part; a missing token means no distance. -/
def readPart (part : List Char) : String × Value :=
  let token := strip ((part.dropWhile (· != ':')).drop 1)
  (String.ofList (strip (part.takeWhile (· != ':'))),
    .str (if token.isEmpty then "0" else String.ofList token))

/-- The entries of a text; blank parts are skipped. -/
def ofText (s : String) : List (String × Value) :=
  ((splitCommas s.toList).map strip).filterMap fun part =>
    if part.isEmpty then none else some (readPart part)

/-- The entries of a map, keys as texts. -/
def ofMap (entries : List (Value × Value)) : List (String × Value) :=
  entries.map fun e => (e.1.text, e.2)

/-- Adds one item of a sequence: a bare side name, or a map. -/
def addItem (table : Table String Value) : Value → Logged Notice Error (Table String Value)
  | .str s => pure (table.insert (lowered (stripped s)) (.str "0"))
  | .map entries => pure (table.insertAll (ofMap entries))
  | item => do
    Logged.say (.ignoredLocationItem item)
    pure table

/-- Brings every accepted form of a location to one table of keys and raw values. -/
def flatten : Value → Logged Notice Error (Table String Value)
  | .null => pure ∅
  | .map entries => pure (.ofList (ofMap entries))
  | .str s => pure (.ofList (ofText s))
  | .list items | .tuple items => items.foldlM addItem ∅
  | raw => do
    Logged.say (.ignoredLocation raw)
    pure ∅

end Shorthand

namespace Location

/-- The values that compete for each side, the strongest so far. -/
abbrev Contest := Sides (Option (Spelling × Value))

/-- Lets an entry compete: it wins over a spelling that is not stronger than its own. -/
def Contest.enter (contest : Contest) (entry : Value × Value) : Logged Notice Error Contest :=
  match readSideKey? entry.1.text with
  | none => do
    Logged.say (.unknownLocationKey entry.1)
    pure contest
  | some (spelling, side) =>
    match contest.get side with
    | some (held, _) =>
      if held.rank ≤ spelling.rank then pure (contest.set side (some (spelling, entry.2)))
      else pure contest
    | none => pure (contest.set side (some (spelling, entry.2)))

/-- Reads the value that won a side. -/
def readWinner (strict : Bool) (winner : Option (Spelling × Value)) :
    Logged Notice Error (Option Offset) :=
  match winner with
  | none => pure none
  | some (_, raw) => do
    let o ← Offset.read strict raw
    pure (some o)

/-- The location of a raw map: the strongest spelling of a side wins, and among equal spellings the
last one. -/
def ofEntries (strict : Bool) (entries : List (Value × Value)) : Logged Notice Error Location := do
  let contest ← entries.foldlM Contest.enter ⟨none, none, none, none⟩
  let top ← readWinner strict contest.top
  let right ← readWinner strict contest.right
  let bottom ← readWinner strict contest.bottom
  let left ← readWinner strict contest.left
  pure ⟨top, right, bottom, left⟩

/-- The location that a raw value gives in any of the accepted forms. -/
def ofValue (strict : Bool) (raw : Value) : Logged Notice Error Location := do
  let table ← Shorthand.flatten raw
  ofEntries strict (table.entries.map fun e => (.str e.1, e.2))

end Location

end LayoutGrammar
