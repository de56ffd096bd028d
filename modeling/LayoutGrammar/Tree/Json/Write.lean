import LayoutGrammar.Decimal.Shortest
import LayoutGrammar.Tree.Shown

/-!
# Writing JSON

Values as JSON texts, indented by two blanks a level, in ASCII: other characters are escaped by
their code units. Empty containers stay on one line. Doubles that are not finite are written by the
words that `Json.read` accepts.
-/

namespace LayoutGrammar.Json

open Decimal Text

/-- An escape by one code unit. -/
def unitEscape (unit : Nat) : List Char := '\\' :: 'u' :: hexText 4 unit

/-- One character inside quotes. -/
def escapeChar (c : Char) : List Char :=
  if c == '"' || c == '\\' then ['\\', c]
  else if c == '\n' then ['\\', 'n']
  else if c == '\r' then ['\\', 'r']
  else if c == '\t' then ['\\', 't']
  else if c == '\x08' then ['\\', 'b']
  else if c == '\x0c' then ['\\', 'f']
  else
    let n := c.toNat
    if 0x20 ≤ n && n < 0x7F then [c]
    else if n < 0x10000 then unitEscape n
    else unitEscape (0xD800 + (n - 0x10000) / 0x400) ++ unitEscape (0xDC00 + (n - 0x10000) % 0x400)

/-- A text in quotes. -/
def writeString (s : String) : String :=
  String.ofList ('"' :: s.toList.flatMap escapeChar ++ ['"'])

/-- A double. -/
def writeFloat (x : Float) : String :=
  if x.isNaN then "NaN"
  else if x.isInf then (if x < 0 then "-Infinity" else "Infinity")
  else floatText x

/-- The beginning of a line at a level. -/
def newLine (level : Nat) : String := String.ofList ('\n' :: List.replicate (2 * level) ' ')

/-- Parts on lines of their own between brackets. -/
def block (opening closing : String) (level : Nat) (parts : List String) : String :=
  if parts.isEmpty then opening ++ closing
  else
    opening ++ newLine (level + 1) ++ ("," ++ newLine (level + 1)).intercalate parts ++
      newLine level ++ closing

mutual

/-- A value at a level of indentation; what JSON does not know is written as a text. -/
def writeAt (level : Nat) : Value → String
  | .null => "null"
  | .bool b => if b then "true" else "false"
  | .int n => intString n
  | .float x => writeFloat x
  | .str s => writeString s
  | .list items | .tuple items => block "[" "]" level (writeItems (level + 1) items)
  | .map entries => block "\x7b" "\x7d" level (writeMembers (level + 1) entries)
  | v => writeString v.text

/-- The items of a sequence. -/
def writeItems (level : Nat) : List Value → List String
  | [] => []
  | v :: rest => writeAt level v :: writeItems level rest

/-- The members of an object; keys are written as texts. -/
def writeMembers (level : Nat) : List (Value × Value) → List String
  | [] => []
  | (k, v) :: rest => (writeString k.text ++ ": " ++ writeAt level v) :: writeMembers level rest

end

/-- A value as a JSON text. -/
def write (v : Value) : String := writeAt 0 v

end LayoutGrammar.Json
