import LayoutGrammar.Tree.Json.Write

/-!
# JSON on one line

Values as JSON without blanks or line breaks. Doubles that are not finite, for which JSON has no
numbers, are written as texts, so every line can be read by any reader of JSON.
-/

namespace LayoutGrammar.Json

open Decimal Text

mutual

/-- A value on one line. -/
def line : Value → String
  | .null => "null"
  | .bool b => if b then "true" else "false"
  | .int n => intString n
  | .float x => if x.isNaN || x.isInf then writeString (floatText x) else floatText x
  | .list items | .tuple items => "[" ++ ",".intercalate (lineItems items) ++ "]"
  | .map entries => "\x7b" ++ ",".intercalate (lineMembers entries) ++ "\x7d"
  | v => writeString v.text

/-- The items of a sequence. -/
def lineItems : List Value → List String
  | [] => []
  | v :: rest => line v :: lineItems rest

/-- The members of an object; keys are written as texts. -/
def lineMembers : List (Value × Value) → List String
  | [] => []
  | (k, v) :: rest => (writeString k.text ++ ":" ++ line v) :: lineMembers rest

end

end LayoutGrammar.Json
