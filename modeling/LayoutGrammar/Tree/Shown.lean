import LayoutGrammar.Decimal.Shortest
import LayoutGrammar.Text.Quoted
import LayoutGrammar.Tree.Value

/-!
# How values appear in messages

`Value.shown` writes a value so that its kind can be seen: texts in quotes, sequences in brackets,
maps in braces. `Value.text` is the same except that a text stands for itself and that days and
moments are written plainly; it names patterns and components whose keys are not texts.
-/

namespace LayoutGrammar

open Decimal Text

namespace Value

mutual

/-- A value with its kind visible. -/
def shown : Value → String
  | .null => "None"
  | .bool true => "True"
  | .bool false => "False"
  | .int n => intString n
  | .float x => floatText x
  | .str s => quoted s
  | .bytes bs => quotedBytes bs
  | .date d => d.shown
  | .moment m => m.shown
  | .list items => "[" ++ ", ".intercalate (shownItems items) ++ "]"
  | .tuple items =>
    match shownItems items with
    | [one] => "(" ++ one ++ ",)"
    | texts => "(" ++ ", ".intercalate texts ++ ")"
  | .set [] => "set()"
  | .set (v :: rest) => "\x7b" ++ ", ".intercalate (v.shown :: shownItems rest) ++ "\x7d"
  | .map entries => "\x7b" ++ ", ".intercalate (shownEntries entries) ++ "\x7d"
  | .again .list => "[...]"
  | .again .tuple => "(...)"
  | .again .map => "\x7b...\x7d"

/-- The items of a sequence, each shown. -/
def shownItems : List Value → List String
  | [] => []
  | v :: rest => v.shown :: shownItems rest

/-- The entries of a map, each shown. -/
def shownEntries : List (Value × Value) → List String
  | [] => []
  | (k, v) :: rest => (k.shown ++ ": " ++ v.shown) :: shownEntries rest

end

/-- A value as a text: a text stands for itself, and days and moments are written plainly. -/
def text : Value → String
  | .str s => s
  | .date d => d.text
  | .moment m => m.text
  | v => v.shown

@[simp] theorem text_str (s : String) : (Value.str s).text = s := rfl

end Value

end LayoutGrammar
