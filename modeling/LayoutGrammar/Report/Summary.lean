import LayoutGrammar.Layout.Event
import LayoutGrammar.Report.Collection
import LayoutGrammar.Tree.Shown

/-!
# Summaries

How the items of a trace are written: bounded in the number of fields and items, in the length of
each text, and in the length of the whole. What is left out of a container is shown by dots, and
what is cut off by a remark.
-/

namespace LayoutGrammar

open Decimal Text

/-! ## Cutting texts -/

/-- The characters of a text from a place on that is counted from the end. -/
def lastChars (n : Nat) (cs : List Char) : List Char :=
  if n ≤ cs.length then cs.drop (cs.length - n)
  else cs.drop (cs.length - (n - cs.length))

/-- A text with the middle cut out, so that `front` and `back` characters are left around dots. -/
def cutMiddle (front back : Nat) (cs : List Char) : List Char :=
  cs.take front ++ "...".toList ++ lastChars back cs

/-- A text in quotes, of at most eighty characters. -/
def boundedQuote (s : String) : List Char :=
  let cs := s.toList
  let whole := quoteChars (cs.take 80)
  if whole.length ≤ 80 then whole
  else cutMiddle 38 39 (quoteChars (cs.take 38 ++ lastChars 39 cs))

/-- An integer in at most forty characters. -/
def boundedInt (n : Int) : List Char :=
  let cs := intText n
  if cs.length ≤ 40 then cs else cutMiddle 18 19 cs

/-- Any other text, of at most 160 characters. -/
def boundedText (s : String) : List Char :=
  let cs := s.toList
  if cs.length ≤ 160 then cs else cutMiddle 78 79 cs

/-- A text cut to a length, with a remark; a negative length is counted from the end. -/
def truncate (length : Int) (cs : List Char) : List Char :=
  if (cs.length : Int) ≤ length then cs
  else
    (if 0 ≤ length then cs.take length.toNat else cs.take (cs.length - length.natAbs)) ++
      "... (truncated)".toList

/-- Texts between commas. -/
def commas (texts : List (List Char)) : List Char := ", ".toList.intercalate texts

/-- The first texts of some, with dots in place of the others. -/
def firstTexts (count : Int) (texts : List (List Char)) : List (List Char) :=
  if texts.isEmpty || (texts.length : Int) ≤ count then texts
  else texts.take count.toNat ++ ["...".toList]

/-! ## Numbers in a row -/

/-- The one of two numbers that comes before the other; the second one of equals, which may differ
in the sign of zero; no number wins over all. -/
def earlier (before : Float → Float → Bool) (x y : Float) : Float :=
  if x.isNaN || (!y.isNaN && before x y) then x else y

/-- Cuts a row into groups of eight and what is left. -/
def eights : List Float → List (List Float) × List Float
  | a :: b :: c :: d :: e :: f :: g :: h :: rest =>
    let (groups, left) := eights rest
    ([a, b, c, d, e, f, g, h] :: groups, left)
  | left => ([], left)

/-- Joins eight columns of numbers with groups of eight, eight groups at a time if there are as
many; `join` chooses between two groups. -/
def joinGroups (join : List Float → List Float → List Float) (columns : List Float) :
    List (List Float) → List Float
  | a :: b :: c :: d :: e :: f :: g :: h :: rest =>
    joinGroups join
      (join columns (join (join (join a b) (join c d)) (join (join e f) (join g h)))) rest
  | a :: rest => joinGroups join (join columns a) rest
  | [] => columns

/-- The number that wins over all columns: the second half is joined with the first one until two
columns are left. -/
def joinColumns (choose : Float → Float → Float) : List Float → Float
  | [a, b, c, d, e, f, g, h] =>
    choose (choose (choose g c) (choose e a)) (choose (choose h d) (choose f b))
  | columns => columns.foldl choose 0.0

/-- The least or greatest number of a row by an order. Which of two equal ones it is depends on how
the row is gone through: in eight columns, each of which starts with the first number, and then one
by one. -/
def extreme (before : Float → Float → Bool) (first : Float) (rest : List Float) : Float :=
  let choose := earlier before
  let (groups, left) := eights rest
  let columns := joinGroups (List.zipWith choose) (List.replicate 8 first) groups
  left.foldl choose (joinColumns choose columns)

/-- A row of numbers: all of them if they are few, else their extremes. -/
def arraySummary (maxItems : Int) : List Float → List Char
  | [] => "ndarray(shape=(0,))".toList
  | first :: rest =>
    let count := rest.length + 1
    if (count : Int) ≤ maxItems then
      let texts := (first :: rest).map fun x => boundedText (floatText x)
      "ndarray([".toList ++ commas (firstTexts 8 texts) ++ "])".toList
    else
      "ndarray(shape=(".toList ++ natText count ++ ",), min=".toList ++
        (generalText 6 (extreme (· < ·) first rest)).toList ++ ", max=".toList ++
        (generalText 6 (extreme (· > ·) first rest)).toList ++ [')']

namespace Value

mutual

/-- The summary of a value. -/
def summary (maxItems maxLength : Int) : Value → List Char
  | .str s => truncate maxLength (boundedQuote s)
  | .int n => truncate maxLength (boundedInt n)
  | .list items =>
    truncate maxLength ('[' :: commas (firstTexts maxItems (summaries items)) ++ [']'])
  | .tuple items =>
    truncate maxLength ('(' :: commas (firstTexts maxItems (summaries items)) ++ [')'])
  | .set items =>
    truncate maxLength ('\x7b' :: commas (firstTexts maxItems (summaries items)) ++ ['\x7d'])
  | .map entries =>
    truncate maxLength
      ('\x7b' :: commas (firstTexts maxItems (entrySummaries entries)) ++ ['\x7d'])
  | v => truncate maxLength (boundedText v.shown)

/-- The summaries of the items of a container. -/
def summaries : List Value → List (List Char)
  | [] => []
  | v :: rest => summary 5 400 v :: summaries rest

/-- The summaries of the entries of a map. -/
def entrySummaries : List (Value × Value) → List (List Char)
  | [] => []
  | (k, v) :: rest => (summary 5 400 k ++ ": ".toList ++ summary 5 400 v) :: entrySummaries rest

end

end Value

namespace Item

mutual

/-- The summary of an item; a record shows two fields more than a container shows items. -/
def summaryChars (maxItems maxLength : Int) : Item Float → List Char
  | .value v => v.summary maxItems maxLength
  | .number x => truncate maxLength (boundedText (floatText x))
  | .record name fields =>
    truncate maxLength
      (name.toList ++ '(' :: commas (firstTexts (maxItems + 2) (fieldSummaries fields)) ++ [')'])
  | .list items =>
    truncate maxLength ('[' :: commas (firstTexts maxItems (summaries items)) ++ [']'])
  | .tuple items =>
    truncate maxLength ('(' :: commas (firstTexts maxItems (summaries items)) ++ [')'])
  | .set items =>
    truncate maxLength ('\x7b' :: commas (firstTexts maxItems (summaries items)) ++ ['\x7d'])
  | .map entries =>
    truncate maxLength
      ('\x7b' :: commas (firstTexts maxItems (entrySummaries entries)) ++ ['\x7d'])
  | .array numbers => arraySummary maxItems numbers
  | .handle name => truncate maxLength (boundedText ("<" ++ name ++ " object>"))

/-- The summaries of the items of a container. -/
def summaries : List (Item Float) → List (List Char)
  | [] => []
  | i :: rest => summaryChars 5 400 i :: summaries rest

/-- The summaries of the entries of a map. -/
def entrySummaries : List (Item Float × Item Float) → List (List Char)
  | [] => []
  | (k, v) :: rest =>
    (summaryChars 5 400 k ++ ": ".toList ++ summaryChars 5 400 v) :: entrySummaries rest

/-- The summaries of the fields of a record; a field shows up to three items. -/
def fieldSummaries : List (String × Item Float) → List (List Char)
  | [] => []
  | (name, i) :: rest =>
    (name.toList ++ '=' :: summaryChars 3 400 i) :: fieldSummaries rest

end

/-- The summary of an item within given bounds. -/
def boundedSummary (maxItems maxLength : Int) (i : Item Float) : String :=
  String.ofList (i.summaryChars maxItems maxLength)

/-- The summary of an item. -/
def summary (i : Item Float) : String := i.boundedSummary 5 400

/-- An item as the name of an argument. -/
def label : Item Float → String
  | .record name fields => (Item.record name fields).summary
  | i => i.key.text

end Item

/-- The arguments of a step, those given by name apart. -/
def argumentText (args : List (Item Float)) (named : List (String × Item Float)) : String :=
  let positional :=
    if args.isEmpty then [] else ["args=[" ++ ", ".intercalate (args.map Item.summary) ++ "]"]
  let byName :=
    if named.isEmpty then []
    else
      ["kwargs=\x7b" ++ ", ".intercalate (named.map fun e => e.1 ++ "=" ++ e.2.summary) ++ "\x7d"]
  match positional ++ byName with
  | [] => "no-args"
  | parts => ", ".intercalate parts

end LayoutGrammar
