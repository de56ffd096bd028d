import LayoutGrammar.Report.Item
import LayoutGrammar.Tree.SetOrder

/-!
# Sets and maps of items

Items that stand in a set, or as keys in a map, are told apart by what they are made of: values by
value, records by their names and their fields, tuples item by item. A set has an order of its own;
a map keeps the order in which its keys came.
-/

namespace LayoutGrammar.Item

mutual

/-- Whether two items are one and the same key. -/
def same : Item Float → Item Float → Bool
  | .value v, .value w => v == w
  | .number x, .number y => x == y
  | .record m fields, .record n others => m == n && sameFields fields others
  | .tuple items, .tuple others => sameItems items others
  | _, _ => false

/-- Whether two sequences agree item by item. -/
def sameItems : List (Item Float) → List (Item Float) → Bool
  | [], [] => true
  | i :: rest, j :: others => same i j && sameItems rest others
  | _, _ => false

/-- Whether two records agree field by field. -/
def sameFields : List (String × Item Float) → List (String × Item Float) → Bool
  | [], [] => true
  | (_, i) :: rest, (_, j) :: others => same i j && sameFields rest others
  | _, _ => false

end

instance : BEq (Item Float) := ⟨same⟩

mutual

/-- The value that gives an item its place in a set: a record has the place of its fields. -/
def key : Item Float → Value
  | .value v => v
  | .number x => .float x
  | .record _ fields => .tuple (fieldKeys fields)
  | .tuple items => .tuple (keys items)
  | _ => .null

/-- The values that give items their places. -/
def keys : List (Item Float) → List Value
  | [] => []
  | i :: rest => key i :: keys rest

/-- The values that give the fields of a record their places. -/
def fieldKeys : List (String × Item Float) → List Value
  | [] => []
  | (_, i) :: rest => key i :: fieldKeys rest

end

/-- The set of some items. -/
def ofSet (items : List (Item Float)) : Item Float :=
  .set (SetOrder.arrange (fun i => Residue.ofValue? (key i)) false (items.map fun i => (i, i)))

/-- The entries of a map: a repeated key keeps its first form and place, and its last value. -/
def joinEntries (entries : List (Item Float × Item Float)) : List (Item Float × Item Float) :=
  entries.foldl (fun m e => putEntry e.1 e.2 m) []

end LayoutGrammar.Item
