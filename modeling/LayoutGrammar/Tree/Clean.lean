import LayoutGrammar.Tree.Value

/-!
# Cleaning a tree

`Value.clean` drops what says nothing: null, the empty text, and containers in which nothing is
left. Tuples come out as lists. Trees may be nested to any depth: a limit on the recursion of the
process that cleans them is not modelled.
-/

namespace LayoutGrammar.Value

mutual

/-- A container without its empty values; nothing if nothing is left, or if it is no container. -/
def clean : Value → Option Value
  | .map entries =>
    match cleanEntries entries with
    | [] => none
    | rest => some (.map rest)
  | .list items | .tuple items =>
    match cleanItems items with
    | [] => none
    | rest => some (.list rest)
  | _ => none

/-- The items that say something, cleaned. -/
def cleanItems : List Value → List Value
  | [] => []
  | v :: rest =>
    match v with
    | .map _ | .list _ | .tuple _ =>
      match clean v with
      | some v' => v' :: cleanItems rest
      | none => cleanItems rest
    | _ => if v.isEmpty then cleanItems rest else v :: cleanItems rest

/-- The entries whose values say something, cleaned. -/
def cleanEntries : List (Value × Value) → List (Value × Value)
  | [] => []
  | (k, v) :: rest =>
    match v with
    | .map _ | .list _ | .tuple _ =>
      match clean v with
      | some v' => (k, v') :: cleanEntries rest
      | none => cleanEntries rest
    | _ => if v.isEmpty then cleanEntries rest else (k, v) :: cleanEntries rest

end

/-- A tree without its empty values; an empty map if nothing is left. -/
def cleaned (tree : Value) : Value := tree.clean.getD (.map [])

end LayoutGrammar.Value
