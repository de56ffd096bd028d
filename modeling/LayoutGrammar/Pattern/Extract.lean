import LayoutGrammar.Pattern.Basic
import LayoutGrammar.Pattern.Parents
import LayoutGrammar.Constraint.Shorthand
import LayoutGrammar.Extends.Check
import LayoutGrammar.Tree.Clean
import LayoutGrammar.Tree.Source

/-!
# Extracting patterns from a tree

A tree nests patterns: an entry lists components, and a component may carry the definition of its
own pattern. Extraction flattens this into a dictionary. Every entry at the top becomes a pattern of
its name, and every component with a `pattern_definition` becomes a pattern named after it, entered
right after the pattern that owns it and before whatever follows. An id may be entered once, and a
map may not be met again while it is being extracted.

`enter` is the walk; its first argument bounds how deep it goes, and `extract` and `extractHeap`
pass a bound that is never reached. So definitions may be nested to any depth: a limit on the
recursion of the process that extracts is not modelled.
-/

namespace LayoutGrammar

open Logged

namespace Extract

/-- The id of a pattern that a component defines. -/
def inlineId (component : String) : String := component ++ "_inline"

/-- The keys of an entry that are not free properties. -/
def structuralKeys : List String :=
  ["pattern_definition", "item_pattern", "location", "pattern", "inner", "outer", "extends"]

/-- Whether a key is one of the reserved ones. -/
def isStructural : Value → Bool
  | .str s => structuralKeys.contains s
  | _ => false

/-! ## Fields -/

/-- Whether a value is the text `s`. -/
def isText (s : String) : Value → Bool
  | .str t => t == s
  | _ => false

/-- A kind that patterns are expected to have, or none. -/
def isExpectedKind (kind : Value) : Bool :=
  !kind.isGiven || Pattern.knownKinds.any fun known => isText known kind

/-- The text of a value; null has none. -/
def textOf? (v : Value) : Option String := if v.isGiven then some v.text else none

/-- Sets the kind, the size or a free property. -/
def takeField (p : Pattern) (key value : Value) : Logged Notice Error Pattern :=
  if isText "kind" key then do
    unless isExpectedKind value do say (.unknownKind value)
    pure { p with kind := value }
  else if isText "size" key then
    pure { p with size := (textOf? value).elim .null .str }
  else pure { p with properties := p.properties.insert key value }

/-- Takes over one field of a definition; the item pattern counts for arrays only. -/
def hoistField (isArray : Bool) (p : Pattern) (entry : Value × Value) :
    Logged Notice Error Pattern :=
  if isText "item_pattern" entry.1 then
    pure (if isArray then { p with itemPattern := textOf? entry.2 } else p)
  else takeField p entry.1 entry.2

/-- Takes over the fields of a definition. -/
def hoist (p : Pattern) (definition : List (Value × Value)) : Logged Notice Error Pattern :=
  let isArray := (Value.field? "kind" definition).any (isText "array")
  definition.foldlM (hoistField isArray) p

/-! ## Components -/

variable {ν : Type}

/-- How a component's own definition is entered under an id. -/
abbrev Inline (ν : Type) := String → ν → Dictionary → Logged Notice Error Dictionary

/-- The id of the pattern that a component shows. -/
def targetOf (source : Source ν) (name : String) (entries : List (Value × Slot ν)) : String :=
  if (Slot.field? "pattern_definition" entries).isSome then inlineId name
  else (textOf? (Slot.fieldValue source.value "pattern" entries)).getD name

/-- Adds one child of an `inner` or `outer` map, and the pattern that it defines. -/
def addChild (source : Source ν) (inline : Inline ν) (owner : String) (placement : Placement)
    (state : Dictionary × Pattern) (child : Value × Slot ν) :
    Logged Notice Error (Dictionary × Pattern) :=
  let name := child.1.text
  let place (c : Component) := state.2.mapComponents placement (·.insert name c)
  match child.2 with
  | .leaf .null => pure (state.1, place ⟨name, .free⟩)
  | .leaf _ | .row _ => do
    say (.ignoredComponent owner placement.name name)
    pure state
  | .node n => do
    let entries := source.entries n
    let location ← Location.ofValue false (Slot.fieldValue source.innerParts "location" entries)
    let target := targetOf source name entries
    let d ←
      if (Slot.field? "pattern_definition" entries).isSome then inline target n state.1
      else pure state.1
    pure (d, place ⟨target, location⟩)

/-- Adds the children of an `inner` or `outer` map. -/
def addChildren (source : Source ν) (inline : Inline ν) (owner : String) (placement : Placement)
    (state : Dictionary × Pattern) : Slot ν → Logged Notice Error (Dictionary × Pattern)
  | .leaf .null => pure state
  | .node n => (source.entries n).foldlM (addChild source inline owner placement) state
  | other => do
    say (.ignoredComponents owner placement.name (source.value other))
    pure state

/-! ## Entries -/

/-- Takes over one entry of a pattern's map. -/
def addEntry (source : Source ν) (inline : Inline ν) (owner : String)
    (state : Dictionary × Pattern) (entry : Value × Slot ν) :
    Logged Notice Error (Dictionary × Pattern) :=
  if isText "inner" entry.1 then addChildren source inline owner .inner state entry.2
  else if isText "outer" entry.1 then addChildren source inline owner .outer state entry.2
  else if isStructural entry.1 then pure state
  else do
    let p ← takeField state.2 entry.1 (source.value entry.2)
    pure (state.1, p)

/-- The item pattern that an array's own entry gives, unless its definition gave one. -/
def withItem (p : Pattern) (raw : Value) : Pattern :=
  if p.isArray && p.itemPattern.isNone then { p with itemPattern := textOf? raw } else p

/-- The definition of an entry as a map; anything but a map defines nothing. -/
def definitionOf (source : Source ν) (entries : List (Value × Slot ν)) : List (Value × Value) :=
  match Slot.field? "pattern_definition" entries with
  | some (.node n) => (source.entries n).map fun e => (e.1, source.value e.2)
  | _ => []

/-- Reads the pattern of a map, entering the patterns that its components define. -/
def readPattern (source : Source ν) (inline : Inline ν) (id : String) (data : ν) (d : Dictionary) :
    Logged Notice Error (Dictionary × Pattern) := do
  let entries := source.entries data
  let hoisted ← hoist .blank (definitionOf source entries)
  let (d, p) ← entries.foldlM (addEntry source inline id) (d, hoisted)
  let p := withItem p (Slot.fieldValue source.value "item_pattern" entries)
  let parents ← Parents.ofValue (Slot.fieldValue source.parts "extends" entries)
  pure (d, { p with parents })

/-- Enters a map into the dictionary under an id, and the patterns defined within it. The trail
holds the maps that are being extracted, with their ids. -/
def enter (source : Source ν) :
    (depth : Nat) → (trail : List (String × ν)) → (id : String) → Slot ν → Dictionary →
      Logged Notice Error Dictionary
  | 0, _, _, _, d => pure d
  | _ + 1, _, id, .leaf _, d | _ + 1, _, id, .row _, d => do
    say (.skippedEntry id)
    pure d
  | depth + 1, trail, id, .node data, d =>
    if trail.any (source.same data ·.2) then
      fail (.recursiveDefinition (trail.map (·.1) ++ [id]))
    else if d.contains id then fail (.duplicatePattern id)
    else do
      let inline id' n d := enter source depth (trail ++ [(id, data)]) id' (.node n) d
      let (d, p) ← readPattern source inline id data (d.insert id .blank)
      pure (d.insert id p)

/-- The map of patterns: the `patterns` map of the tree, or the tree itself. -/
def topEntries (source : Source ν) : Slot ν → Except Error (List (Value × Slot ν))
  | .node n =>
    let entries := source.entries n
    match Slot.field? "patterns" entries with
    | some (.node inner) => .ok (source.entries inner)
    | _ => .ok entries
  | other => .error (.notAMap (source.value other))

/-- Flattens a source, going at most `depth` definitions deep. -/
def run (source : Source ν) (depth : Nat) (root : Slot ν) : Logged Notice Error Dictionary := do
  let entries ← ofExcept (topEntries source root)
  let d ← entries.foldlM (fun d e => enter source depth [] e.1.text e.2 d) ∅
  say (.extracted d.size)
  pure d

end Extract

/-- The dictionary of a tree. -/
def extract (tree : Value) : Logged Notice Error Dictionary :=
  Extract.run .tree (tree.height + 1) tree.slot

/-- The dictionary of a map in a heap, whose maps may be shared and contain themselves. -/
def extractHeap (heap : Heap) (root : Slot Nat) : Logged Notice Error Dictionary :=
  Extract.run heap.source (heap.cells.size + 1) root

/-- Extracts and checks the extends edges. -/
def checked (extracted : Logged Notice Error Dictionary) : Logged Notice Error Dictionary := do
  let d ← extracted
  ofExcept (Extends.validate d)
  pure d

/-- Extracts a tree and checks its extends edges. -/
def extractValid (tree : Value) : Logged Notice Error Dictionary := checked (extract tree)

/-- The dictionary of a document. -/
def Document.extract : Document → Logged Notice Error Dictionary
  | .plain tree => LayoutGrammar.extract tree
  | .shared heap root => extractHeap heap root

end LayoutGrammar
