import LayoutGrammar.Decimal.Read
import LayoutGrammar.Decimal.Shortest
import LayoutGrammar.Tree.Source

/-!
# Tagged trees

A tree as plain JSON. What JSON has no form for is put under a tag: doubles as texts, tuples, and
maps as lists of entries, so that their order counts and any value may be a key. A map may be given
a name under which it is met again, even inside itself.
-/

namespace LayoutGrammar.Tagged

/-- Why a tagged tree is no tree. -/
inductive Fault where
  | malformed
  /-- A container stands in place of a key. -/
  | notAKey (v : Value)

/-- The containers read so far and the names of maps. -/
structure Reading where
  names : List (String × Nat)
  cells : Array Cell

/-- A reader of tagged trees. -/
abbrev Reader := StateT Reading (Except Fault)

/-- Adds a container. -/
def add (cell : Cell) : Reader Nat := do
  let r ← get
  set { r with cells := r.cells.push cell }
  pure r.cells.size

/-- Adds a map, under a name if it has one. -/
def addMap (name : Option String) : Reader Nat := do
  let address ← add (.map [])
  modify fun r => { r with names := (name.map fun n => (n, address)).toList ++ r.names }
  pure address

/-- The double that a text spells. -/
def number (text : String) : Reader Value :=
  match Decimal.readFloat? text with
  | some x => pure (.float x)
  | none => throw .malformed

mutual

/-- A container in a key that cannot be part of one. -/
def obstacle? : Value → Option Value
  | .list items => some (.list items)
  | .map entries => some (.map entries)
  | .tuple items => obstacles? items
  | _ => none

/-- The first container among items that cannot be part of a key. -/
def obstacles? : List Value → Option Value
  | [] => none
  | v :: rest => obstacle? v <|> obstacles? rest

end

/-- The key that a slot holds. -/
def key (slot : Slot Nat) : Reader Value := do
  let v := (⟨(← get).cells⟩ : Heap).value slot
  match obstacle? v with
  | some container => throw (.notAKey container)
  | none => pure v

mutual

/-- The slot of a tagged tree. -/
def slot : Value → Reader (Slot Nat)
  | .list items => do
    let items ← slots items
    return .row (← add (.list items))
  | .map [(.str "float", .str text)] => return .leaf (← number text)
  | .map [(.str "tuple", .list items)] => do
    let items ← slots items
    return .row (← add (.tuple items))
  | .map [(.str "use", .str name)] => do
    match (← get).names.lookup name with
    | some address => pure (.node address)
    | none => throw .malformed
  | .map [(.str "map", .list entries)] => members none entries
  | .map [(.str "def", .str name), (.str "map", .list entries)] => members (some name) entries
  | .map [(.str "map", .list entries), (.str "def", .str name)] => members (some name) entries
  | .map _ => throw .malformed
  | v => pure (.leaf v)

/-- The slots of several tagged trees. -/
def slots : List Value → Reader (List (Slot Nat))
  | [] => pure []
  | v :: rest => do
    let first ← slot v
    return first :: (← slots rest)

/-- A map with some entries. -/
def members (name : Option String) (entries : List Value) : Reader (Slot Nat) := do
  let address ← addMap name
  let entries ← pairs entries
  let entries := entries.foldl (fun m e => putEntry e.1 e.2 m) []
  modify fun r => { r with cells := r.cells.set! address (.map entries) }
  pure (.node address)

/-- The entries of a map. -/
def pairs : List Value → Reader (List (Value × Slot Nat))
  | [] => pure []
  | .list [k, v] :: rest => do
    let k ← slot k
    let v ← slot v
    let k ← key k
    return (k, v) :: (← pairs rest)
  | _ :: _ => throw .malformed

end

/-- Several tagged trees, which may share named maps; without names they are plain trees. -/
def documents (vs : List Value) : Except Fault (List Document) := do
  let (slots, r) ← (slots vs).run ⟨[], #[]⟩
  let heap : Heap := ⟨r.cells⟩
  pure (slots.map fun slot =>
    if r.names.isEmpty then .plain (heap.value slot) else .shared heap slot)

/-- The map with a document under one name. -/
def under (name : String) : Document → Document
  | .plain v => .plain (.map [(.str name, v)])
  | .shared heap slot =>
    .shared ⟨heap.cells.push (.map [(.str name, slot)])⟩ (.node heap.cells.size)

mutual

/-- A value as a tagged tree. -/
def write : Value → Value
  | .float x => .map [(.str "float", .str (Decimal.floatText x))]
  | .list items => .list (writeItems items)
  | .tuple items => .map [(.str "tuple", .list (writeItems items))]
  | .map entries => .map [(.str "map", .list (writeEntries entries))]
  | v => v

/-- Items as tagged trees. -/
def writeItems : List Value → List Value
  | [] => []
  | v :: rest => write v :: writeItems rest

/-- Entries as lists of two tagged trees. -/
def writeEntries : List (Value × Value) → List Value
  | [] => []
  | (k, v) :: rest => .list [write k, write v] :: writeEntries rest

end

end LayoutGrammar.Tagged
