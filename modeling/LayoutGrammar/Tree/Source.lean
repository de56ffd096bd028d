import LayoutGrammar.Tree.Value

/-!
# Where maps come from

Extraction walks from map to map. In a `Source` the maps are nodes of some type, each with its
entries in order, and some nodes may be the same map met again, even inside itself. A plain tree is
a source in which no two maps are the same; a `Heap` holds maps and sequences at addresses, so that
they can be shared and can contain themselves. A `Document` is either of the two.
-/

namespace LayoutGrammar

/-- What stands under a key: a map or a sequence that may be met again, by its node, or any other
value. -/
inductive Slot (ν : Type) where
  | leaf (v : Value)
  | node (n : ν)
  | row (n : ν)

/-- Maps and sequences that refer to each other. -/
structure Source (ν : Type) where
  /-- The entries of a map. -/
  entries : ν → List (Value × Slot ν)
  /-- The items of a sequence. -/
  items : ν → List (Slot ν)
  /-- What a slot holds, as a value. -/
  value : Slot ν → Value
  /-- Whether two nodes are one and the same map. -/
  same : ν → ν → Bool

namespace Source

variable {ν : Type}

/-- What a slot holds, as a value whose parts are values by themselves. -/
def parts (source : Source ν) : Slot ν → Value
  | .leaf v => v
  | .node n => .map ((source.entries n).map fun e => (e.1, source.value e.2))
  | .row n => .list ((source.items n).map source.value)

/-- As `parts`, and the parts of the maps in a sequence are values by themselves, too. -/
def innerParts (source : Source ν) : Slot ν → Value
  | .row n =>
    .list ((source.items n).map fun
      | .node m => source.parts (.node m)
      | item => source.value item)
  | slot => source.parts slot

end Source

/-- What stands under a name. -/
def Slot.field? {ν : Type} (name : String) : List (Value × Slot ν) → Option (Slot ν)
  | [] => none
  | (.str s, slot) :: rest => if s = name then some slot else field? name rest
  | _ :: rest => field? name rest

/-- The value under a name as `read` takes it, null if there is none. -/
def Slot.fieldValue {ν : Type} (read : Slot ν → Value) (name : String)
    (entries : List (Value × Slot ν)) : Value :=
  ((field? name entries).map read).getD .null

/-! ## Trees -/

namespace Value

/-- A value as a slot of a plain tree. -/
def slot : Value → Slot (List (Value × Value))
  | .map entries => .node entries
  | v => .leaf v

/-- The value in a slot of a plain tree. -/
def ofSlot : Slot (List (Value × Value)) → Value
  | .leaf v => v
  | .node entries | .row entries => .map entries

mutual

/-- How deep maps and sequences are nested in a value. -/
def height : Value → Nat
  | .list items | .tuple items => heightItems items + 1
  | .map entries => heightEntries entries + 1
  | _ => 0

/-- The greatest height among the items. -/
def heightItems : List Value → Nat
  | [] => 0
  | v :: rest => max v.height (heightItems rest)

/-- The greatest height among the values of the entries. -/
def heightEntries : List (Value × Value) → Nat
  | [] => 0
  | (_, v) :: rest => max v.height (heightEntries rest)

end

@[simp] theorem ofSlot_slot (v : Value) : ofSlot v.slot = v := by
  cases v <;> rfl

end Value

/-- A plain tree: every map is met once. -/
def Source.tree : Source (List (Value × Value)) where
  entries es := es.map fun e => (e.1, e.2.slot)
  items _ := []
  value := Value.ofSlot
  same _ _ := false

/-! ## Shared maps -/

/-- What an address of a heap holds. -/
inductive Cell where
  | map (entries : List (Value × Slot Nat))
  | list (items : List (Slot Nat))
  | tuple (items : List (Slot Nat))

/-- Maps and sequences at addresses; an address without a cell stands for the empty map. -/
structure Heap where
  cells : Array Cell

namespace Heap

/-- The cell at an address. -/
def cell (heap : Heap) (address : Nat) : Cell := heap.cells.getD address (.map [])

/-- The entries at an address. -/
def entries (heap : Heap) (address : Nat) : List (Value × Slot Nat) :=
  match heap.cell address with
  | .map entries => entries
  | _ => []

/-- The items at an address. -/
def items (heap : Heap) (address : Nat) : List (Slot Nat) :=
  match heap.cell address with
  | .list items | .tuple items => items
  | _ => []

/-- What a slot holds as a value; containers on the way to it, whose addresses are given, are marked
where they are met again, so there are at most as many steps as cells. -/
def unfold (heap : Heap) : (steps : Nat) → (trail : List Nat) → Slot Nat → Value
  | _, _, .leaf v => v
  | 0, _, _ => .null
  | steps + 1, trail, .node a | steps + 1, trail, .row a =>
    let inner := heap.unfold steps (a :: trail)
    match heap.cell a, trail.contains a with
    | .map entries, false => .map (entries.map fun e => (e.1, inner e.2))
    | .list items, false => .list (items.map inner)
    | .tuple items, false => .tuple (items.map inner)
    | .map _, true => .again .map
    | .list _, true => .again .list
    | .tuple _, true => .again .tuple

/-- What a slot holds as a value. -/
def value (heap : Heap) (slot : Slot Nat) : Value := heap.unfold (heap.cells.size + 2) [] slot

/-- The containers of a heap as a source; a map is the same as the map at its address. -/
def source (heap : Heap) : Source Nat where
  entries := heap.entries
  items := heap.items
  value := heap.value
  same := (· == ·)

end Heap

/-! ## Documents -/

/-- What a data file holds. -/
inductive Document where
  | plain (tree : Value)
  | shared (heap : Heap) (root : Slot Nat)

namespace Document

/-- A document as a value. -/
def value : Document → Value
  | .plain tree => tree
  | .shared heap root => heap.value root

/-- A document as a value whose parts are values by themselves. -/
def parts : Document → Value
  | .plain tree => tree
  | .shared heap root => heap.source.parts root

/-- As `parts`, and the parts of the maps in a sequence are values by themselves, too. -/
def innerParts : Document → Value
  | .plain tree => tree
  | .shared heap root => heap.source.innerParts root

end Document

end LayoutGrammar
