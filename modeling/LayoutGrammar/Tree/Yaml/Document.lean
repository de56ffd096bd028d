import LayoutGrammar.Tree.SetOrder
import LayoutGrammar.Tree.Source
import LayoutGrammar.Tree.Yaml.Node
import LayoutGrammar.Tree.Yaml.Simple

/-!
# Documents of YAML texts

The value of a graph of nodes. A node that is referred to more than once is one and the same map or
sequence wherever it is met, so collections become cells of a heap, at the numbers of their nodes.
Collections are filled level by level from the root on, which decides what fault of a document is
met first. Before a map is filled, the entries of the maps that it takes over are put in front of
its own.
-/

namespace LayoutGrammar.Yaml

/-- A document while its collections are filled. -/
structure Build where
  graph : Graph
  /-- What has been made of the nodes so far. -/
  made : List (Nat × Slot Nat)
  cells : Array Cell
  /-- The sets among the collections, by the numbers of their nodes. -/
  sets : List (Nat × Value)
  /-- The collections that are to be filled next, the last one first. -/
  pending : List Nat

/-- A step of filling. -/
abbrev Filling := StateT Build (Except ReadFault)

namespace Filling

/-- The document is unreadable. -/
def refuse {α : Type} : Filling α := throw .unreadable

/-- The node with a number, as it stands by now. -/
def node (id : Nat) : Filling Node := do return (← get).graph.node id

/-- Changes a node. -/
def modifyNode (id : Nat) (f : Node → Node) : Filling Unit :=
  modify fun b => { b with graph := b.graph.modify id f }

/-! ## Scalars -/

/-- The text of a node that stands for a scalar: a map does so by one of its entries. -/
def scalarText : (steps : Nat) → (id : Nat) → Filling String
  | 0, _ => refuse
  | steps + 1, id => do
    match (← node id).content with
    | .scalar text => pure text
    | .sequence _ => refuse
    | .mapping entries => do
      let graph := (← get).graph
      match entries.find? fun e => (graph.node e.1).kind == .default with
      | some (_, value) => scalarText steps value
      | none => refuse

/-- What a node stands for; a collection is filled later. -/
def makeNew (id : Nat) : Filling (Slot Nat) := do
  let n ← node id
  let later (slot : Slot Nat) : Filling (Slot Nat) := do
    modify fun b => { b with pending := id :: b.pending }
    pure slot
  match n.kind with
  | .sequence | .orderedMap | .pairs | .set => later (.row id)
  | .mapping => later (.node id)
  | .merge | .default | .unknown => refuse
  | kind => do
    let text ← scalarText ((← get).graph.size + 1) id
    if kind == .moment && n.content matches .mapping _ then throw (.failed .momentOfMap)
    match kind.scalar? text with
    | some value => do pure (.leaf (← value))
    | none => refuse

/-- What a node stands for, made at most once. -/
def make (id : Nat) : Filling (Slot Nat) := do
  match (← get).made.lookup id with
  | some slot => pure slot
  | none => do
    let slot ← makeNew id
    modify fun b => { b with made := (id, slot) :: b.made }
    pure slot

/-! ## Entries that are taken over -/

/-- The maps whose entries a value gives, in the order in which they count. -/
def mergeSources (value : Nat) : Filling (List Nat) := do
  match (← node value).content with
  | .mapping _ => pure [value]
  | .sequence items => do
    let graph := (← get).graph
    if items.all fun id => (graph.node id).content matches .mapping _ then pure items else refuse
  | .scalar _ => refuse

/-- The entries of a map. -/
def entriesOf (id : Nat) : Filling (List (Nat × Nat)) := do
  match (← node id).content with
  | .mapping entries => pure entries
  | _ => refuse

/-- Takes a map's entries over into it, in front of its own, one key that asks for it after the
other; `taken` holds those of the keys before. Other keys that have a meaning of their own become
plain texts. -/
def merge : (steps : Nat) → (id : Nat) → (taken : List (Nat × Nat)) → Filling Unit
  | 0, _, _ => refuse
  | steps + 1, id, taken => do
    let entries ← entriesOf id
    let graph := (← get).graph
    let asks (e : Nat × Nat) : Bool := (graph.node e.1).kind == .merge
    let front := entries.takeWhile (!asks ·)
    for e in front do
      if (graph.node e.1).kind == .default then
        modifyNode e.1 fun n => { n with kind := .text }
    match entries.drop front.length with
    | [] =>
      if !taken.isEmpty then
        modifyNode id fun n => { n with content := .mapping (taken ++ entries) }
    | (_, value) :: rest => do
      modifyNode id fun n => { n with content := .mapping (front ++ rest) }
      let sources ← mergeSources value
      let parts ← sources.mapM fun source => do
        merge steps source []
        entriesOf source
      let inOrder := if (← node value).content matches .mapping _ then parts else parts.reverse
      merge steps id (taken ++ inOrder.flatten)

/-! ## Collections -/

/-- The key that a node stands for: no collection can be a key. -/
def key (id : Nat) : Filling Value := do
  match ← make id with
  | .leaf v => pure v
  | _ => refuse

/-- The entries of a map: a repeated key keeps its first place and its last value. -/
def entries (id : Nat) : Filling (List (Value × Slot Nat)) := do
  let graph := (← get).graph
  let steps := graph.toList.foldl (fun steps n => match n.content with
    | .mapping entries => steps + entries.length
    | _ => steps) 0
  merge (steps + 1) id []
  (← entriesOf id).foldlM (fun entries e => do
    let k ← key e.1
    let value ← make e.2
    pure (if entries.any (k.alike ·.1) then
      entries.map fun e => if k.alike e.1 then (e.1, value) else e
    else entries ++ [(k, value)])) []

/-- The items of a sequence. -/
def itemsOf (id : Nat) : Filling (List Nat) := do
  match (← node id).content with
  | .sequence items => pure items
  | _ => refuse

/-- A map of one entry as a pair. -/
def pair (id : Nat) : Filling (Slot Nat) := do
  match ← entriesOf id with
  | [(key, value)] => do
    let key ← make key
    let value ← make value
    let b ← get
    set { b with cells := b.cells.push (.tuple [key, value]) }
    pure (.row b.cells.size)
  | _ => refuse

/-- Fills a collection. -/
def fill (id : Nat) : Filling Unit := do
  let put (cell : Cell) : Filling Unit :=
    modify fun b => { b with cells := b.cells.set! id cell }
  match (← node id).kind with
  | .mapping => put (.map (← entries id))
  | .set => do
    let keys := (← entries id).map (·.1)
    modify fun b => { b with sets := (id, .setOfKeys keys) :: b.sets }
  | .sequence => put (.list (← (← itemsOf id).mapM make))
  | _ => put (.list (← (← itemsOf id).mapM pair))

/-- Fills the collections that wait for it, and those that these lead to. -/
def fillAll : (steps : Nat) → Filling Unit
  | 0 => pure ()
  | steps + 1 => do
    match (← get).pending.reverse with
    | [] => pure ()
    | ids => do
      modify fun b => { b with pending := [] }
      for id in ids do fill id
      fillAll steps

end Filling

/-! ## The document -/

/-- A slot in which a set stands as a value. -/
def settle (sets : List (Nat × Value)) : Slot Nat → Slot Nat
  | .row a =>
    match sets.lookup a with
    | some v => .leaf v
    | none => .row a
  | slot => slot

/-- A cell in which sets stand as values. -/
def settleCell (sets : List (Nat × Value)) : Cell → Cell
  | .map entries => .map (entries.map fun e => (e.1, settle sets e.2))
  | .list items => .list (items.map (settle sets))
  | .tuple items => .tuple (items.map (settle sets))

/-- The document of a graph of nodes with a root. -/
def Graph.document (g : Graph) (root : Nat) : Except ReadFault Document := do
  let filling : Filling (Slot Nat) := do
    let slot ← Filling.make root
    Filling.fillAll (g.size + 1)
    pure slot
  let (slot, b) ← filling.run ⟨g, [], Array.replicate g.size (.map []), [], []⟩
  pure (.shared ⟨b.cells.map (settleCell b.sets)⟩ (settle b.sets slot))

/-- A character that may stand in a text. -/
def isAllowed (c : Char) : Bool :=
  let n := c.toNat
  n == 9 || n == 10 || n == 13 || (0x20 ≤ n && n ≤ 0x7E) || n == 0x85 ||
    (0xA0 ≤ n && n ≤ 0xFFFD) || 0x10000 ≤ n

/-- The document that a text spells; a blank text spells null. -/
def read (text : String) : Except ReadFault Document :=
  if !text.toList.all isAllowed then .error .unreadable
  else
    match graph? text.toList with
    | none => .error .unreadable
    | some (_, none) => .ok (.plain .null)
    | some (g, some root) => g.document root

end LayoutGrammar.Yaml
