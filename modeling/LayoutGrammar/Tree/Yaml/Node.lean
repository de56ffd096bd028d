import LayoutGrammar.Tree.Yaml.Kind
import LayoutGrammar.Tree.Yaml.Token

/-!
# Nodes of a YAML text

The tokens of a text spell a graph of nodes: scalars, sequences and mappings. A node with an anchor
can be referred to from then on, even from inside itself, so nodes are kept by number. Where a node
may stand but none does, the empty scalar is meant.
-/

namespace LayoutGrammar.Yaml

/-- What a node holds; parts are given by their numbers. -/
inductive Content where
  | scalar (text : String)
  | sequence (items : List Nat)
  | mapping (entries : List (Nat × Nat))

/-- A node. -/
structure Node where
  kind : Kind
  content : Content

/-- The nodes of a text; a number without a node stands for an empty scalar. -/
abbrev Graph := Array Node

/-- The node with a number. -/
def Graph.node (g : Graph) (id : Nat) : Node := g.getD id ⟨.null, .scalar ""⟩

/-- Tokens while they are read. -/
structure Reading where
  tokens : List Token
  nodes : Graph
  /-- The nodes that can be referred to. -/
  anchors : List (String × Nat)
  /-- What the handles of tags stand for. -/
  handles : List (String × String)

/-- A reader of tokens. -/
abbrev Reader := StateT Reading Option

namespace Reader

/-- The next token. -/
def peek : Reader (Option Token) := do return (← get).tokens.head?

/-- Whether the next token is of a kind; the end of the tokens counts as no token. -/
def at? (p : Token → Bool) : Reader Bool := do return (← peek).any p

/-- Passes over the next token. -/
def drop : Reader Unit := modify fun r => { r with tokens := r.tokens.tail }

/-- Adds a node, which can be referred to by an anchor that is new. -/
def add (kind : Kind) (content : Content) (anchor : Option String) : Reader Nat := do
  let r ← get
  let id := r.nodes.size
  let anchors ← match anchor with
    | none => pure r.anchors
    | some name =>
      if r.anchors.any (·.1 == name) then failure else pure ((name, id) :: r.anchors)
  set { r with nodes := r.nodes.push ⟨kind, content⟩, anchors }
  pure id

/-- Gives a node its parts. -/
def fill (id : Nat) (content : Content) : Reader Unit :=
  modify fun r => { r with nodes := r.nodes.modify id fun node => { node with content } }

/-- The empty scalar. -/
def empty : Reader Nat := add .null (.scalar "") none

/-! ## In front of a node -/

/-- An anchor, if one is next. -/
def anchor : Reader (Option String) := do
  match ← peek with
  | some (.anchor name) => do
    drop
    pure (some name)
  | _ => pure none

/-- A tag with its handle resolved, if one is next. -/
def tag : Reader (Option String) := do
  match ← peek with
  | some (.tag ⟨none, suffix⟩) => do
    drop
    pure (some suffix)
  | some (.tag ⟨some handle, suffix⟩) => do
    drop
    match (← get).handles.lookup handle with
    | some start => pure (some (start ++ suffix))
    | none => failure
  | _ => pure none

/-- An anchor and a tag in any order, each of which may be left out. -/
def properties : Reader (Option String × Option String) := do
  match ← anchor with
  | some name => do pure (some name, ← tag)
  | none => do
    let tag ← tag
    pure (← anchor, tag)

/-- The kind of a collection. -/
def collectionKind (tag : Option String) (usual : Kind) : Kind :=
  match tag with
  | none | some "!" => usual
  | some tag => .ofTag tag

/-- The kind of a scalar: an exclamation mark leaves it to the form even between quotes. -/
def scalarKind (tag : Option String) (text : String) (plain : Bool) : Kind :=
  match tag with
  | none => if plain then .ofForm text else .text
  | some "!" => .ofForm text
  | some tag => .ofTag tag

/-! ## Nodes -/

mutual

/-- A node; blocks are read if they are allowed, and entries without a block of their own, too. -/
def node : (steps : Nat) → (block indentless : Bool) → Reader Nat
  | 0, _, _ => failure
  | steps + 1, block, indentless => do
    if let some (.alias name) := ← peek then
      drop
      match (← get).anchors.lookup name with
      | some id => pure id
      | none => failure
    else
      let (anchor, tag) ← properties
      match ← peek with
      | some (.scalar text plain) => do
        drop
        add (scalarKind tag text plain) (.scalar text) anchor
      | some .openBracket => do
        drop
        let id ← add (collectionKind tag .sequence) (.sequence []) anchor
        fill id (.sequence (← flowItems steps true))
        pure id
      | some .openBrace => do
        drop
        let id ← add (collectionKind tag .mapping) (.mapping []) anchor
        fill id (.mapping (← flowEntries steps true))
        pure id
      | some .sequenceStart => do
        if !block then failure
        drop
        let id ← add (collectionKind tag .sequence) (.sequence []) anchor
        fill id (.sequence (← blockItems steps))
        pure id
      | some .mappingStart => do
        if !block then failure
        drop
        let id ← add (collectionKind tag .mapping) (.mapping []) anchor
        fill id (.mapping (← blockEntries steps))
        pure id
      | next => do
        if indentless && next matches some .entry then
          let id ← add (collectionKind tag .sequence) (.sequence []) anchor
          fill id (.sequence (← looseItems steps))
          pure id
        else if anchor.isSome || tag.isSome then add (scalarKind tag "" true) (.scalar "") anchor
        else failure

/-- A node, or the empty scalar before a token that cannot begin one. -/
def nodeUnless : (steps : Nat) → (Token → Bool) → (block indentless : Bool) → Reader Nat
  | 0, _, _, _ => failure
  | steps + 1, isEnd, block, indentless => do
    if ← at? isEnd then empty else node steps block indentless

/-- The items of a block of entries. -/
def blockItems : (steps : Nat) → Reader (List Nat)
  | 0 => failure
  | steps + 1 => do
    match ← peek with
    | some .entry => do
      drop
      let item ← nodeUnless steps (· matches .entry | .blockEnd) true false
      pure (item :: (← blockItems steps))
    | some .blockEnd => do
      drop
      pure []
    | _ => failure

/-- The items of entries that are indented like the mapping around them. -/
def looseItems : (steps : Nat) → Reader (List Nat)
  | 0 => failure
  | steps + 1 => do
    match ← peek with
    | some .entry => do
      drop
      let item ← nodeUnless steps (· matches .entry | .key | .value | .blockEnd) true false
      pure (item :: (← looseItems steps))
    | _ => pure []

/-- The value of a key, if a colon is next. -/
def valueOf : (steps : Nat) → (Token → Bool) → (block : Bool) → Reader Nat
  | 0, _, _ => failure
  | steps + 1, isEnd, block => do
    match ← peek with
    | some .value => do
      drop
      nodeUnless steps isEnd block block
    | _ => empty

/-- The entries of a block of keys. -/
def blockEntries : (steps : Nat) → Reader (List (Nat × Nat))
  | 0 => failure
  | steps + 1 => do
    let isEnd : Token → Bool := (· matches .key | .value | .blockEnd)
    match ← peek with
    | some .key => do
      drop
      let key ← nodeUnless steps isEnd true true
      let value ← valueOf steps isEnd true
      pure ((key, value) :: (← blockEntries steps))
    | some .blockEnd => do
      drop
      pure []
    | _ => failure

/-- The items between brackets; a key makes its item a mapping of one entry. -/
def flowItems : (steps : Nat) → (first : Bool) → Reader (List Nat)
  | 0, _ => failure
  | steps + 1, first => do
    if ← at? (· matches .closeBracket) then
      drop
      pure []
    else
      if !first then
        if ← at? (· matches .comma) then drop else failure
      match ← peek with
      | some .key => do
        drop
        let id ← add .mapping (.mapping []) none
        let key ← nodeUnless steps (· matches .value | .comma | .closeBracket) false false
        let value ← valueOf steps (· matches .comma | .closeBracket) false
        fill id (.mapping [(key, value)])
        pure (id :: (← flowItems steps false))
      | some .closeBracket => do
        drop
        pure []
      | _ => do
        let item ← node steps false false
        pure (item :: (← flowItems steps false))

/-- The entries between braces. -/
def flowEntries : (steps : Nat) → (first : Bool) → Reader (List (Nat × Nat))
  | 0, _ => failure
  | steps + 1, first => do
    if ← at? (· matches .closeBrace) then
      drop
      pure []
    else
      if !first then
        if ← at? (· matches .comma) then drop else failure
      match ← peek with
      | some .key => do
        drop
        let key ← nodeUnless steps (· matches .value | .comma | .closeBrace) false false
        let value ← valueOf steps (· matches .comma | .closeBrace) false
        pure ((key, value) :: (← flowEntries steps false))
      | some .closeBrace => do
        drop
        pure []
      | _ => do
        let key ← node steps false false
        let value ← empty
        pure ((key, value) :: (← flowEntries steps false))

end

/-! ## Documents -/

/-- The handles that are known without a directive. -/
def usualHandles : List (String × String) := [("!", "!"), ("!!", Kind.tagRoot)]

/-- The directives of a document: at most one version, which is known, and no handle twice. -/
def directives : (steps : Nat) → (versioned : Bool) → Reader Unit
  | 0, _ => failure
  | steps + 1, versioned => do
    match ← peek with
    | some (.directive d) => do
      drop
      match d with
      | .version major _ =>
        if versioned || major != 1 then failure else directives steps true
      | .handle handle start => do
        if (← get).handles.any (·.1 == handle) then failure
        modify fun r => { r with handles := r.handles ++ [(handle, start)] }
        directives steps versioned
      | .unknown => directives steps versioned
    | _ => modify fun r => { r with handles := r.handles ++ usualHandles }

/-- The root of the only document; nothing if there is no document. -/
def root (steps : Nat) : Reader (Option Nat) := do
  match ← peek with
  | none => pure none
  | some (.directive _) | some .documentStart => do
    directives steps false
    if !(← at? (· matches .documentStart)) then failure
    drop
    match ← peek with
    | none | some (.directive _) | some .documentStart | some .documentEnd => some <$> empty
    | _ => some <$> node steps true false
  | _ => do
    modify fun r => { r with handles := usualHandles }
    some <$> node steps true false

/-- The root of the only document, after which only marks of its end may follow. -/
def wholeRoot (steps : Nat) : Reader (Option Nat) := do
  let id ← root steps
  if (← get).tokens.all (· matches .documentEnd) then pure id else failure

end Reader

/-- The nodes of a text and the number of their root; no number if the text is blank. -/
def graph? (cs : List Char) : Option (Graph × Option Nat) := do
  let tokens ← tokens? cs
  let (root, reading) ← (Reader.wholeRoot (4 * tokens.length + 8)).run ⟨tokens, #[], [], []⟩
  some (reading.nodes, root)

end LayoutGrammar.Yaml
