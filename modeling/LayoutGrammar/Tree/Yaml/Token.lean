import LayoutGrammar.Tree.Yaml.Tag

/-!
# Tokens of a YAML text

A text is cut into tokens from its beginning to its end. Two things make this more than cutting:
blocks have no brackets, so tokens for the beginning and the end of a block follow from the columns;
and a key is known to be one only when the colon after it is met, so the token that announces it is
put in front of it later. A key may span at most 1024 characters of one line.
-/

namespace LayoutGrammar.Yaml

/-- A token. -/
inductive Token where
  | directive (d : Directive)
  | documentStart
  | documentEnd
  | sequenceStart
  | mappingStart
  | blockEnd
  | openBracket
  | closeBracket
  | openBrace
  | closeBrace
  | entry
  | comma
  | key
  | value
  | alias (name : String)
  | anchor (name : String)
  | tag (tag : TagText)
  | scalar (text : String) (plain : Bool)

/-- A token that may turn out to begin a key. -/
structure Candidate where
  /-- How many tokens stand before it. -/
  position : Nat
  /-- In a block a token in the first column of the block has to be a key. -/
  required : Bool
  place : Cursor

/-- A text while it is cut. -/
structure Scan where
  place : Cursor
  tokens : Array Token
  /-- The candidates for a key: one for each open bracket, the innermost first, and one outside. -/
  candidate : Option Candidate
  outer : List (Option Candidate)
  /-- The columns of the open blocks, the innermost first. -/
  columns : List Nat
  /-- Whether a key may begin here, and in a block also an entry. -/
  allowsKey : Bool

namespace Scan

/-- A text before the first token. -/
def start (cs : List Char) : Scan := ⟨.start cs, #[], none, [], [], true⟩

/-- Whether the place is inside brackets. -/
def inFlow (s : Scan) : Bool := !s.outer.isEmpty

/-- The column from which the content of the innermost block is indented. -/
def indent (s : Scan) : Nat := s.columns.head?.elim 0 (· + 1)

/-- Adds a token that begins here and ends at a place. -/
def push (s : Scan) (t : Token) (place : Cursor) : Scan :=
  { s with tokens := s.tokens.push t, place }

/-! ## Candidates for keys -/

/-- Whether a candidate is too far away to be a key. -/
def isStale (s : Scan) (k : Candidate) : Bool :=
  k.place.line != s.place.line || k.place.index + 1024 < s.place.index

/-- A candidate that is not stale; a required one may not become stale. -/
def refresh? (s : Scan) : Option Candidate → Option (Option Candidate)
  | none => some none
  | some k => if s.isStale k then if k.required then none else some none else some (some k)

/-- Drops the candidates that are stale. -/
def dropStale? (s : Scan) : Option Scan := do
  let candidate ← s.refresh? s.candidate
  let outer ← s.outer.mapM s.refresh?
  some { s with candidate, outer }

/-- Drops the innermost candidate, unless it is required. -/
def dropCandidate? (s : Scan) : Option Scan :=
  match s.candidate with
  | some k => if k.required then none else some { s with candidate := none }
  | none => some s

/-- Makes the next token a candidate if a key may begin here. -/
def saveCandidate? (s : Scan) : Option Scan :=
  if s.allowsKey then
    (s.dropCandidate?).map fun s =>
      { s with
        candidate := some
          ⟨s.tokens.size, !s.inFlow && s.columns.head? == some s.place.column, s.place⟩ }
  else some s

/-! ## Blocks -/

/-- Ends the blocks whose columns lie after a column. -/
def closeBlocks (s : Scan) (p : Nat → Bool) : Scan :=
  let closed := s.columns.takeWhile p
  { s with
    columns := s.columns.drop closed.length
    tokens := s.tokens ++ (closed.map fun _ => Token.blockEnd).toArray }

/-- Ends the blocks that a token in the present column leaves; brackets keep blocks open. -/
def leaveBlocks (s : Scan) : Scan :=
  if s.inFlow then s else s.closeBlocks (s.place.column < ·)

/-- Whether a column begins a block within the innermost one. -/
def opensBlock (s : Scan) (column : Nat) : Bool := s.columns.head?.all (· < column)

/-- Begins a block in a column if it lies after the innermost one, by a token put at a position. -/
def openBlock (s : Scan) (column : Nat) (position : Nat) (t : Token) : Scan :=
  if s.opensBlock column then
    { s with
      columns := column :: s.columns
      tokens := (s.tokens.extract 0 position).push t ++ s.tokens.extract position s.tokens.size }
  else s

/-- Begins a block in the present column if it lies after the innermost one. -/
def openBlockHere (s : Scan) (t : Token) : Scan := s.openBlock s.place.column s.tokens.size t

/-! ## Tokens one by one -/

/-- The place of the next token: spaces, comments and line breaks are passed over, and a key may
begin after a line break in a block. -/
def skipToToken : (steps : Nat) → Scan → Scan
  | 0, s => s
  | steps + 1, s =>
    let place := s.place.skipSpaces.skipComment
    match place.lineBreak? with
    | some (_, after) =>
      skipToToken steps { s with place := after, allowsKey := s.allowsKey || !s.inFlow }
    | none => { s with place }

/-- The mark at the beginning or the end of a document. -/
def documentMark? (s : Scan) (t : Token) : Option Scan := do
  let s ← (s.closeBlocks fun _ => true).dropCandidate?
  some ({ s with allowsKey := false }.push t (s.place.skip 3))

/-- A directive. -/
def directiveLine? (s : Scan) : Option Scan := do
  let s ← (s.closeBlocks fun _ => true).dropCandidate?
  let (d, place) ← directive? s.place.next
  some ({ s with allowsKey := false }.push (.directive d) place)

/-- An opening bracket or brace. -/
def openFlow? (s : Scan) (t : Token) : Option Scan := do
  let s ← s.saveCandidate?
  some ({ s with candidate := none, outer := s.candidate :: s.outer, allowsKey := true }.push t
    s.place.next)

/-- A closing bracket or brace; one that closes nothing is refused. -/
def closeFlow? (s : Scan) (t : Token) : Option Scan := do
  let s ← s.dropCandidate?
  match s.outer with
  | [] => none
  | candidate :: outer =>
    some ({ s with candidate, outer, allowsKey := false }.push t s.place.next)

/-- The comma between the entries in brackets. -/
def flowEntry? (s : Scan) : Option Scan := do
  let s ← { s with allowsKey := true }.dropCandidate?
  some (s.push .comma s.place.next)

/-- The dash of an entry of a block. -/
def blockEntry? (s : Scan) : Option Scan := do
  if !s.inFlow && !s.allowsKey then none
  else do
    let s := if s.inFlow then s else s.openBlockHere .sequenceStart
    let s ← { s with allowsKey := true }.dropCandidate?
    some (s.push .entry s.place.next)

/-- The question mark of a key. -/
def keyMark? (s : Scan) : Option Scan := do
  if !s.inFlow && !s.allowsKey then none
  else do
    let s := if s.inFlow then s else s.openBlockHere .mappingStart
    let s ← { s with allowsKey := !s.inFlow }.dropCandidate?
    some (s.push .key s.place.next)

/-- The colon of a value; a candidate before it is a key. -/
def valueMark? (s : Scan) : Option Scan :=
  match s.candidate with
  | some k =>
    let s := { s with
      candidate := none
      tokens := (s.tokens.extract 0 k.position).push .key ++
        s.tokens.extract k.position s.tokens.size }
    let s := if s.inFlow then s else s.openBlock k.place.column k.position .mappingStart
    some ({ s with allowsKey := false }.push .value s.place.next)
  | none =>
    if !s.inFlow && !s.allowsKey then none
    else
      let s := if s.inFlow then s else s.openBlockHere .mappingStart
      some ({ s with allowsKey := !s.inFlow }.push .value s.place.next)

/-- A token that may begin a key, as a reader cuts it off. -/
def content? (s : Scan) (read : Cursor → Option (Token × Cursor)) : Option Scan := do
  let s ← s.saveCandidate?
  let (t, place) ← read s.place
  some ({ s with allowsKey := false }.push t place)

/-- A plain scalar; a key may begin after it if a line ended. -/
def plainScalar? (s : Scan) : Option Scan := do
  let s ← s.saveCandidate?
  let (text, place, newLine) :=
    plain s.inFlow s.indent s.place.rest.length.succ [] false s.place
  some ({ s with allowsKey := newLine }.push (.scalar (String.ofList text) true) place)

/-- A block of lines. -/
def blockScalar? (s : Scan) (folded : Bool) : Option Scan := do
  let s ← { s with allowsKey := true }.dropCandidate?
  let (text, place) ← block? folded s.indent s.place.next
  some (s.push (.scalar (String.ofList text) false) place)

/-- A quoted scalar. -/
def quotedScalar? (s : Scan) (double : Bool) : Option Scan :=
  s.content? fun c => (quoted? double c.rest.length.succ c.next).map fun (text, c) =>
    (.scalar (String.ofList text) false, c)

/-- Whether a plain scalar begins with a character, given the one after it. -/
def beginsPlain (flow : Bool) (ch : Char) (after : Option Char) : Bool :=
  (!endsWord (some ch) && !("-?:,[]\x7b\x7d#&*!|>'\"%@\x60".toList.contains ch)) ||
    (!endsWord after && (ch == '-' || (!flow && (ch == '?' || ch == ':'))))

/-- Cuts off the token that begins with a character. -/
def token? (s : Scan) (ch : Char) : Option Scan :=
  let after := s.place.peekAt 1
  let firstColumn := s.place.column == 0
  if ch == '%' && firstColumn then s.directiveLine?
  else if firstColumn && s.place.hasMark '-' then s.documentMark? .documentStart
  else if firstColumn && s.place.hasMark '.' then s.documentMark? .documentEnd
  else if ch == '[' then s.openFlow? .openBracket
  else if ch == '\x7b' then s.openFlow? .openBrace
  else if ch == ']' then s.closeFlow? .closeBracket
  else if ch == '\x7d' then s.closeFlow? .closeBrace
  else if ch == ',' then s.flowEntry?
  else if ch == '-' && endsWord after then s.blockEntry?
  else if ch == '?' && (s.inFlow || endsWord after) then s.keyMark?
  else if ch == ':' && (s.inFlow || endsWord after) then s.valueMark?
  else if ch == '*' then
    s.content? fun c => (anchorName? c.next).map fun (name, c) => (.alias name, c)
  else if ch == '&' then
    s.content? fun c => (anchorName? c.next).map fun (name, c) => (.anchor name, c)
  else if ch == '!' then s.content? fun c => (tag? c).map fun (tag, c) => (.tag tag, c)
  else if ch == '|' && !s.inFlow then s.blockScalar? false
  else if ch == '>' && !s.inFlow then s.blockScalar? true
  else if ch == '\'' then s.quotedScalar? false
  else if ch == '"' then s.quotedScalar? true
  else if beginsPlain s.inFlow ch after then s.plainScalar?
  else none

/-- Cuts off tokens up to the end of the text. -/
def run? : (steps : Nat) → Scan → Option Scan
  | 0, _ => none
  | steps + 1, s => do
    let s ← (skipToToken s.place.rest.length.succ s).dropStale?
    let s := s.leaveBlocks
    match s.place.peek with
    | none => (s.closeBlocks fun _ => true).dropCandidate?
    | some ch => do
      let s ← s.token? ch
      run? steps s

end Scan

/-- The tokens of a text; nothing if it cannot be cut. -/
def tokens? (cs : List Char) : Option (List Token) :=
  (Scan.run? (cs.length + 2) (.start cs)).map (·.tokens.toList)

end LayoutGrammar.Yaml
