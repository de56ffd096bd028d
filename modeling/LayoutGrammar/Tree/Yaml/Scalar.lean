import LayoutGrammar.Tree.Json.Read
import LayoutGrammar.Tree.Yaml.Cursor

/-!
# The texts of scalars

A scalar is plain, in single or double quotes, or a block of lines. Within a scalar that runs over
several lines a single line break counts as a space, and breaks after it stay; only a literal block
keeps its lines. The first argument of a reader bounds the number of its pieces.
-/

namespace LayoutGrammar.Yaml

/-- The text that a line break and the breaks after it are folded to. -/
def foldBreaks (first : Char) (further : List Char) : List Char :=
  (if first != '\n' then [first] else if further.isEmpty then [' '] else []) ++ further

/-! ## Quoted scalars -/

/-- The breaks of blank lines, and the place after them; no mark of a document may stand there. -/
def quotedBreaks? : (steps : Nat) → Cursor → Option (List Char × Cursor)
  | 0, _ => none
  | steps + 1, c =>
    if c.hasDocumentMark then none
    else
      let c := c.skipWhile fun ch => ch == ' ' || ch == '\t'
      match c.lineBreak? with
      | some (b, after) => (quotedBreaks? steps after).map fun (bs, c) => (b :: bs, c)
      | none => some ([], c)

/-- The character that a short escape stands for. -/
def shortEscape? : Char → Option Char
  | '0' => some '\x00'
  | 'a' => some '\x07'
  | 'b' => some '\x08'
  | 't' | '\t' => some '\t'
  | 'n' => some '\n'
  | 'v' => some '\x0b'
  | 'f' => some '\x0c'
  | 'r' => some '\r'
  | 'e' => some '\x1b'
  | ' ' => some ' '
  | '"' => some '"'
  | '\\' => some '\\'
  | '/' => some '/'
  | 'N' => some '\x85'
  | '_' => some '\xa0'
  | 'L' => some '\u2028'
  | 'P' => some '\u2029'
  | _ => none

/-- How many digits in base sixteen follow the letter of an escape. -/
def escapeWidth? : Char → Option Nat
  | 'x' => some 2
  | 'u' => some 4
  | 'U' => some 8
  | _ => none

/-- The number that digits in base sixteen spell. -/
def hexNumber? (digits : List Char) : Option Nat :=
  digits.foldlM (fun n d => (Json.hexValue? d).map (16 * n + ·)) 0

/-- The character that an escape stands for, given what follows the backslash. -/
def escape? (c : Cursor) : Option (Char × Cursor) := do
  let ch ← c.peek
  match shortEscape? ch with
  | some meant => some (meant, c.next)
  | none => do
    let width ← escapeWidth? ch
    let digits := (c.rest.drop 1).take width
    let code ← hexNumber? digits
    if digits.length = width && code.isValidChar then
      some (Char.ofNat code, c.skip (width + 1))
    else none

/-- The text of a quoted scalar up to its closing quote, and the place after it. -/
def quoted? (double : Bool) : (steps : Nat) → Cursor → Option (List Char × Cursor)
  | 0, _ => none
  | steps + 1, c => do
    let quote := if double then '"' else '\''
    let ch ← c.peek
    let continued (piece : List Char) (c : Cursor) :=
      (quoted? double steps c).map fun (text, c) => (piece ++ text, c)
    if !double && ch == quote && c.peekAt 1 == some quote then continued ['\''] (c.skip 2)
    else if ch == quote then some ([], c.next)
    else if double && ch == '\\' then
      match c.next.lineBreak? with
      | some (_, after) => do
        let (breaks, c) ← quotedBreaks? after.rest.length.succ after
        continued breaks c
      | none => do
        let (meant, c) ← escape? c.next
        continued [meant] c
    else if ch == ' ' || ch == '\t' || isBreak ch then
      let (spaces, c) := c.span fun ch => ch == ' ' || ch == '\t'
      match c.lineBreak? with
      | some (first, after) => do
        let (further, c) ← quotedBreaks? after.rest.length.succ after
        continued (foldBreaks first further) c
      | none => continued spaces c
    else continued [ch] c.next

/-! ## Plain scalars -/

/-- Whether a plain scalar ends before a character, given the one after it. -/
def endsPlain (flow : Bool) (ch : Char) (after : Option Char) : Bool :=
  endsWord (some ch) ||
    (ch == ':' && (endsWord after || (flow && after.any (",[]\x7b\x7d".toList.contains ·)))) ||
    (flow && ",?[]\x7b\x7d".toList.contains ch)

/-- The longest piece of a plain scalar without blanks. -/
def plainPiece (flow : Bool) : List Char → List Char
  | [] => []
  | ch :: rest => if endsPlain flow ch rest.head? then [] else ch :: plainPiece flow rest

/-- What follows a piece of a plain scalar. -/
inductive PlainGap where
  /-- Spaces or folded lines, after which the scalar may go on. -/
  | blank (text : List Char)
  /-- The scalar ends here. -/
  | stop

/-- The breaks of blank lines after a line of a plain scalar, unless a mark of a
document follows. -/
def plainBreaks : (steps : Nat) → Cursor → Option (List Char) × Cursor
  | 0, c => (some [], c)
  | steps + 1, c =>
    if c.peek == some ' ' then plainBreaks steps c.next
    else
      match c.lineBreak? with
      | some (b, after) =>
        if after.hasDocumentMark then (none, after)
        else
          let (further, c) := plainBreaks steps after
          (further.map (b :: ·), c)
      | none => (some [], c)

/-- The gap after a piece of a plain scalar, the place after it, and whether a line ended in it. -/
def plainGap (c : Cursor) : PlainGap × Cursor × Bool :=
  let (spaces, c) := c.span (· == ' ')
  match c.lineBreak? with
  | some (first, after) =>
    if after.hasDocumentMark then (.stop, after, true)
    else
      match plainBreaks after.rest.length after with
      | (some further, c) => (.blank (foldBreaks first further), c, true)
      | (none, c) => (.stop, c, true)
  | none => (if spaces.isEmpty then .stop else .blank spaces, c, false)

/-- The text of a plain scalar, the place after it and the blanks that follow, and whether a line
ended in these blanks. In a block a scalar goes on only in columns from `indent` on. -/
def plain (flow : Bool) (indent : Nat) : (steps : Nat) → (gap : List Char) → (newLine : Bool) →
    Cursor → List Char × Cursor × Bool
  | 0, _, newLine, c => ([], c, newLine)
  | steps + 1, gap, newLine, c =>
    match if c.peek == some '#' then [] else plainPiece flow c.rest with
    | [] => ([], c, newLine)
    | piece =>
      match plainGap (c.skip piece.length) with
      | (.stop, c, newLine) => (gap ++ piece, c, newLine)
      | (.blank gap', c, newLine) =>
        if c.peek == some '#' || (!flow && c.column < indent) then (gap ++ piece, c, newLine)
        else
          let (text, c, newLine) := plain flow indent steps gap' newLine c
          (gap ++ piece ++ text, c, newLine)

/-! ## Blocks of lines -/

/-- What happens to the line breaks at the end of a block. -/
inductive Chomping where
  | strip
  | clip
  | keep
deriving DecidableEq

/-- The sign that tells how a block ends. -/
def chomping? : Option Char → Option Chomping
  | some '+' => some .keep
  | some '-' => some .strip
  | _ => none

/-- The digit that tells how far a block is indented; nothing if it is zero. -/
def increment? (c : Cursor) : Option (Option Nat × Cursor) :=
  match c.peek with
  | some ch =>
    if ch == '0' then none
    else if ch.isDigit then some (some (ch.toNat - 48), c.next)
    else some (none, c)
  | none => some (none, c)

/-- The rest of the header of a block: a sign and a digit in any order, and perhaps a comment. -/
def blockHeader? (c : Cursor) : Option (Chomping × Option Nat × Cursor) := do
  let (chomping, increment, c) ←
    match chomping? c.peek with
    | some chomping => do
      let (increment, c) ← increment? c.next
      pure (chomping, increment, c)
    | none => do
      let (increment, c) ← increment? c
      match increment, chomping? c.peek with
      | some n, some chomping => pure (chomping, some n, c.next)
      | increment, _ => pure (.clip, increment, c)
  if !endsToken c.peek then none
  else
    let c := c.skipSpaces.skipComment
    if endsLine c.peek then some (chomping, increment, c.skipBreak) else none

/-- The breaks of the blank lines before a block, the greatest column that they reach, and the place
after them. -/
def blockIndent : (steps : Nat) → (reached : Nat) → Cursor → List Char × Nat × Cursor
  | 0, reached, c => ([], reached, c)
  | steps + 1, reached, c =>
    if c.peek == some ' ' then blockIndent steps (max reached c.next.column) c.next
    else
      match c.lineBreak? with
      | some (b, after) =>
        let (breaks, reached, c) := blockIndent steps reached after
        (b :: breaks, reached, c)
      | none => ([], reached, c)

/-- The place after the spaces that indent a line, at most `indent` of them. -/
def skipIndent (indent : Nat) (c : Cursor) : Cursor :=
  c.skip ((c.rest.takeWhile (· == ' ')).take (indent - c.column)).length

/-- The breaks of blank lines in a block, and the place after the next indentation. -/
def blockBreaks (indent : Nat) : (steps : Nat) → Cursor → List Char × Cursor
  | 0, c => ([], c)
  | steps + 1, c =>
    let c := skipIndent indent c
    match c.lineBreak? with
    | some (b, after) =>
      let (breaks, c) := blockBreaks indent steps after
      (b :: breaks, c)
    | none => ([], c)

/-- Whether a line of a block stands at a place. -/
def hasBlockLine (indent : Nat) (c : Cursor) : Bool := c.column == indent && !c.rest.isEmpty

/-- Whether a line begins with a blank, so that it is not folded. -/
def startsBlank (c : Cursor) : Bool := c.peek.any fun ch => ch == ' ' || ch == '\t'

/-- The lines of a block after the breaks in front of them, and what is left at its end: the last
break and the breaks after it. -/
def blockLines (folded : Bool) (indent : Nat) : (steps : Nat) → (breaks : List Char) → Cursor →
    List Char × List Char × List Char × Cursor
  | 0, breaks, c => ([], [], breaks, c)
  | steps + 1, breaks, c =>
    if !hasBlockLine indent c then ([], [], breaks, c)
    else
      let solid := !startsBlank c
      let (line, c) := c.span (!isBreak ·)
      let (last, c) := match c.lineBreak? with
        | some (b, after) => ([b], after)
        | none => ([], c)
      let (breaks', c) := blockBreaks indent c.rest.length.succ c
      if hasBlockLine indent c then
        let joint :=
          if folded && last == ['\n'] && solid && !startsBlank c then
            if breaks'.isEmpty then [' '] else []
          else last
        let (text, last, tail, c) := blockLines folded indent steps breaks' c
        (breaks ++ line ++ joint ++ text, last, tail, c)
      else (breaks ++ line, last, breaks', c)

/-- A block of lines after its sign, in a block that is itself indented by `parent` columns. -/
def block? (folded : Bool) (parent : Nat) (c : Cursor) : Option (List Char × Cursor) := do
  let (chomping, increment, c) ← blockHeader? c
  let least := max 1 parent
  let (indent, breaks, c) := match increment with
    | some n =>
      let indent := least + n - 1
      let (breaks, c) := blockBreaks indent c.rest.length.succ c
      (indent, breaks, c)
    | none =>
      let (breaks, reached, c) := blockIndent c.rest.length 0 c
      (max least reached, breaks, c)
  let (text, last, tail, c) := blockLines folded indent c.rest.length.succ breaks c
  match chomping with
  | .strip => some (text, c)
  | .clip => some (text ++ last, c)
  | .keep => some (text ++ last ++ tail, c)

end LayoutGrammar.Yaml
