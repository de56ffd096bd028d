import LayoutGrammar.Tree.Yaml.Scalar

/-!
# Tags, anchors and directives

What stands in front of a node: a tag that names its kind, by a handle and a suffix or verbatim, and
an anchor by which the node can be referred to. A directive before a document declares its version
or a handle of its tags.
-/

namespace LayoutGrammar.Yaml

/-- A tag as it is written: with a handle, or verbatim. -/
structure TagText where
  handle : Option String
  suffix : String

/-- A directive; those that are unknown say nothing. -/
inductive Directive where
  | version (major minor : Nat)
  | handle (handle start : String)
  | unknown

/-! ## Names -/

/-- The name of an anchor or an alias after its sign. -/
def anchorName? (c : Cursor) : Option (String × Cursor) :=
  let (name, c) := c.span isNameChar
  if name.isEmpty then none
  else if endsWord c.peek || c.peek.any ("?:,]\x7d%@\x60".toList.contains ·) then
    some (String.ofList name, c)
  else none

/-! ## Tags -/

/-- The characters of the suffix of a tag, escapes apart. -/
def isUriChar (c : Char) : Bool := isNameChar c || ";/?:@&=+$,.!~*'()[]".toList.contains c

/-- The bytes that escapes in a suffix spell, and the place after them. -/
def uriBytes? : (steps : Nat) → Cursor → Option (List UInt8 × Cursor)
  | 0, _ => none
  | steps + 1, c =>
    if c.peek == some '%' then do
      let high ← (← c.peekAt 1) |> Json.hexValue?
      let low ← (← c.peekAt 2) |> Json.hexValue?
      let (bytes, c) ← uriBytes? steps (c.skip 3)
      some ((16 * high + low).toUInt8 :: bytes, c)
    else some ([], c)

/-- The suffix of a tag with its escapes resolved, and the place after it. -/
def uri? : (steps : Nat) → Cursor → Option (String × Cursor)
  | 0, _ => none
  | steps + 1, c =>
    let (front, c) := c.span isUriChar
    if c.peek == some '%' then do
      let (bytes, c) ← uriBytes? c.rest.length.succ c
      let meant ← String.fromUTF8? ⟨bytes.toArray⟩
      match uri? steps c with
      | some (rest, c) => some (String.ofList front ++ meant ++ rest, c)
      | none => some (String.ofList front ++ meant, c)
    else if front.isEmpty then none
    else some (String.ofList front, c)

/-- The suffix of a tag, which may not be empty. -/
def suffix? (c : Cursor) : Option (String × Cursor) := uri? c.rest.length.succ c

/-- The handle of a tag: an exclamation mark, and perhaps a name and another one. -/
def handle? (c : Cursor) : Option (String × Cursor) :=
  if c.peek != some '!' then none
  else if c.peekAt 1 == some ' ' then some ("!", c.next)
  else
    let (name, c) := c.next.span isNameChar
    if c.peek == some '!' then some (String.ofList ('!' :: name ++ ['!']), c.next) else none

/-- Whether another exclamation mark follows in the same word. -/
def hasHandle (cs : List Char) : Bool :=
  (cs.takeWhile fun ch => !endsToken (some ch)).contains '!'

/-- A tag, and the place after it. -/
def tag? (c : Cursor) : Option (TagText × Cursor) := do
  let (tag, c) ←
    if c.peekAt 1 == some '<' then do
      let (suffix, c) ← suffix? (c.skip 2)
      if c.peek == some '>' then some (⟨none, suffix⟩, c.next) else none
    else if endsWord (c.peekAt 1) then some (⟨none, "!"⟩, c.next)
    else do
      let (handle, c) ← if hasHandle (c.rest.drop 1) then handle? c else some ("!", c.next)
      let (suffix, c) ← suffix? c
      some (⟨some handle, suffix⟩, c)
  if endsToken c.peek then some (tag, c) else none

/-! ## Directives -/

/-- A run of digits. -/
def number? (c : Cursor) : Option (Nat × Cursor) :=
  let (digits, c) := c.span Char.isDigit
  if digits.isEmpty then none else some (Text.digitsValue digits, c)

/-- The number of a version: two numbers with a point between them. -/
def version? (c : Cursor) : Option (Directive × Cursor) := do
  let (major, c) ← number? c.skipSpaces
  if c.peek != some '.' then none
  else do
    let (minor, c) ← number? c.next
    if endsToken c.peek then some (.version major minor, c) else none

/-- A handle and what it stands for. -/
def handleDirective? (c : Cursor) : Option (Directive × Cursor) := do
  let (handle, c) ← handle? c.skipSpaces
  if c.peek != some ' ' then none
  else do
    let (start, c) ← suffix? c.skipSpaces
    if endsToken c.peek then some (.handle handle start, c) else none

/-- A directive after its sign, with the rest of its line. -/
def directive? (c : Cursor) : Option (Directive × Cursor) := do
  let (name, c) := c.span isNameChar
  if name.isEmpty || !endsToken c.peek then none
  else do
    let (directive, c) ←
      match String.ofList name with
      | "YAML" => version? c
      | "TAG" => handleDirective? c
      | _ => some (.unknown, c.skipWhile (!isBreak ·))
    let c := c.skipSpaces.skipComment
    if endsLine c.peek then some (directive, c.skipBreak) else none

end LayoutGrammar.Yaml
