import LayoutGrammar.Text.Blank

/-!
# Kinds of nodes

A node says what kind of value it is by its tag, or leaves that to its form. `Kind.ofForm` tells the
kind of a scalar without a tag and without quotes from its spelling: several spellings of null and
of truth values, numbers in several bases, moments, and two marks that count as keys only. All else
is a text.
-/

namespace LayoutGrammar.Yaml

/-- What kind of value a node is. -/
inductive Kind where
  | null
  | truth
  | integer
  | real
  | text
  | bytes
  | moment
  | sequence
  | mapping
  | set
  | orderedMap
  | pairs
  /-- As a key: the entries of other maps are taken over. -/
  | merge
  /-- As a key: the entry holds the text of a map that stands for a scalar. -/
  | default
  /-- No value can be made of the node. -/
  | unknown
deriving DecidableEq, Repr

/-! ## Spellings -/

/-- A digit in base ten. -/
def isTenth (c : Char) : Bool := c.isDigit

/-- Digits of a kind and underscores, at least one of them. -/
def isRun (p : Char → Bool) (cs : List Char) : Bool :=
  !cs.isEmpty && cs.all fun c => p c || c == '_'

/-- A digit, and more digits and underscores. -/
def isGrouped : List Char → Bool
  | c :: rest => isTenth c && rest.all fun c => isTenth c || c == '_'
  | [] => false

/-- A text without the sign at its beginning. -/
def unsigned : List Char → List Char
  | '+' :: rest | '-' :: rest => rest
  | cs => cs

/-- The pieces of a text between colons. -/
def splitColons : List Char → List (List Char)
  | [] => [[]]
  | ':' :: rest => [] :: splitColons rest
  | c :: rest =>
    match splitColons rest with
    | piece :: pieces => (c :: piece) :: pieces
    | [] => [[c]]

/-- A number below sixty. -/
def isSixtieth : List Char → Bool
  | [c] => isTenth c
  | [c, d] => '0' ≤ c && c ≤ '5' && isTenth d
  | _ => false

/-- An integer in base sixty, its digits between colons. -/
def isSixtyInteger (cs : List Char) : Bool :=
  match splitColons cs with
  | first :: second :: rest =>
    isGrouped first && first.head? != some '0' && (second :: rest).all isSixtieth
  | _ => false

/-- An integer: in base two, eight, ten, sixteen or sixty. -/
def isInteger (cs : List Char) : Bool :=
  match unsigned cs with
  | '0' :: 'b' :: rest => isRun (fun c => c == '0' || c == '1') rest
  | '0' :: 'x' :: rest =>
    isRun (fun c => isTenth c || ('a' ≤ c && c ≤ 'f') || ('A' ≤ c && c ≤ 'F')) rest
  | ['0'] => true
  | '0' :: rest => isRun (fun c => '0' ≤ c && c ≤ '7') rest
  | body => isGrouped body || isSixtyInteger body

/-- A power of ten with a sign, or nothing. -/
def isPower : List Char → Bool
  | [] => true
  | e :: sign :: digits =>
    (e == 'e' || e == 'E') && (sign == '+' || sign == '-') && !digits.isEmpty && digits.all isTenth
  | _ => false

/-- What follows the digits and underscores after a point. -/
def afterFraction (cs : List Char) : List Char := cs.dropWhile fun c => isTenth c || c == '_'

/-- A number in base sixty with a fraction. -/
def isSixtyReal (whole fraction : List Char) : Bool :=
  match splitColons whole with
  | first :: second :: rest =>
    isGrouped first && (second :: rest).all isSixtieth && (afterFraction fraction).isEmpty
  | _ => false

/-- A number with a point: in base ten or sixty, or not finite. -/
def isReal (cs : List Char) : Bool :=
  let body := unsigned cs
  let whole := body.takeWhile (· != '.')
  match body.dropWhile (· != '.') with
  | [] => false
  | _ :: fraction =>
    match whole with
    | [] =>
      ["inf", "Inf", "INF"].contains (String.ofList fraction) ||
        (body == cs && (["nan", "NaN", "NAN"].contains (String.ofList fraction) ||
          (fraction.head?.any isTenth && isPower (afterFraction fraction))))
    | whole =>
      (isGrouped whole && isPower (afterFraction fraction)) || isSixtyReal whole fraction

/-- The spellings of null. -/
def nullWords : List String := ["", "~", "null", "Null", "NULL"]

/-- The spellings of truth values. -/
def truthWords : List String :=
  ["yes", "Yes", "YES", "no", "No", "NO", "true", "True", "TRUE", "false", "False", "FALSE",
    "on", "On", "ON", "off", "Off", "OFF"]

/-! ## Moments -/

/-- The number that some digits in base ten spell. -/
def tenValue (cs : List Char) : Nat := cs.foldl (fun n c => 10 * n + (c.toNat - 48)) 0

/-- A number of one or two digits, and what follows. -/
def shortNumber? : List Char → Option (Nat × List Char)
  | c :: rest =>
    if isTenth c then
      match rest with
      | d :: after => if isTenth d then some (tenValue [c, d], after) else some (tenValue [c], rest)
      | [] => some (tenValue [c], [])
    else none
  | [] => none

/-- A number of just two digits, and what follows. -/
def pairNumber? : List Char → Option (Nat × List Char)
  | c :: d :: rest => if isTenth c && isTenth d then some (tenValue [c, d], rest) else none
  | _ => none

/-- What follows a character. -/
def after? (c : Char) : List Char → Option (List Char)
  | d :: rest => if d == c then some rest else none
  | [] => none

/-- The numbers of a moment as they are written. -/
structure Stamp where
  year : Nat
  month : Nat
  day : Nat
  /-- Hour, minute, second, the digits of the fraction and the offset in minutes. -/
  time : Option (Nat × Nat × Nat × List Char × Option Int)

/-- Whether a character is a space or a tab. -/
def isGap (c : Char) : Bool := c == ' ' || c == '\t'

/-- The offset at the end of a moment, in minutes. -/
def stampOffset? (cs : List Char) : Option (Option Int) :=
  match cs.dropWhile isGap with
  | [] => if cs.isEmpty then some none else none
  | ['Z'] => some (some 0)
  | sign :: rest => do
    let (hours, rest) ← if sign == '+' || sign == '-' then shortNumber? rest else none
    let (minutes, rest) ← if rest.isEmpty then some (0, rest) else pairNumber? (← after? ':' rest)
    let offset : Int := hours * 60 + minutes
    if rest.isEmpty then some (some (if sign == '-' then -offset else offset)) else none

/-- The fraction of a second after a point, and what follows. -/
def stampFraction : List Char → List Char × List Char
  | '.' :: rest => rest.span isTenth
  | cs => ([], cs)

/-- What follows the gap between the day and the time. -/
def afterDay? : List Char → Option (List Char)
  | c :: rest =>
    if c == 'T' || c == 't' then some rest
    else if isGap c then some (rest.dropWhile isGap)
    else none
  | [] => none

/-- The time of a moment. -/
def stampTime? (cs : List Char) : Option (Nat × Nat × Nat × List Char × Option Int) := do
  let (hour, rest) ← shortNumber? (← afterDay? cs)
  let (minute, rest) ← pairNumber? (← after? ':' rest)
  let (second, rest) ← pairNumber? (← after? ':' rest)
  let (fraction, rest) := stampFraction rest
  let offset ← stampOffset? rest
  some (hour, minute, second, fraction, offset)

/-- The numbers of a moment: a day, and perhaps a time. -/
def stamp? (cs : List Char) : Option Stamp := do
  let year := cs.take 4
  if year.length = 4 && year.all isTenth then
    let (month, rest) ← shortNumber? (← after? '-' (cs.drop 4))
    let (day, rest) ← shortNumber? (← after? '-' rest)
    if rest.isEmpty then some ⟨tenValue year, month, day, none⟩
    else (stampTime? rest).map fun time => ⟨tenValue year, month, day, some time⟩
  else none

/-- A moment; a day without a time has to give two digits each for the month and the day. -/
def isMoment (cs : List Char) : Bool :=
  (stamp? cs).any fun s => s.time.isSome || cs.length = 10

/-! ## Kinds -/

namespace Kind

/-- The beginning of the tags that are known. -/
def tagRoot : String := "tag:yaml.org,2002:"

/-- The tags that are known, after their common beginning. -/
def tags : List (String × Kind) :=
  [("null", null), ("bool", truth), ("int", integer), ("float", real), ("str", text),
    ("binary", bytes), ("timestamp", moment), ("seq", sequence), ("map", mapping), ("set", set),
    ("omap", orderedMap), ("pairs", pairs), ("merge", merge), ("value", default)]

/-- The kind that a tag names. -/
def ofTag (tag : String) : Kind :=
  ((tags.find? fun e => tagRoot ++ e.1 == tag).map (·.2)).getD unknown

/-- The kind of a scalar by its spelling; a line break at its end does not count. -/
def ofForm (s : String) : Kind :=
  let cs := Text.dropFinalBreak s.toList
  let word := String.ofList cs
  if truthWords.contains word then truth
  else if isReal cs then real
  else if isInteger cs then integer
  else if word == "<<" then merge
  else if nullWords.contains word && s != "\n" then null
  else if isMoment cs then moment
  else if word == "=" then default
  else if ["!", "&", "*"].contains word then unknown
  else text

end Kind

end LayoutGrammar.Yaml
