import LayoutGrammar.Decimal.Read
import LayoutGrammar.Tree.Value

/-!
# Reading JSON

JSON texts as values: objects keep the order of their members, a repeated key keeps its first place
and its last value, integers of any size and doubles are told apart by how they are written, and the
words for infinity and for no number are accepted where a number may stand. Everything that is not
JSON in this sense is refused.

The readers of single tokens follow the text; `readValue` follows the nesting, and its first
argument bounds the number of tokens.
-/

namespace LayoutGrammar.Json

open Decimal Text

/-- Blanks between tokens. -/
def isSpace (c : Char) : Bool := c == ' ' || c == '\t' || c == '\n' || c == '\r'

/-- A text without its leading blanks. -/
def skipSpace (cs : List Char) : List Char := cs.dropWhile isSpace

/-! ## Strings -/

/-- What a digit in base sixteen is worth. -/
def hexValue? (c : Char) : Option Nat :=
  if c.isDigit then some (c.toNat - 48)
  else if 'a' ≤ c && c ≤ 'f' then some (c.toNat - 87)
  else if 'A' ≤ c && c ≤ 'F' then some (c.toNat - 55)
  else none

/-- The bytes that pairs of digits in base sixteen spell. -/
def hexBytes? : List Char → Option (List UInt8)
  | [] => some []
  | [_] => none
  | a :: b :: rest => do
    let byte := (← hexValue? a) * 16 + (← hexValue? b)
    pure (byte.toUInt8 :: (← hexBytes? rest))

/-- The number of four digits in base sixteen. -/
def hexUnit? (a b c d : Char) : Option Nat := do
  pure (((← hexValue? a) * 16 + (← hexValue? b)) * 256 + ((← hexValue? c) * 16 + (← hexValue? d)))

/-- The character that a short escape stands for. -/
def shortEscape? : Char → Option Char
  | '"' => some '"'
  | '\\' => some '\\'
  | '/' => some '/'
  | 'b' => some '\x08'
  | 'f' => some '\x0c'
  | 'n' => some '\n'
  | 'r' => some '\r'
  | 't' => some '\t'
  | _ => none

/-- The code units of a string up to its closing quote, last one first, and what follows. -/
def readUnits (units : List Nat) : List Char → Option (List Nat × List Char)
  | [] => none
  | '"' :: rest => some (units, rest)
  | '\\' :: 'u' :: a :: b :: c :: d :: rest =>
    match hexUnit? a b c d with
    | some unit => readUnits (unit :: units) rest
    | none => none
  | '\\' :: e :: rest =>
    match shortEscape? e with
    | some c => readUnits (c.toNat :: units) rest
    | none => none
  | c :: rest => if c.toNat < 0x20 || c == '\\' then none else readUnits (c.toNat :: units) rest

/-- The characters of code units, where two surrogates stand for one character; a lone surrogate is
replaced. -/
def joinUnits : List Nat → List Char
  | [] => []
  | high :: low :: rest =>
    if 0xD800 ≤ high && high < 0xDC00 && 0xDC00 ≤ low && low < 0xE000 then
      Char.ofNat (0x10000 + (high - 0xD800) * 0x400 + (low - 0xDC00)) :: joinUnits rest
    else unitChar high :: joinUnits (low :: rest)
  | [unit] => [unitChar unit]
where
  /-- The character of one code unit. -/
  unitChar (unit : Nat) : Char :=
    if 0xD800 ≤ unit && unit < 0xE000 then '\ufffd' else Char.ofNat unit

/-- A string after its opening quote. -/
def readString (cs : List Char) : Option (String × List Char) :=
  (readUnits [] cs).map fun (units, rest) => (String.ofList (joinUnits units.reverse), rest)

/-! ## Numbers -/

/-- The digits of a whole number without superfluous zeros, and what follows. -/
def spanWhole : List Char → List Char × List Char
  | '0' :: rest => (['0'], rest)
  | cs => (cs.takeWhile Char.isDigit, cs.dropWhile Char.isDigit)

/-- The digits after a point, if a point and a digit follow. -/
def spanFraction : List Char → List Char × List Char
  | '.' :: rest =>
    match rest.takeWhile Char.isDigit with
    | [] => ([], '.' :: rest)
    | digits => (digits, rest.dropWhile Char.isDigit)
  | cs => ([], cs)

/-- The power of ten after a number, if the letter and a digit follow. -/
def spanExponent : List Char → Option Int × List Char
  | [] => (none, [])
  | c :: rest =>
    if c == 'e' || c == 'E' then
      let (negative, body) := splitSign rest
      match body.takeWhile Char.isDigit with
      | [] => (none, c :: rest)
      | digits =>
        let n : Int := digitsValue digits
        (some (if negative then -n else n), body.dropWhile Char.isDigit)
    else (none, c :: rest)

/-- The text after a word, if it begins with it. -/
def afterWord? (word : String) (cs : List Char) : Option (List Char) :=
  if word.toList.isPrefixOf cs then some (cs.drop word.length) else none

/-- A number, and what follows. -/
def readNumber (cs : List Char) : Option (Value × List Char) :=
  let negative := cs.head? == some '-'
  let body := if negative then cs.drop 1 else cs
  match afterWord? "Infinity" body with
  | some rest => some (.float (if negative then -infinity else infinity), rest)
  | none =>
    match spanWhole body with
    | ([], _) => none
    | (whole, afterWhole) =>
      let (fraction, afterFraction) := spanFraction afterWhole
      let (exponent, rest) := spanExponent afterFraction
      if fraction.isEmpty && exponent.isNone then
        let n : Int := digitsValue whole
        some (.int (if negative then -n else n), rest)
      else some (.float (floatOfDigits negative whole fraction (exponent.getD 0)), rest)

/-! ## Values -/

/-- The words that stand for values. -/
def readWord (cs : List Char) : Option (Value × List Char) :=
  ((afterWord? "null" cs).map (.null, ·)) <|> ((afterWord? "true" cs).map (.bool true, ·)) <|>
    ((afterWord? "false" cs).map (.bool false, ·)) <|>
    ((afterWord? "NaN" cs).map (.float notANumber, ·))

/-- An opening bracket whose container turns out to be empty: what follows the closing one. -/
def afterEmpty? (close : Char) (cs : List Char) : Option (List Char) :=
  match skipSpace cs with
  | c :: rest => if c == close then some rest else none
  | [] => none

mutual

/-- A value at the beginning of a text, and what follows. -/
def readValue : (steps : Nat) → List Char → Option (Value × List Char)
  | 0, _ => none
  | steps + 1, cs =>
    match cs with
    | '"' :: rest => (readString rest).map fun (s, rest) => (.str s, rest)
    | '[' :: rest =>
      match afterEmpty? ']' rest with
      | some rest => some (.list [], rest)
      | none => readItems steps [] rest
    | '\x7b' :: rest =>
      match afterEmpty? '\x7d' rest with
      | some rest => some (.map [], rest)
      | none => readMembers steps [] rest
    | cs => readWord cs <|> readNumber cs

/-- The items of an array up to its closing bracket, after those already read, last one first. -/
def readItems : (steps : Nat) → List Value → List Char → Option (Value × List Char)
  | 0, _, _ => none
  | steps + 1, items, cs =>
    match readValue steps (skipSpace cs) with
    | none => none
    | some (v, rest) =>
      match skipSpace rest with
      | ',' :: rest => readItems steps (v :: items) rest
      | ']' :: rest => some (.list (v :: items).reverse, rest)
      | _ => none

/-- The members of an object up to its closing brace, after those already read, last one first. -/
def readMembers :
    (steps : Nat) → List (Value × Value) → List Char → Option (Value × List Char)
  | 0, _, _ => none
  | steps + 1, members, cs =>
    match skipSpace cs with
    | '"' :: rest =>
      match readString rest with
      | none => none
      | some (key, rest) =>
        match skipSpace rest with
        | ':' :: rest =>
          match readValue steps (skipSpace rest) with
          | none => none
          | some (v, rest) =>
            match skipSpace rest with
            | ',' :: rest => readMembers steps ((.str key, v) :: members) rest
            | '\x7d' :: rest => some (.ofEntries ((.str key, v) :: members).reverse, rest)
            | _ => none
        | _ => none
    | _ => none

end

/-- The value that a text spells, with blanks around it. -/
def read (text : String) : Option Value :=
  let cs := text.toList
  match readValue (cs.length + 1) (skipSpace cs) with
  | some (v, rest) => if (skipSpace rest).isEmpty then some v else none
  | none => none

end LayoutGrammar.Json
