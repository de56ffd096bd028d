import LayoutGrammar.Decimal.Read
import LayoutGrammar.Error
import LayoutGrammar.Text.Base64
import LayoutGrammar.Text.Lowercase
import LayoutGrammar.Tree.Json.Read
import LayoutGrammar.Tree.Yaml.Kind

/-!
# Values of scalars

What a scalar of each kind is worth. A tag may claim a kind that the text does not have: most often
the document is unreadable then, but a few mistakes are errors of their own.
-/

namespace LayoutGrammar.Yaml

open Text

/-- A value that there is, unless the document is unreadable. -/
def orUnreadable {α : Type} (a : Option α) : Except ReadFault α := a.elim (.error .unreadable) .ok

/-! ## Numbers -/

/-- A digit in a base up to sixteen, in any script if it is a decimal one. -/
def digitIn? (base : Nat) (c : Char) : Option Nat :=
  match digitValue? c <|> Json.hexValue? c with
  | some d => if d < base then some d else none
  | none => none

/-- The letters that announce a base. -/
def baseLetters : Nat → List Char
  | 2 => ['b', 'B']
  | 8 => ['o', 'O']
  | 16 => ['x', 'X']
  | _ => []

/-- A numeral without a zero and the letter that announce its base. -/
def dropBaseLetter (base : Nat) : List Char → List Char
  | '0' :: c :: rest => if (baseLetters base).contains c then rest else '0' :: c :: rest
  | cs => cs

/-- The integer that a text spells in a base: blanks around it, a sign, digits. -/
def integerIn? (base : Nat) (cs : List Char) : Option Int :=
  let (negative, body) := splitSign (stripNumeral cs)
  match dropBaseLetter base body with
  | [] => none
  | digits => do
    let n ← digits.foldlM (fun n c => (digitIn? base c).map (base * n + ·)) 0
    some (if negative then -(n : Int) else n)

/-- The value of digits in base sixty, the greatest first. -/
def sixtyInteger (digits : List Int) : Int := digits.foldl (60 * · + ·) 0

/-- The integer that a text without sign and underscores spells. -/
def unsignedInteger? (cs : List Char) : Except ReadFault Int :=
  match cs with
  | [] => .error (.failed .blankNumber)
  | ['0'] => .ok 0
  | '0' :: 'b' :: rest => orUnreadable (integerIn? 2 rest)
  | '0' :: 'x' :: rest => orUnreadable (integerIn? 16 rest)
  | '0' :: _ => orUnreadable (integerIn? 8 cs)
  | _ =>
    if cs.contains ':' then
      orUnreadable (((splitColons cs).mapM (integerIn? 10)).map sixtyInteger)
    else orUnreadable (integerIn? 10 cs)

/-- A text without underscores, and whether a minus sign leads it; a blank text has no sign. -/
def splitNumber (cs : List Char) : Except ReadFault (Bool × List Char) :=
  match cs.filter (· != '_') with
  | [] => .error (.failed .blankNumber)
  | cs => .ok (splitSign cs)

/-- The integer that a text spells, in base ten or in another base that it announces. -/
def integer? (cs : List Char) : Except ReadFault Int := do
  let (negative, body) ← splitNumber cs
  let n ← unsignedInteger? body
  pure (if negative then -n else n)

/-- The sum of digits in base sixty, the least first, from a power of sixty on; the power has to be
a double if a digit is multiplied by it. -/
def sixtyReal (power : Nat) (sum : Float) : List Float → Except ReadFault Float
  | [] => .ok sum
  | digit :: rest =>
    let size := Decimal.nearestFloat false power 0
    if size == Decimal.infinity then .error (.failed .integerTooLarge)
    else sixtyReal (60 * power) (sum + digit * size) rest

/-- The double that a text spells, in base ten or sixty. -/
def real? (cs : List Char) : Except ReadFault Float := do
  let (negative, body) ← splitNumber (lower cs)
  let read (cs : List Char) := Decimal.readFloat? (String.ofList cs)
  let sign : Float := if negative then -1.0 else 1.0
  if body == ".inf".toList then pure (sign * Decimal.infinity)
  else if body == ".nan".toList then pure Decimal.notANumber
  else if body.contains ':' then do
    let digits ← orUnreadable ((splitColons body).mapM read)
    let size ← sixtyReal 1 0.0 digits.reverse
    pure (sign * size)
  else do
    let size ← orUnreadable (read body)
    pure (sign * size)

/-! ## Other scalars -/

/-- The words for truth values, in lower case. -/
def truthValues : List (String × Bool) :=
  [("yes", true), ("no", false), ("true", true), ("false", false), ("on", true), ("off", false)]

/-- The truth value that a word stands for. -/
def truth? (s : String) : Except ReadFault Bool :=
  match truthValues.lookup (lowered s) with
  | some b => .ok b
  | none => .error (.failed (.noTruthValue (lowered s)))

/-- The millionths of a second that the digits of a fraction spell; further digits do not count. -/
def millionths (digits : List Char) : Nat := tenValue ((digits ++ List.replicate 6 '0').take 6)

/-- The day or the moment that a stamp gives; the calendar has to know it. -/
def Stamp.value? (s : Stamp) : Option Value :=
  let date : Date := ⟨s.year, s.month, s.day⟩
  match s.time with
  | none => date.valid?.map .date
  | some (hour, minute, second, fraction, offset) =>
    (Moment.valid? ⟨date, hour, minute, second, millionths fraction, offset⟩).map .moment

/-- The day or the moment that a text spells. -/
def moment? (s : String) : Except ReadFault Value :=
  match stamp? (dropFinalBreak s.toList) with
  | some stamp => orUnreadable stamp.value?
  | none => .error (.failed .noMoment)

/-- The bytes that a text in base 64 spells. -/
def bytes? (cs : List Char) : Option (List UInt8) :=
  if cs.all (·.toNat < 128) then base64Bytes cs else none

/-- The value of a scalar of a kind; nothing for kinds that are no scalars. -/
def Kind.scalar? (kind : Kind) (s : String) : Option (Except ReadFault Value) :=
  match kind with
  | .null => some (.ok .null)
  | .truth => some ((truth? s).map .bool)
  | .integer => some ((integer? s.toList).map .int)
  | .real => some ((real? s.toList).map .float)
  | .text => some (.ok (.str s))
  | .bytes => some ((orUnreadable (bytes? s.toList)).map .bytes)
  | .moment => some (moment? s)
  | _ => none

end LayoutGrammar.Yaml
