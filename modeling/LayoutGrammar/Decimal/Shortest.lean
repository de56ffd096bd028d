import LayoutGrammar.Decimal.Binary64
import LayoutGrammar.Decimal.Digits

/-!
# The text of a double

A double is written with the fewest decimal digits that still single it out among all doubles, and
of the shortest numerals the nearest one is taken. The doubles that are not numbers are `inf`,
`-inf` and `nan`. `fixedText` writes a given number of places instead and `generalText` a given
number of significant digits; both round the exact binary value, a half to the even neighbour.
-/

namespace LayoutGrammar.Decimal

open Text

/-- The positive real numbers nearer to one double than to any other: from `low / den` to
`high / den` around `value / den`, with both ends when `closed`. -/
structure Cell where
  low : Nat
  value : Nat
  high : Nat
  den : Nat
  closed : Bool

/-- The reals that round to `mantissa * 2 ^ exponent`; below a power of two the doubles lie twice
as close. -/
def Cell.ofParts (mantissa : Nat) (exponent : Int) : Cell :=
  let below := if mantissa = twoTo 52 ∧ -1074 < exponent then 1 else 2
  let scale := twoTo (exponent - 2).toNat
  { low := (4 * mantissa - below) * scale
    value := 4 * mantissa * scale
    high := (4 * mantissa + 2) * scale
    den := twoTo (2 - exponent).toNat
    closed := mantissa % 2 == 0 }

/-- Whether `num / den'` lies in the cell. -/
def Cell.holds (cell : Cell) (num den' : Nat) : Bool :=
  let x := num * cell.den
  let low := cell.low * den'
  let high := cell.high * den'
  if cell.closed then low ≤ x && x ≤ high else low < x && x < high

/-- The power of ten of the first digit of `num / den`, which is positive. -/
def firstPower (num den : Nat) : Int :=
  if den ≤ num then ((natText (num / den)).length : Int) - 1
  else -search 400 1
where
  /-- The least `j` with `den ≤ num * 10 ^ j`, from `j` on. -/
  search : (steps j : Nat) → Int
    | 0, j => j
    | steps + 1, j => if den ≤ num * tenTo j then j else search steps (j + 1)

/-- The numeral nearest to the cell's value among those of the given exponent that lie in it. -/
def Cell.candidate? (cell : Cell) (exponent : Int) : Option Numeral :=
  let up := tenTo exponent.toNat
  let down := tenTo (-exponent).toNat
  let num := cell.value * down
  let den := cell.den * up
  let low := num / den
  let twice := 2 * (num % den)
  let nearest := roundDiv num den
  let other := if nearest = low then low + 1 else low
  if 0 < nearest && cell.holds (nearest * up) down then some ⟨nearest, exponent⟩
  else if twice ≠ 0 && 0 < other && cell.holds (other * up) down then some ⟨other, exponent⟩
  else none

/-- The shortest numeral in the cell, trying `digits` digits, then more. -/
def Cell.shortest (cell : Cell) (first : Int) : (steps digits : Nat) → Numeral
  | 0, digits =>
    let exponent := first - digits + 1
    ⟨roundDiv (cell.value * tenTo (-exponent).toNat) (cell.den * tenTo exponent.toNat), exponent⟩
  | steps + 1, digits =>
    match cell.candidate? (first - digits + 1) with
    | some d => d
    | none => cell.shortest first steps (digits + 1)

/-- The shortest numeral that singles out a positive double. -/
def shortest (mantissa : Nat) (exponent : Int) : Numeral :=
  let cell := Cell.ofParts mantissa exponent
  cell.shortest (firstPower cell.value cell.den) 16 1

/-- Doubles from `1e-4` up to `1e16` are written without an exponent, and whole ones keep
a point. -/
def plain : Style := ⟨-4, 15, true⟩

/-- A sign in front of a negative number. -/
def signed (negative : Bool) (cs : List Char) : String :=
  String.ofList (if negative then '-' :: cs else cs)

/-- A double in the fewest digits that single it out. -/
def floatText (x : Float) : String :=
  match Binary64.ofFloat x with
  | .notANumber => "nan"
  | .infinite negative => signed negative ['i', 'n', 'f']
  | .finite negative 0 _ => signed negative ['0', '.', '0']
  | .finite negative mantissa exponent =>
    signed negative (layOut plain (shortest mantissa exponent))

/-- A double with a fixed number of places. -/
def fixedText (places : Nat) (x : Float) : String :=
  match Binary64.ofFloat x with
  | .notANumber => "nan"
  | .infinite negative => signed negative ['i', 'n', 'f']
  | .finite negative mantissa exponent =>
    signed negative (withPlaces places
      (roundDiv (mantissa * twoTo exponent.toNat * tenTo places) (twoTo (-exponent).toNat)))

/-- A double rounded to `digits` significant digits; an exponent is written when the first digit
lies below the fourth place or beyond the last of the digits. -/
def generalText (digits : Nat) (x : Float) : String :=
  match Binary64.ofFloat x with
  | .notANumber => "nan"
  | .infinite negative => signed negative ['i', 'n', 'f']
  | .finite negative 0 _ => signed negative ['0']
  | .finite negative mantissa exponent =>
    let num := mantissa * twoTo exponent.toNat
    let den := twoTo (-exponent).toNat
    let power := firstPower num den - digits + 1
    let coefficient := roundDiv (num * tenTo (-power).toNat) (den * tenTo power.toNat)
    signed negative (layOut ⟨-4, (digits : Int) - 1, false⟩ ⟨coefficient, power⟩)

end LayoutGrammar.Decimal
