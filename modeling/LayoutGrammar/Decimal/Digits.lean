import LayoutGrammar.Text.Numeral

/-!
# Decimal numerals and how they are laid out

A `Numeral` is a whole number and a power of ten. `Style` says how it is laid out: which powers are
written out in full, and whether a whole number keeps a point. `roundDiv` rounds a quotient to the
nearest whole number, a half to the even neighbour.
-/

namespace LayoutGrammar.Decimal

open Text

/-- A power of ten. -/
def tenTo (n : Nat) : Nat := Nat.pow 10 n

/-- The number `coefficient * 10 ^ exponent`. -/
structure Numeral where
  coefficient : Nat
  exponent : Int
deriving DecidableEq, Repr

/-- The whole number nearest to `num / den`, a half going to the even neighbour. -/
def roundDiv (num den : Nat) : Nat :=
  let low := num / den
  let twice := 2 * (num % den)
  if twice < den then low
  else if den < twice then low + 1
  else low + low % 2

/-- Drops final zeros, at most `steps` of them. -/
def dropZeros : (steps : Nat) → Numeral → Numeral
  | 0, d => d
  | steps + 1, d =>
    if d.coefficient ≠ 0 ∧ d.coefficient % 10 = 0 then
      dropZeros steps ⟨d.coefficient / 10, d.exponent + 1⟩
    else d

/-- How numerals are laid out. -/
structure Style where
  /-- The least power of ten of the first digit that is written without an exponent. -/
  least : Int
  /-- The greatest such power. -/
  greatest : Int
  /-- A whole number written without an exponent ends in `.0`. -/
  pointed : Bool

/-- An exponent with its sign and at least two digits. -/
def exponentText (e : Int) : List Char :=
  let digits := natText e.natAbs
  'e' :: (if e < 0 then '-' else '+') :: (if digits.length < 2 then '0' :: digits else digits)

/-- A numeral in the given style, without final zeros. -/
def layOut (style : Style) (d : Numeral) : List Char :=
  let d := dropZeros 400 d
  let digits := natText d.coefficient
  let first : Int := d.exponent + digits.length - 1
  let tail : List Char := if style.pointed then ['.', '0'] else []
  if d.coefficient = 0 then '0' :: tail
  else if first < style.least || style.greatest < first then
    (match digits with
      | [] => []
      | [c] => [c]
      | c :: rest => c :: '.' :: rest) ++ exponentText first
  else if 0 ≤ d.exponent then digits ++ List.replicate d.exponent.toNat '0' ++ tail
  else if 0 ≤ first then
    digits.take (first.toNat + 1) ++ '.' :: digits.drop (first.toNat + 1)
  else '0' :: '.' :: List.replicate (-first).toNat.pred '0' ++ digits

/-- `n / 10 ^ places` with exactly `places` digits after the point. -/
def withPlaces (places n : Nat) : List Char :=
  let fraction := natText (n % tenTo places)
  let padded := List.replicate (places - fraction.length) '0' ++ fraction
  natText (n / tenTo places) ++ (if places = 0 then [] else '.' :: padded)

end LayoutGrammar.Decimal
