import LayoutGrammar.Text.Numeral

/-!
# Reading doubles

The double nearest to a decimal numeral, and the generous form of numerals: blanks around, a sign,
digits of any script in groups, an optional fraction and exponent, or the words for infinity and for
no number.
-/

namespace LayoutGrammar.Decimal

open Text

/-- Infinity. -/
def infinity : Float := 1.0 / 0.0

/-- The double that is no number. -/
def notANumber : Float := 0.0 / 0.0

/-- The double nearest to `coefficient * 10 ^ exponent`; a power of ten far outside the range of
doubles is not computed. -/
def nearestFloat (negative : Bool) (coefficient : Nat) (exponent : Int) : Float :=
  let length : Int := (natText coefficient).length
  let size : Float :=
    if coefficient = 0 || exponent + length < -400 then 0.0
    else if 400 < exponent + length then infinity
    else if 0 ≤ exponent then Float.ofScientific coefficient false exponent.toNat
    else Float.ofScientific coefficient true (-exponent).toNat
  if negative then -size else size

/-- The double that the digits before and after the point and a power of ten spell. -/
def floatOfDigits (negative : Bool) (whole fraction : List Char) (exponent : Int) : Float :=
  nearestFloat negative (digitsValue (whole ++ fraction)) (exponent - fraction.length)

/-- The words for numbers that are not finite, in lower case. -/
def wordValue? (cs : List Char) : Option Float :=
  let word := String.ofList (cs.map Char.toLower)
  if word == "inf" || word == "infinity" then some infinity
  else if word == "nan" then some notANumber
  else none

/-- The power of ten after a numeral: nothing, or a letter e with a signed run of digits. -/
def readExponent? : List Char → Option Int
  | [] => some 0
  | c :: rest =>
    if c == 'e' || c == 'E' then
      let (negative, body) := splitSign rest
      match spanGroupedDigits body with
      | (d :: digits, []) =>
        let n : Int := digitsValue (d :: digits)
        some (if negative then -n else n)
      | _ => none
    else none

/-- The digits after the point, if there is one, and what follows. -/
def splitFraction : List Char → List Char × List Char
  | '.' :: rest => spanGroupedDigits rest
  | cs => ([], cs)

/-- The double that a text spells. -/
def readFloat? (s : String) : Option Float :=
  let (negative, body) := splitSign (stripNumeral s.toList)
  match wordValue? body with
  | some x => some (if negative then -x else x)
  | none =>
    let (whole, afterWhole) := spanGroupedDigits body
    let (fraction, afterFraction) := splitFraction afterWhole
    if whole.isEmpty && fraction.isEmpty then none
    else (readExponent? afterFraction).map (floatOfDigits negative whole fraction)

end LayoutGrammar.Decimal
