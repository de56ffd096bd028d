/-!
# Double-precision numbers, exactly

A double is a sign, a natural number and a power of two, or an infinity, or no number at all.
`Binary64.ofFloat` takes a double apart; everything that compares a double with an integer or writes
it in decimal works on the parts, in exact arithmetic.
-/

namespace LayoutGrammar.Decimal

/-- A power of two. -/
def twoTo (n : Nat) : Nat := Nat.pow 2 n

/-- The meaning of a double; a finite one is `mantissa * 2 ^ exponent` with a sign. -/
inductive Binary64 where
  | finite (negative : Bool) (mantissa : Nat) (exponent : Int)
  | infinite (negative : Bool)
  | notANumber
deriving DecidableEq, Repr

namespace Binary64

/-- Takes a double apart; the mantissa of a normal one has 53 binary digits. -/
def ofFloat (x : Float) : Binary64 :=
  let bits : Nat := x.toBits.toNat
  let negative := bits / twoTo 63 == 1
  let power : Nat := bits / twoTo 52 % twoTo 11
  let fraction : Nat := bits % twoTo 52
  if power == 2047 then if fraction == 0 then .infinite negative else .notANumber
  else if power == 0 then .finite negative fraction (-1074)
  else .finite negative (twoTo 52 + fraction) ((power : Int) - 1075)

/-- The integer part of a finite double, towards zero. -/
def truncate? : Binary64 → Option Int
  | .finite negative mantissa exponent =>
    let whole : Nat :=
      if 0 ≤ exponent then mantissa * twoTo exponent.toNat else mantissa / twoTo (-exponent).toNat
    some (if negative then -(whole : Int) else whole)
  | _ => none

/-- The value of a double that is a whole number. -/
def toInt? : Binary64 → Option Int
  | .finite negative mantissa exponent =>
    if 0 ≤ exponent || mantissa % twoTo (-exponent).toNat == 0 then
      truncate? (.finite negative mantissa exponent)
    else none
  | _ => none

end Binary64

/-- A whole number that a double is exactly equal to. -/
def floatToInt? (x : Float) : Option Int := (Binary64.ofFloat x).toInt?

end LayoutGrammar.Decimal
