import LayoutGrammar.Decimal.Binary64

/-!
# Coordinates

Geometry is computed over any type of coordinates with the four operations and two decidable
orders. Doubles are the coordinates of the running program, where a comparison with no number is
false; rationals are the coordinates of its theory. The order of the operations in every formula of
the library matters for doubles and is kept as it is written.

The lesser and the greater of two doubles come in two forms. `lesser` and `greater` keep the first
argument unless the second one is better, also if one of them is no number. `strictLesser` and
`strictGreater` are the elementwise minimum and maximum of an array library, which by its
documentation hand on whatever is no number.
-/

namespace LayoutGrammar

/-- Numbers that geometry can be computed with. -/
class Scalar (α : Type) extends Add α, Sub α, Mul α, Div α, LT α, LE α where
  decideLT : ∀ a b : α, Decidable (a < b)
  decideLE : ∀ a b : α, Decidable (a ≤ b)
  /-- A natural number as a coordinate. -/
  ofNat : Nat → α
  /-- An integer as a coordinate, rounded if need be. -/
  ofInt : Int → α
  /-- Whether an integer lies beyond every coordinate. -/
  overflows : Int → Bool

namespace Scalar

variable {α : Type} [Scalar α]

instance (a b : α) : Decidable (a < b) := decideLT a b

instance (a b : α) : Decidable (a ≤ b) := decideLE a b

/-- Nothing. -/
def zero : α := ofNat 0

/-- Two. -/
def two : α := ofNat 2

/-- The lesser of two coordinates, the second one only if it is less. -/
def lesser (a b : α) : α := if b < a then b else a

/-- The greater of two coordinates, the second one only if it is greater. -/
def greater (a b : α) : α := if a < b then b else a

/-- The lesser of two coordinates; the sum of two that do not compare, which compares with none. -/
def strictLesser (a b : α) : α := if a < b then a else if b ≤ a then b else a + b

/-- The greater of two coordinates; the sum of two that do not compare, which compares with none. -/
def strictGreater (a b : α) : α := if b < a then a else if a ≤ b then b else a + b

/-- Whether a coordinate is nothing. -/
def isZero (a : α) : Bool := a ≤ zero && (zero : α) ≤ a

/-- The value moved into the range from `low` to `high`; `low` wins if the range is empty. -/
def clamp (value low high : α) : α := greater low (lesser value high)

end Scalar

instance : Scalar Float where
  decideLT := inferInstance
  decideLE := inferInstance
  ofNat := Float.ofNat
  ofInt := Float.ofInt
  overflows n := (Float.ofInt n).isInf

instance : Scalar Rat where
  decideLT := inferInstance
  decideLE := inferInstance
  ofNat n := n
  ofInt n := n
  overflows _ := false

@[simp] theorem Scalar.ofNat_rat (n : Nat) : (Scalar.ofNat n : Rat) = n := rfl

@[simp] theorem Scalar.zero_rat : (Scalar.zero : Rat) = 0 := rfl

@[simp] theorem Scalar.two_rat : (Scalar.two : Rat) = 2 := rfl

end LayoutGrammar
