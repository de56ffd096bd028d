import LayoutGrammar.Decimal.Binary64
import LayoutGrammar.Table
import LayoutGrammar.Tree.Calendar

/-!
# Raw trees

A raw tree is what a data file holds: scalars, sequences and ordered maps whose keys are values
themselves. Equality of values is numeric equality across booleans, integers and doubles, so `true`,
`1` and `1.0` are one key; a map does not depend on the order of its entries when it is compared.

A container of a data file can hold itself. As a value it is unfolded up to the place where it is
met again, where only its kind is left.
-/

namespace LayoutGrammar

open Decimal

/-- What holds other values and can come to hold itself. -/
inductive Container where
  | list
  | tuple
  | map
deriving DecidableEq, Repr

/-- A raw tree. -/
inductive Value where
  | null
  | bool (b : Bool)
  | int (n : Int)
  | float (x : Float)
  | str (s : String)
  | bytes (bs : List UInt8)
  | date (d : Date)
  | moment (m : Moment)
  | list (items : List Value)
  | tuple (items : List Value)
  /-- A set of scalars. -/
  | set (items : List Value)
  | map (entries : List (Value × Value))
  /-- A container that stands inside itself, where it is met again. -/
  | again (kind : Container)
deriving Inhabited

namespace Value

/-- The number that a scalar stands for: truth values count as one and zero. -/
inductive Quantity where
  | whole (n : Int)
  | real (x : Float)

/-- The number that a scalar stands for, if it does. -/
def quantity? : Value → Option Quantity
  | .bool b => some (.whole (if b then 1 else 0))
  | .int n => some (.whole n)
  | .float x => some (.real x)
  | _ => none

/-- Numeric equality, given equality of doubles. -/
def Quantity.eqBy (eq : Float → Float → Bool) : Quantity → Quantity → Bool
  | .whole m, .whole n => m == n
  | .whole m, .real y => floatToInt? y == some m
  | .real x, .whole n => floatToInt? x == some n
  | .real x, .real y => eq x y

/-- Equality of scalars, given equality of doubles. -/
def scalarEqBy (eq : Float → Float → Bool) : Value → Value → Bool
  | .null, .null => true
  | .str s, .str t => s == t
  | .bytes xs, .bytes ys => xs == ys
  | .date d, .date e => d == e
  | .moment m, .moment n => m.same n
  | a, b =>
    match a.quantity?, b.quantity? with
    | some m, some n => m.eqBy eq n
    | _, _ => false

mutual

/-- Equality of values, given equality of doubles. -/
def eqBy (eq : Float → Float → Bool) : Value → Value → Bool
  | .list xs, .list ys => itemsEqBy eq xs ys
  | .tuple xs, .tuple ys => itemsEqBy eq xs ys
  | .set xs, .set ys => xs.length == ys.length && itemsWithin eq xs ys
  | .map xs, .map ys => xs.length == ys.length && entriesWithin eq xs ys
  | a, b => scalarEqBy eq a b

/-- Equality of sequences, item by item. -/
def itemsEqBy (eq : Float → Float → Bool) : List Value → List Value → Bool
  | [], [] => true
  | x :: xs, y :: ys => eqBy eq x y && itemsEqBy eq xs ys
  | _, _ => false

/-- Every item of the first list has an equal one in the second. -/
def itemsWithin (eq : Float → Float → Bool) : List Value → List Value → Bool
  | [], _ => true
  | x :: xs, ys => ys.any (fun y => eqBy eq x y) && itemsWithin eq xs ys

/-- Every entry of the first list has an equal one in the second. -/
def entriesWithin (eq : Float → Float → Bool) : List (Value × Value) → List (Value × Value) → Bool
  | [], _ => true
  | (k, v) :: rest, ys =>
    ys.any (fun e => eqBy eq k e.1 && eqBy eq v e.2) && entriesWithin eq rest ys

end

/-- Values are equal when their doubles are, so no number is not equal to itself. -/
instance : BEq Value := ⟨eqBy (· == ·)⟩

/-- Equality of values in which no number equals itself. -/
def alike (a b : Value) : Bool := eqBy (fun x y => x == y || (x.isNaN && y.isNaN)) a b

/-- The value under a name in the entries of a map. -/
def field? (name : String) : List (Value × Value) → Option Value
  | [] => none
  | (.str s, v) :: rest => if s = name then some v else field? name rest
  | _ :: rest => field? name rest

/-- The map of some entries: a repeated key keeps its first place and its last value. -/
def ofEntries (entries : List (Value × Value)) : Value :=
  .map (entries.foldl (fun m e => putEntry e.1 e.2 m) [])

/-- The name of a kind of value, as messages give it. -/
def typeName : Value → String
  | .null => "NoneType"
  | .bool _ => "bool"
  | .int _ => "int"
  | .float _ => "float"
  | .str _ => "str"
  | .bytes _ => "bytes"
  | .date _ => "date"
  | .moment _ => "datetime"
  | .list _ | .again .list => "list"
  | .tuple _ | .again .tuple => "tuple"
  | .set _ => "set"
  | .map _ | .again .map => "dict"

/-- Missing values: nothing, and the empty text. -/
def isEmpty : Value → Bool
  | .null => true
  | .str s => s == ""
  | _ => false

/-- A value given in place of which nothing else would do: not null. -/
def isGiven : Value → Bool
  | .null => false
  | _ => true

end Value

end LayoutGrammar
