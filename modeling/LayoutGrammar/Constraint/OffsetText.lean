import LayoutGrammar.Constraint.Offset
import LayoutGrammar.Notice
import LayoutGrammar.Text.Numeral

/-!
# Offset tokens

An offset is written `N`, `N+`, `N..M` or `N..*`, with blanks around the signs; `N+` and `N..*` are
the same offset. `Offset.text` writes the first form that fits. Besides tokens, a raw value may give
an offset as a whole number that is not negative or as a map with `min` and `max`. What is missing
reads as no distance at all, and so does, unless reading is strict, what is malformed.
-/

namespace LayoutGrammar

open Text

namespace Offset

/-- The token of an offset. -/
def text (o : Offset) : String :=
  match o.max with
  | none => intString o.min ++ "+"
  | some m => if m = o.min then intString o.min else intString o.min ++ ".." ++ intString m

/-! ## Reading tokens -/

/-- The range from `low` to a bound that is written as a run of digits. -/
def upTo? (low : Nat) (bound : List Char) : Option Offset :=
  if bound.isEmpty || !bound.all isDigit then none
  else
    let high := digitsValue bound
    if high < low then none else some ⟨low, some high⟩

/-- What follows the first number of a token, blanks in front removed. -/
def ofTail? (low : Nat) : List Char → Option Offset
  | ['+'] => some (atLeast low)
  | '.' :: '.' :: bound =>
    match stripLeft bound with
    | ['*'] => some (atLeast low)
    | digits => upTo? low digits
  | _ => none

/-- The offset of a token without blanks at its ends; the empty token is no distance. -/
def ofToken? (token : List Char) : Option Offset :=
  if token.isEmpty then some zero
  else
    let digits := token.takeWhile isDigit
    let tail := token.dropWhile isDigit
    if digits.isEmpty then none
    else if tail.isEmpty then some (exactly (digitsValue digits))
    else ofTail? (digitsValue digits) (stripLeft tail)

/-! ## Reading raw values -/

/-- A bound of a range in a raw map. -/
inductive Bound where
  | unbounded
  | cells (n : Int)
deriving DecidableEq, Repr

/-- The bound that a raw value gives. -/
def Bound.ofValue? : Value → Option Bound
  | .null => some .unbounded
  | .int n => some (.cells n)
  | .float x => if x == 1.0 / 0.0 then some .unbounded else none
  | .str s =>
    if s = "*" then some .unbounded
    else
      let digits := strip s.toList
      if digits.isEmpty || !digits.all isDigit then none else some (.cells (digitsValue digits))
  | _ => none

/-- The offset of a raw map; without `max` it is exact. -/
def ofEntries? (entries : List (Value × Value)) : Option Offset :=
  match Bound.ofValue? ((Value.field? "min" entries).getD (.int 0)) with
  | some (.cells low) =>
    match (Value.field? "max" entries).elim (some (.cells low)) Bound.ofValue? with
    | some (.cells high) => if high < low then none else some ⟨low, some high⟩
    | some .unbounded => some ⟨low, none⟩
    | none => none
  | _ => none

/-- The offset that a raw value gives, unless it is malformed. -/
def ofValue? : Value → Option Offset
  | .null => some zero
  | .int n => if 0 ≤ n then some (exactly n) else none
  | .float x =>
    match Decimal.floatToInt? x with
    | some n => if 0 ≤ n then some (exactly n) else none
    | none => none
  | .map entries => ofEntries? entries
  | .str s => ofToken? (strip s.toList)
  | _ => none

theorem ofValue?_str (s : String) : ofValue? (.str s) = ofToken? (strip s.toList) := rfl

/-- Reads a raw value. A malformed one is an error when reading is strict and no distance, with a
notice, otherwise. -/
def read (strict : Bool) (raw : Value) : Logged Notice Error Offset :=
  match ofValue? raw with
  | some o => pure o
  | none =>
    if strict then Logged.fail (.malformedToken raw)
    else do
      Logged.say (.malformedToken raw)
      pure zero

@[simp] theorem result_read_strict (raw : Value) :
    (read true raw).result = ((ofValue? raw).elim (.error (.malformedToken raw)) .ok) := by
  unfold read; cases ofValue? raw <;> rfl

@[simp] theorem result_read_lenient (raw : Value) :
    (read false raw).result = .ok ((ofValue? raw).getD zero) := by
  unfold read; cases ofValue? raw <;> rfl

end Offset

end LayoutGrammar
