/-!
# Properties that switch on and off

Many properties of characters hold on long runs of neighbouring code points. Such a property is kept
as the code points at which it switches, in increasing order and starting with it off: a code point
has the property when an odd number of switches lie at or below it.
-/

namespace LayoutGrammar.Text

/-- How many entries of a sorted array lie at or below `n`, looking between `low` and `high`. -/
def countUpTo (table : Array Nat) (n : Nat) : (steps low high : Nat) → Nat
  | 0, low, _ => low
  | steps + 1, low, high =>
    if low < high then
      let mid := (low + high) / 2
      if table.getD mid 0 ≤ n then countUpTo table n steps (mid + 1) high
      else countUpTo table n steps low mid
    else low

/-- Whether a property with these switches is on at a code point. -/
def isOnAt (switches : Array Nat) (n : Nat) : Bool :=
  countUpTo switches n switches.size 0 switches.size % 2 == 1

end LayoutGrammar.Text
