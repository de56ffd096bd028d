/-!
# Offsets

An offset says how far a child keeps from a side of its parent, in grid cells: at least `min` and at
most `max`, or at least `min` without a bound. `Offset.WellFormed` is what reading a token promises.
-/

namespace LayoutGrammar

/-- A distance from a side of the parent in grid cells; without `max` it has no upper bound. -/
structure Offset where
  min : Int
  max : Option Int
deriving DecidableEq, Repr

namespace Offset

/-- Flush with the side. -/
def zero : Offset := ⟨0, some 0⟩

/-- Exactly `n` cells. -/
def exactly (n : Int) : Offset := ⟨n, some n⟩

/-- At least `n` cells. -/
def atLeast (n : Int) : Offset := ⟨n, none⟩

/-- The offset has no upper bound. -/
def isOpen (o : Offset) : Bool := o.max.isNone

/-- The offset admits one distance only. -/
def isExact (o : Offset) : Bool := o.max == some o.min

/-- The cells an offset needs on screen; an open one needs `headroom` more than its minimum. -/
def cells (o : Offset) (headroom : Int) : Int :=
  match o.max with
  | some m => m
  | none => o.min + headroom

/-- The minimum is not negative and the maximum, if there is one, is not below it. -/
def WellFormed (o : Offset) : Prop := 0 ≤ o.min ∧ ∀ m ∈ o.max, o.min ≤ m

instance (o : Offset) : Decidable o.WellFormed :=
  match h : o.max with
  | none => decidable_of_iff (0 ≤ o.min) (by simp [WellFormed, h])
  | some m => decidable_of_iff (0 ≤ o.min ∧ o.min ≤ m) (by simp [WellFormed, h])

@[simp] theorem cells_of_max {o : Offset} {m : Int} (h : o.max = some m) (headroom : Int) :
    o.cells headroom = m := by simp [cells, h]

@[simp] theorem cells_of_open {o : Offset} (h : o.max = none) (headroom : Int) :
    o.cells headroom = o.min + headroom := by simp [cells, h]

end Offset

end LayoutGrammar
