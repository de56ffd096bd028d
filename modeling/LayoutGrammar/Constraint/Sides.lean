import LayoutGrammar.Constraint.Side

/-!
# Something for each side

`Sides α` holds one value for each of the four sides. Locations, pins, extents and the values that
compete for a side are all of this shape; `get_set` and `ext_get` are all that is needed about it.
-/

namespace LayoutGrammar

/-- One value for each side. -/
structure Sides (α : Type) where
  top : α
  right : α
  bottom : α
  left : α
deriving DecidableEq, Repr

namespace Sides

variable {α β : Type}

/-- The value at a side. -/
def get (s : Sides α) : Side → α
  | .top => s.top
  | .right => s.right
  | .bottom => s.bottom
  | .left => s.left

/-- Changes the value at one side. -/
def set (s : Sides α) (side : Side) (a : α) : Sides α :=
  match side with
  | .top => { s with top := a }
  | .right => { s with right := a }
  | .bottom => { s with bottom := a }
  | .left => { s with left := a }

/-- The values that a function gives. -/
def ofFn (f : Side → α) : Sides α := ⟨f .top, f .right, f .bottom, f .left⟩

/-- Changes every value. -/
def map (f : α → β) (s : Sides α) : Sides β := ⟨f s.top, f s.right, f s.bottom, f s.left⟩

/-- The sides with their values, clockwise from the top. -/
def toList (s : Sides α) : List (Side × α) := Side.all.map fun side => (side, s.get side)

@[simp] theorem get_map (f : α → β) (s : Sides α) (side : Side) :
    (s.map f).get side = f (s.get side) := by cases side <;> rfl

theorem get_set (s : Sides α) (side other : Side) (a : α) :
    (s.set side a).get other = if other = side then a else s.get other := by
  cases side <;> cases other <;> rfl

@[simp] theorem get_set_self (s : Sides α) (side : Side) (a : α) :
    (s.set side a).get side = a := by simp [get_set]

theorem ext_get {s t : Sides α} (h : ∀ side, s.get side = t.get side) : s = t := by
  cases s; cases t
  have := h .top; have := h .right; have := h .bottom; have := h .left
  simp_all [get]

end Sides

end LayoutGrammar
