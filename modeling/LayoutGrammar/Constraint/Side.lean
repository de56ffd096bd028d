import LayoutGrammar.Text.Blank
import LayoutGrammar.Text.Lowercase

/-!
# Sides and how they are spelled

A box has four sides. A location may name a side bare, as a margin or as a padding; padding is the
strongest spelling and the bare name the weakest. `readSideKey?` reads a key, blanks and case
aside.
-/

namespace LayoutGrammar

open Text

/-- A side of a box. -/
inductive Side where
  | top
  | right
  | bottom
  | left
deriving DecidableEq, Repr

namespace Side

/-- All sides, clockwise from the top. -/
def all : List Side := [.top, .right, .bottom, .left]

theorem mem_all (s : Side) : s ∈ all := by cases s <;> decide

/-- The name of a side. -/
def name : Side → String
  | .top => "top"
  | .right => "right"
  | .bottom => "bottom"
  | .left => "left"

/-- The side of a name. -/
def ofName? (s : String) : Option Side := all.find? fun side => side.name == s

theorem ofName?_name (s : Side) : ofName? s.name = some s := by cases s <;> decide

/-- Whether boxes beside this side stand left or right of each other. -/
def isHorizontal : Side → Bool
  | .left | .right => true
  | .top | .bottom => false

end Side

/-- How a side is spelled in a key. -/
inductive Spelling where
  | bare
  | margin
  | padding
deriving DecidableEq, Repr

namespace Spelling

/-- What stands before the name of the side. -/
def lead : Spelling → String
  | .bare => ""
  | .margin => "margin-"
  | .padding => "padding-"

/-- The spellings from the weakest to the strongest. -/
def all : List Spelling := [.bare, .margin, .padding]

/-- The rank of a spelling; a stronger one wins over a weaker one. -/
def rank : Spelling → Nat
  | .bare => 0
  | .margin => 1
  | .padding => 2

end Spelling

/-- The key of a side in a given spelling. -/
def sideKey (spelling : Spelling) (side : Side) : String := spelling.lead ++ side.name

/-- Every key there is, with what it stands for. -/
def sideKeys : List (String × Spelling × Side) :=
  Spelling.all.flatMap fun spelling =>
    Side.all.map fun side => (sideKey spelling side, spelling, side)

/-- The spelling and the side that a key stands for, blanks at its ends and case aside. -/
def readSideKey? (key : String) : Option (Spelling × Side) :=
  let plain := lowered (stripped key)
  (sideKeys.find? fun e => e.1 == plain).map (·.2)

end LayoutGrammar
