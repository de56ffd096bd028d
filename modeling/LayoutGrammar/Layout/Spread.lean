import LayoutGrammar.Layout.Child

/-!
# Spreading siblings

Children at the same side of their parent are laid out along it in their order, with one and the
same gap before each of them: what the boxes leave of the parent's span, divided evenly, but at
least the smallest spacing. A child inside its parent belongs to the one side where it is pinned, a
child beside it to its primary side; the others keep their boxes.

`pairwiseSum` fixes the order in which lengths are added up, which matters for doubles. It is the
order in which an array library sums an array, its documented pairwise summation, with the blocks
and the eight interleaved sums that the library uses; the sums before each box (`sumsFrom`) are
running ones.
-/

namespace LayoutGrammar.Layout

open Scalar

variable {α : Type} [Scalar α]

/-! ## Sums -/

/-- The sum of a list from the left. -/
def runningSum (start : α) (xs : List α) : α := xs.foldl (· + ·) start

/-- Adds a list to eight sums, eight numbers at a time; also returns the rest. -/
def addBlocks (sums : List α) : List α → List α × List α
  | a :: b :: c :: d :: e :: f :: g :: h :: rest =>
    addBlocks (sums.zipWith (· + ·) [a, b, c, d, e, f, g, h]) rest
  | rest => (sums, rest)

/-- The sum of up to 128 numbers: in eight interleaved sums that are added in pairs, then the rest;
fewer than eight numbers are added in order. -/
def blockSum (xs : List α) : α :=
  match xs with
  | a :: b :: c :: d :: e :: f :: g :: h :: rest =>
    match addBlocks [a, b, c, d, e, f, g, h] rest with
    | ([a, b, c, d, e, f, g, h], rest) =>
      runningSum (((a + b) + (c + d)) + ((e + f) + (g + h))) rest
    | (sums, rest) => runningSum (runningSum zero sums) rest
  | xs => runningSum zero xs

/-- The sum of a list: a long one is cut at the multiple of eight below its middle. -/
def pairwiseSum (xs : List α) : α :=
  if _h : xs.length ≤ 128 then blockSum xs
  else
    let half := xs.length / 2 - xs.length / 2 % 8
    pairwiseSum (xs.take half) + pairwiseSum (xs.drop half)
termination_by xs.length
decreasing_by all_goals simp; omega

/-! ## Positions -/

/-- A sum, and the sums after each of some further numbers. -/
def sumsFrom (sum : α) : List α → List α
  | [] => [sum]
  | x :: rest => sum :: sumsFrom (sum + x) rest

/-- What the boxes before each box take up. -/
def takenBefore : List α → List α
  | [] => []
  | size :: rest => zero :: (sumsFrom size rest).dropLast

/-- The positions of boxes one after the other: each stands its number of gaps and all the boxes
before it from the start. -/
def positions (start spacing : α) (sizes : List α) : List α :=
  (takenBefore sizes).zipIdx.map fun (before, i) => start + spacing * ofNat (i + 1) + before

/-- The sum of some sizes, counted from zero. -/
def total (sizes : List α) : α := zero + pairwiseSum sizes

/-- The gap between boxes of some sizes along a span. -/
def gap (sizes : List α) (span minSpacing : α) : α :=
  greater minSpacing ((span - total sizes) / ofNat (sizes.length + 1))

/-- The gap between boxes and their positions; no boxes have no gap. -/
def spreadOut (sizes : List α) (start span minSpacing : α) : α × List α :=
  if sizes.isEmpty then (zero, [])
  else
    let spacing := gap sizes span minSpacing
    (spacing, positions start spacing sizes)

/-- `spreadOut`, traced. -/
def spread (sizes : List α) (start span minSpacing : α) : Traced α (α × List α) :=
  traced .spread
    [.list (sizes.map .number), .number start, .number span, .number minSpacing] []
    (fun r => .tuple [.number r.1, .list (r.2.map .number)])
    (pure (spreadOut sizes start span minSpacing))

/-! ## Groups -/

/-- The side that a child is grouped by, if it is free to move along it. -/
def groupSide (location : Option Location) (mode : Placement) : Traced α (Option Side) :=
  traced .groupSide [.option Location.item location, .text mode.name] [] (.option Side.item)
    (if mode = .inner then pure (location.bind fun l => (Pins.ofLocation l).single?)
    else primarySide location)

/-- Children at the same side of their parent. -/
abbrev GroupKey := Placement × Side

/-- Groups in the order of their first members. -/
abbrev Groups (α : Type) := Table GroupKey (List (Child α))

/-- Adds a child to its group. -/
def joinGroup (groups : Groups α) (c : Child α) : Traced α (Groups α) := do
  let side ← groupSide c.location c.mode
  match side with
  | none => pure groups
  | some side => pure (groups.insert (c.mode, side) ((groups.get? (c.mode, side)).getD [] ++ [c]))

/-- The groups of some children. -/
def gatherGroups (children : List (Child α)) : Traced α (Groups α) :=
  traced .gatherGroups [.list (children.map Child.item)] []
    (fun groups => .map (groups.entries.map fun e =>
      (.tuple [.text e.1.1.name, e.1.2.item], .list (e.2.map Child.item))))
    (children.foldlM joinGroup ∅)

/-! ## Boxes -/

/-- The boxes of children. -/
abbrev Boxes (α : Type) := Table ChildKey (Rect α)

/-- Lays out one group along its side. -/
def spreadGroup (parent : Rect α) (s : Settings α) (boxes : Boxes α)
    (group : GroupKey × List (Child α)) : Traced α (Boxes α) := do
  let ((mode, side), members) := group
  let (spacing, positions) ←
    if side.isHorizontal then
      spread (members.map (·.bounds.height)) parent.y parent.height s.minSpacing
    else spread (members.map (·.bounds.width)) parent.x parent.width s.minSpacing
  Logged.say (.distributed mode side members.length spacing)
  pure ((members.zip positions).foldl
    (fun boxes (c, position) =>
      boxes.insert c.key
        (if side.isHorizontal then c.bounds.placedAt c.bounds.x position
        else c.bounds.placedAt position c.bounds.y))
    boxes)

/-- The boxes of children after every group has been laid out. -/
def distribute (children : List (Child α)) (parent : Rect α) (choice : Choice α) :
    Traced α (Boxes α) :=
  traced .distribute [.list (children.map Child.item), parent.item, choice.item] []
    (fun boxes => .map (boxes.entries.map fun e => (e.1.item, e.2.item)))
    (do
      let groups ← gatherGroups children
      groups.entries.foldlM (spreadGroup parent choice.settings)
        (.ofList (children.map fun c => (c.key, c.bounds))))

end LayoutGrammar.Layout
