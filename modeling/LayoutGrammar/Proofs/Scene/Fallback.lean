import LayoutGrammar.Proofs.Geometry.PushOut
import LayoutGrammar.Proofs.Scene.Drag
import LayoutGrammar.Proofs.Scene.Session

/-!
# Moves along one axis

If the proposed place is taken by a sibling, the box moves along one axis only: one coordinate is
that of the proposal and the other one the old one. Both are coordinates of boxes in the region
where the child may stand, so the box with these two is in the region as well (`Contains.mixed`),
and only the parent can be in the way of a child beside it. A box over the parent is pushed off it,
and that moves it along the other axis if it leaves through a side that crosses it (`Deflected`). So
each fallback keeps its coordinate or is deflected by the parent (`onlyX_cases`, `onlyY_cases`).
-/

namespace LayoutGrammar

theorem Rect.Contains.mixed {area r other : Rect Rat} (h : area.Contains r)
    (h' : area.Contains other) (hsize : other.size = r.size) :
    area.Contains (r.placedAt other.x r.y) ∧ area.Contains (r.placedAt r.x other.y) := by
  obtain ⟨hwidth, hheight⟩ := Size.mk.inj hsize
  refine ⟨⟨h'.left, h.top, ?_, h.bottom⟩, ⟨h.left, h'.top, h.right, ?_⟩⟩
  · change other.x + r.width ≤ area.right
    rw [← hwidth]
    exact h'.right
  · change other.y + r.height ≤ area.bottom
    rw [← hheight]
    exact h'.bottom

namespace DragLimits

variable {c : DragLimits Rat} {current full box : Rect Rat} {siblings : List (Rect Rat)} {x y : Rat}

/-- A box stands where its placement allows, off all siblings, and has the locked coordinates of the
box that the child started from. -/
structure Legal (c : DragLimits Rat) (siblings : List (Rect Rat)) (box : Rect Rat) : Prop where
  place : c.Allows box
  apart : ∀ other ∈ siblings, box.collides other = false
  lockedX : c.pins.locksX = true → box.x = c.initial.x
  lockedY : c.pins.locksY = true → box.y = c.initial.y

/-- A place over the parent, and the box to which it is pushed through a side. -/
structure Deflected (c : DragLimits Rat) (place : Rect Rat) (side : Side) (box : Rect Rat) :
    Prop where
  outside : c.mode = .outer
  collides : place.collides c.parent = true
  through : (c.attachment.bind Side.ofName?).getD (place.nearestExit c.parent) = side
  pushed : box = place.beside c.parent side

/-- The area in which a child stands: the parent, or the surface. -/
def region (c : DragLimits Rat) : Rect Rat :=
  match c.mode with
  | .inner => c.parent
  | _ => .ofSurface c.surface

theorem contains_region (h : c.Allows box) : c.region.Contains box := by
  obtain ⟨mode, parent, surface, pins, initial, attachment⟩ := c
  cases mode with
  | inner => exact h
  | outer => exact h.1
  | other name => exact h.elim

/-- A proposed place that is made legal lies in the region. -/
theorem contains_region_of_adjust (h : c.Allows current) (hbox : c.adjust current x y = .ok box) :
    c.region.Contains box := by
  obtain ⟨mode, parent, surface, pins, initial, attachment⟩ := c
  cases mode with
  | inner =>
    obtain rfl := Except.ok.inj hbox
    exact Rect.contains_movedInside h _ _
  | outer =>
    obtain ⟨x', y', hpush⟩ := Rect.exists_pushOut
      (freeze ⟨.outer, parent, surface, pins, initial, attachment⟩ current x y) parent surface
      (attachment.bind Side.ofName?)
    rw [← Except.ok.inj hbox, hpush]
    exact Rect.contains_movedInside h.1 _ _
  | other name => exact h.elim

/-- A place in the region that is made legal and admitted stays, or the parent deflects it. -/
theorem eq_or_deflected (hplace : c.region.Contains (c.freeze current x y))
    (hbox : c.adjust current x y = .ok box) (hadmits : c.admits siblings box = true) :
    box = c.freeze current x y ∨ ∃ side, c.Deflected (c.freeze current x y) side box := by
  obtain ⟨mode, parent, surface, pins, initial, attachment⟩ := c
  cases mode with
  | inner =>
    obtain rfl := Except.ok.inj hbox
    exact .inl (Rect.movedInside_of_contains hplace)
  | outer =>
    obtain rfl := Except.ok.inj hbox
    simp only [admits, decide_true, Bool.true_and, Bool.and_eq_true, Bool.not_eq_true'] at hadmits
    rcases Rect.eq_or_beside_of_pushOut hplace hadmits.1 with hstays | ⟨hover, hpushed⟩
    · exact .inl hstays
    · exact .inr ⟨_, rfl, hover, rfl, hpushed⟩
  | other name => cases hbox

/-! ## One coordinate kept -/

theorem apart_of_allows (h : c.Allows box) (hmode : c.mode = .outer) :
    box.collides c.parent = false := by
  rw [Allows, hmode] at h
  exact h.2

section Kept

variable (h : c.Legal siblings current)

include h

/-- A legal box has the locked coordinates already, so freezing leaves an old coordinate alone. -/
theorem freeze_onlyX (x : Rat) : c.freeze current x current.y = current ∨
    c.freeze current x current.y = current.placedAt x current.y := by
  have hy : (if c.pins.locksY then c.initial.y else current.y) = current.y := by
    split
    · next hlocked => exact (h.lockedY hlocked).symm
    · rfl
  rw [freeze, hy]
  split
  · next hlocked =>
    rw [← h.lockedX hlocked]
    exact .inl rfl
  · exact .inr rfl

theorem freeze_onlyY (y : Rat) : c.freeze current current.x y = current ∨
    c.freeze current current.x y = current.placedAt current.x y := by
  have hx : (if c.pins.locksX then c.initial.x else current.x) = current.x := by
    split
    · next hlocked => exact (h.lockedX hlocked).symm
    · rfl
  rw [freeze, hx]
  split
  · next hlocked =>
    rw [← h.lockedY hlocked]
    exact .inl rfl
  · exact .inr rfl

/-- A place that is the old one or another one in the region is taken as it is, unless it is another
one and the parent deflects it. -/
theorem eq_or_deflected_of_freeze {place : Rect Rat} (hplace : c.region.Contains place)
    (hfreeze : c.freeze current x y = current ∨ c.freeze current x y = place)
    (hbox : c.adjust current x y = .ok box) (hadmits : c.admits siblings box = true) :
    box = current ∨ box = place ∨ ∃ side, c.Deflected place side box := by
  have hregion : c.region.Contains (c.freeze current x y) := by
    rcases hfreeze with hfreeze | hfreeze <;> rw [hfreeze]
    · exact contains_region h.place
    · exact hplace
  rcases eq_or_deflected hregion hbox hadmits with hstays | ⟨side, hdeflected⟩
  · rw [hstays]
    exact hfreeze.imp_right .inl
  · rcases hfreeze with hfreeze | hfreeze <;> rw [hfreeze] at hdeflected
    · have hover := hdeflected.collides
      rw [apart_of_allows h.place hdeflected.outside] at hover
      cases hover
    · exact .inr (.inr ⟨side, hdeflected⟩)

variable (hfull : c.adjust current x y = .ok full)

include hfull

/-- Both boxes with one coordinate of the proposal and one old coordinate lie in the region. -/
theorem contains_mixed : c.region.Contains (current.placedAt full.x current.y) ∧
    c.region.Contains (current.placedAt current.x full.y) :=
  (contains_region h.place).mixed (contains_region_of_adjust h.place hfull) (size_of_adjust hfull)

/-- The horizontal move keeps the vertical coordinate, unless the parent deflects it upwards or
downwards. -/
theorem onlyX_cases (hbox : c.adjust current full.x current.y = .ok box)
    (hadmits : c.admits siblings box = true) :
    box.y = current.y ∨ ∃ side, side.isHorizontal = false ∧
      c.Deflected (current.placedAt full.x current.y) side box := by
  rcases eq_or_deflected_of_freeze h (contains_mixed h hfull).1 (freeze_onlyX h full.x) hbox
    hadmits with rfl | rfl | ⟨side, hdeflected⟩
  · exact .inl rfl
  · exact .inl rfl
  · cases hside : side.isHorizontal with
    | false => exact .inr ⟨side, hside, hdeflected⟩
    | true =>
      rw [hdeflected.pushed]
      exact .inl (Rect.y_beside hside)

/-- The vertical move keeps the horizontal coordinate, unless the parent deflects it to the left or
to the right. -/
theorem onlyY_cases (hbox : c.adjust current current.x full.y = .ok box)
    (hadmits : c.admits siblings box = true) :
    box.x = current.x ∨ ∃ side, side.isHorizontal = true ∧
      c.Deflected (current.placedAt current.x full.y) side box := by
  rcases eq_or_deflected_of_freeze h (contains_mixed h hfull).2 (freeze_onlyY h full.y) hbox
    hadmits with rfl | rfl | ⟨side, hdeflected⟩
  · exact .inl rfl
  · exact .inl rfl
  · cases hside : side.isHorizontal with
    | true => exact .inr ⟨side, hside, hdeflected⟩
    | false =>
      rw [hdeflected.pushed]
      exact .inl (Rect.x_beside hside)

end Kept

/-- **A box follows the pointer along both axes, along one of them, or around the parent.** From a
legal box, following the pointer ends at the proposed place made legal, or at a box with one of the
old coordinates, or at a box beside the parent that was pushed off it across the axis of its move,
because the place with one old coordinate overlaps the parent. -/
theorem followPointer_axes (h : c.Legal siblings current) (x y : Rat) :
    ∃ full box, c.adjust current x y = .ok full ∧
      (Layout.followPointer x y current c siblings).result = .ok box ∧
      (box = full ∨ box.y = current.y ∨ box.x = current.x ∨
        (∃ side, side.isHorizontal = false ∧
          c.Deflected (current.placedAt full.x current.y) side box) ∨
        ∃ side, side.isHorizontal = true ∧
          c.Deflected (current.placedAt current.x full.y) side box) := by
  obtain ⟨x₁, y₁, hfull, -⟩ := exists_adjust h.place x y
  obtain ⟨x₂, y₂, honlyx, -⟩ := exists_adjust h.place x₁ current.y
  obtain ⟨x₃, y₃, honlyy, -⟩ := exists_adjust h.place current.x y₁
  refine ⟨_, _, hfull, result_followPointer hfull honlyx honlyy, ?_⟩
  cases hfind : [current.placedAt x₁ y₁, current.placedAt x₂ y₂, current.placedAt x₃ y₃].find?
      (c.admits siblings) with
  | none => exact .inr (.inl rfl)
  | some box =>
    have hadmits : c.admits siblings box = true := List.find?_some hfind
    have hmem := List.mem_of_find?_eq_some hfind
    simp only [List.mem_cons, List.not_mem_nil, or_false] at hmem
    rw [Option.getD_some]
    rcases hmem with rfl | rfl | rfl
    · exact .inl rfl
    · rcases onlyX_cases h hfull honlyx hadmits with hkept | hdeflected
      · exact .inr (.inl hkept)
      · exact .inr (.inr (.inr (.inl hdeflected)))
    · rcases onlyY_cases h hfull honlyy hadmits with hkept | hdeflected
      · exact .inr (.inr (.inl hkept))
      · exact .inr (.inr (.inr (.inr hdeflected)))

/-! ## An example -/

/-- A child of a square that is attached above it. -/
def aboveSquare : DragLimits Rat where
  mode := .outer
  parent := ⟨100, 100, 100, 100⟩
  surface := ⟨400, 400⟩
  pins := .ofLocation .free
  initial := ⟨120, 50, 50, 50⟩
  attachment := some "top"

/-- The child to the left of the square. -/
def leftOfSquare : Rect Rat := ⟨0, 120, 50, 50⟩

/-- A sibling below the square. -/
def belowSquare : Rect Rat := ⟨120, 260, 50, 50⟩

theorem legal_leftOfSquare : aboveSquare.Legal [belowSquare] leftOfSquare := by
  refine ⟨⟨⟨?_, ?_, ?_, ?_⟩, ?_⟩, ?_, nofun, nofun⟩ <;> decide +kernel

theorem adjust_leftOfSquare : aboveSquare.adjust leftOfSquare 120 250 = .ok ⟨120, 250, 50, 50⟩ :=
  eq_ok_of_toOption (by decide +kernel)

theorem result_followPointer_leftOfSquare :
    (Layout.followPointer 120 250 leftOfSquare aboveSquare [belowSquare]).result =
      .ok ⟨120, 50, 50, 50⟩ :=
  eq_ok_of_toOption (by decide +kernel)

/-- The place below the square is taken, and on its way to the right the child runs into the square,
which pushes it upwards: neither coordinate is an old one. -/
theorem followPointer_leavesAxes :
    aboveSquare.Legal [belowSquare] leftOfSquare ∧
      ∃ full box, aboveSquare.adjust leftOfSquare 120 250 = .ok full ∧
        (Layout.followPointer 120 250 leftOfSquare aboveSquare [belowSquare]).result = .ok box ∧
        ¬ (box = full ∨ box.y = leftOfSquare.y ∨ box.x = leftOfSquare.x) :=
  ⟨legal_leftOfSquare, _, _, adjust_leftOfSquare, result_followPointer_leftOfSquare,
    by decide +kernel⟩

theorem followPointer_axes_leftOfSquare :
    aboveSquare.Legal [belowSquare] leftOfSquare ∧
      aboveSquare.Deflected (leftOfSquare.placedAt 120 leftOfSquare.y) .top ⟨120, 50, 50, 50⟩ := by
  obtain ⟨full, box, hfull, hbox, hcases⟩ := followPointer_axes legal_leftOfSquare 120 250
  obtain rfl : ⟨120, 250, 50, 50⟩ = full := Except.ok.inj (adjust_leftOfSquare.symm.trans hfull)
  obtain rfl : ⟨120, 50, 50, 50⟩ = box :=
    Except.ok.inj (result_followPointer_leftOfSquare.symm.trans hbox)
  refine ⟨legal_leftOfSquare, ?_⟩
  rcases hcases with hsame | hsame | hsame | ⟨side, -, hdeflected⟩ | ⟨side, hside, hdeflected⟩
  · exact absurd hsame (by decide +kernel)
  · exact absurd hsame (by decide +kernel)
  · exact absurd hsame (by decide +kernel)
  · obtain rfl : Side.top = side := hdeflected.through
    exact hdeflected
  · obtain rfl : Side.top = side := hdeflected.through
    cases hside

end DragLimits

end LayoutGrammar
