import LayoutGrammar.Geometry.Rect
import Mathlib.Tactic.Linarith

/-!
# Boxes moved into areas

With rational coordinates, a box that fits into an area is inside it after `movedInside`, wherever
it stood before (`contains_movedInside`), and pushing a box off an area ends with a move onto the
surface (`exists_pushOut`). Whether a box fits depends on its size alone, so any place where it is
inside shows that it fits.

A box that started outside an area, beyond one of its sides, and was moved onto the surface from
there may have come to overlap the area. Pushing it out through that side then changes neither
coordinate: it goes the way back until it touches the area, and the surface stops it where it stood
(`pushOut_x`, `pushOut_y`).
-/

namespace LayoutGrammar

open Scalar

theorem Scalar.greater_rat (a b : Rat) : greater a b = max a b := by
  unfold greater
  split
  · next h => exact (max_eq_right (le_of_lt h)).symm
  · next h => exact (max_eq_left (not_lt.1 h)).symm

theorem Scalar.lesser_rat (a b : Rat) : lesser a b = min a b := by
  unfold lesser
  split
  · next h => exact (min_eq_right (le_of_lt h)).symm
  · next h => exact (min_eq_left (not_lt.1 h)).symm

/-- Moving a value into a range, by the order alone. -/
theorem Scalar.clamp_eq (value low high : Rat) :
    clamp value low high = max low (min value high) := by
  rw [clamp, greater_rat, lesser_rat]

/-- A value moved into a range that is not empty lies in it. -/
theorem Scalar.clamp_mem {low high : Rat} (h : low ≤ high) (value : Rat) :
    low ≤ clamp value low high ∧ clamp value low high ≤ high := by
  rw [clamp_eq]
  exact ⟨le_max_left _ _, max_le h (min_le_right _ _)⟩

/-- A value in the range stays, and so does the low end of a range that is empty. -/
theorem Scalar.clamp_of_le {value low high : Rat} (hlow : low ≤ value)
    (hhigh : value ≤ high ∨ value = low) : clamp value low high = value := by
  rw [clamp_eq]
  rcases hhigh with hhigh | rfl
  · rw [min_eq_left hhigh, max_eq_right hlow]
  · exact max_eq_left (min_le_left _ _)

/-- A value above the low end of a range is kept from passing the high end. -/
theorem Scalar.clamp_of_low_le {value low high : Rat} (hlow : low ≤ value) (hrange : low ≤ high) :
    clamp value low high = min value high := by
  rw [clamp_eq, max_eq_right (le_min hlow hrange)]

/-- A value below the high end of a range is kept from passing the low end. -/
theorem Scalar.clamp_of_le_high {value low high : Rat} (hhigh : value ≤ high) :
    clamp value low high = max low value := by
  rw [clamp_eq, min_eq_left hhigh]

/-- A value is moved into a range in the same way elsewhere. -/
theorem Scalar.clamp_add (value low high d : Rat) :
    clamp (value + d) (low + d) (high + d) = clamp value low high + d := by
  rw [clamp_eq, clamp_eq, min_add_add_right, max_add_add_right]

/-- A value that was moved into a range stays there. -/
theorem Scalar.clamp_clamp (value low high : Rat) :
    clamp (clamp value low high) low high = clamp value low high := by
  refine clamp_of_le ?_ ?_ <;> rw [clamp_eq]
  · exact le_max_left _ _
  · rcases max_choice low (min value high) with h | h
    · exact .inr h
    · exact .inl (h.trans_le (min_le_right _ _))

/-- A value that passes another one upwards on its way into a range is stopped by the low end, and
so is the other one. -/
theorem Scalar.clamp_of_passed_up {value other low high : Rat} (hle : value ≤ other)
    (hlt : other < clamp value low high) : clamp other low high = clamp value low high := by
  rw [clamp_eq] at hlt
  have hlow : other < low := by
    rcases lt_max_iff.1 hlt with h | h
    · exact h
    · exact absurd (lt_min_iff.1 h).1 (not_lt.2 hle)
  rw [clamp_eq, clamp_eq, max_eq_left ((min_le_left _ _).trans (le_of_lt hlow)),
    max_eq_left ((min_le_left _ _).trans (hle.trans (le_of_lt hlow)))]

/-- A value that passes another one downwards on its way into a range is stopped by the high end,
and so is the other one, unless the low end stops both. -/
theorem Scalar.clamp_of_passed_down {value other low high : Rat} (hle : other ≤ value)
    (hlt : clamp value low high < other) : clamp other low high = clamp value low high := by
  rw [clamp_eq] at hlt
  have hhigh : high < other := by
    rcases min_lt_iff.1 (max_lt_iff.1 hlt).2 with h | h
    · exact absurd h (not_lt.2 hle)
    · exact h
  rw [clamp_eq, clamp_eq, min_eq_right (le_of_lt hhigh), min_eq_right ((le_of_lt hhigh).trans hle)]

namespace Rect

/-- A box lies inside an area, touching its edges at most. -/
structure Contains (area r : Rect Rat) : Prop where
  left : area.x ≤ r.x
  top : area.y ≤ r.y
  right : r.right ≤ area.right
  bottom : r.bottom ≤ area.bottom

/-- A box moved by a vector. -/
def translated (r : Rect Rat) (dx dy : Rat) : Rect Rat := r.placedAt (r.x + dx) (r.y + dy)

variable {α : Type}

/-- Overlapping is mutual. -/
theorem collides_comm [Scalar α] (a b : Rect α) : a.collides b = b.collides a := by
  unfold collides
  ac_rfl

/-- A box that is inside an area somewhere is inside it after it was moved there. -/
theorem contains_movedInside {area r : Rect Rat} (h : area.Contains r) (x y : Rat) :
    area.Contains ((r.placedAt x y).movedInside area) := by
  have hx : area.x ≤ area.right - r.width := by
    have hleft := h.left
    have hright := h.right
    simp only [Rect.right] at hright ⊢
    linarith
  have hy : area.y ≤ area.bottom - r.height := by
    have htop := h.top
    have hbottom := h.bottom
    simp only [Rect.bottom] at hbottom ⊢
    linarith
  obtain ⟨hlowx, hhighx⟩ := clamp_mem hx x
  obtain ⟨hlowy, hhighy⟩ := clamp_mem hy y
  constructor
  · exact hlowx
  · exact hlowy
  · change clamp x area.x (area.right - r.width) + r.width ≤ area.right
    linarith
  · change clamp y area.y (area.bottom - r.height) + r.height ≤ area.bottom
    linarith

/-- A box that is inside an area stays where it is when it is moved there. -/
theorem movedInside_of_contains {area r : Rect Rat} (h : area.Contains r) :
    r.movedInside area = r := by
  obtain ⟨hleft, htop, hright, hbottom⟩ := h
  have hx : clamp r.x area.x (area.right - r.width) = r.x :=
    clamp_of_le hleft (.inl (le_sub_iff_add_le.2 hright))
  have hy : clamp r.y area.y (area.bottom - r.height) = r.y :=
    clamp_of_le htop (.inl (le_sub_iff_add_le.2 hbottom))
  rw [movedInside, hx, hy]
  rfl

/-- Pushing a box off an area moves it onto the surface from somewhere. -/
theorem exists_pushOut [Scalar α] (r area : Rect α) (surface : Size α) (prefer : Option Side) :
    ∃ x y, r.pushOut area surface prefer = (r.placedAt x y).ontoSurface surface := by
  unfold pushOut
  dsimp only
  split
  · have hbeside : ∀ side, ∃ x y,
        (r.ontoSurface surface).beside area side = r.placedAt x y := by
      intro side
      cases side <;> exact ⟨_, _, rfl⟩
    obtain ⟨x, y, hxy⟩ := hbeside (prefer.getD ((r.ontoSurface surface).nearestExit area))
    exact ⟨x, y, by rw [hxy]⟩
  · exact ⟨r.x, r.y, rfl⟩

/-- A box of the size of another one is that one at another place. -/
theorem eq_placedAt {r start : Rect α} (h : r.size = start.size) : r = start.placedAt r.x r.y := by
  obtain ⟨x, y, width, height⟩ := r
  obtain ⟨rfl, rfl⟩ := Size.mk.inj h
  rfl

/-! ## Boxes that come back to an area -/

section Return

variable {area r start : Rect Rat} {surface : Size Rat} {side : Side}

/-- Moving onto the surface a second time changes nothing. -/
theorem ontoSurface_x (hwidth : r.width = start.width)
    (hx : r.x = (start.ontoSurface surface).x) : (r.ontoSurface surface).x = r.x := by
  change clamp r.x zero ((ofSurface surface).right - r.width) = r.x
  rw [hx, hwidth]
  exact clamp_clamp _ _ _

theorem ontoSurface_y (hheight : r.height = start.height)
    (hy : r.y = (start.ontoSurface surface).y) : (r.ontoSurface surface).y = r.y := by
  change clamp r.y zero ((ofSurface surface).bottom - r.height) = r.y
  rw [hy, hheight]
  exact clamp_clamp _ _ _

/-- A box at the horizontal place where the surface stopped it after it had started beyond a side of
an area keeps that place when it is pushed off the area through that side. -/
theorem pushOut_x (hexit : start.exitDistance area side ≤ 0) (hwidth : r.width = start.width)
    (hx : r.x = (start.ontoSurface surface).x) :
    (r.pushOut area surface (some side)).x = r.x := by
  have hstays : (r.ontoSurface surface).x = r.x := ontoSurface_x hwidth hx
  have hstart : r.x = clamp start.x zero ((ofSurface surface).right - r.width) := by
    rw [hx, hwidth]
    rfl
  unfold pushOut
  dsimp only
  split
  · next hcollides =>
    simp only [collides, Bool.and_eq_true, decide_eq_true_eq] at hcollides
    obtain ⟨⟨⟨hbefore, hbehind⟩, -⟩, -⟩ := hcollides
    rw [hstays] at hbefore
    rw [right, hstays] at hbehind
    change area.x < r.x + r.width at hbehind
    cases side with
    | left =>
      simp only [exitDistance, right] at hexit
      -- the box started to the left of where it is pushed to, and has come further right
      have hpassed : clamp (area.x - r.width) zero ((ofSurface surface).right - r.width) =
          clamp start.x zero ((ofSurface surface).right - r.width) :=
        clamp_of_passed_up (by linarith) (by linarith)
      exact hpassed.trans hstart.symm
    | right =>
      simp only [exitDistance] at hexit
      have hpassed : clamp area.right zero ((ofSurface surface).right - r.width) =
          clamp start.x zero ((ofSurface surface).right - r.width) :=
        clamp_of_passed_down (by linarith) (by linarith)
      exact hpassed.trans hstart.symm
    | top | bottom => exact (congrArg (clamp · _ _) hstays).trans hstays
  · exact hstays

/-- A box at the vertical place where the surface stopped it after it had started beyond a side of
an area keeps that place when it is pushed off the area through that side. -/
theorem pushOut_y (hexit : start.exitDistance area side ≤ 0) (hheight : r.height = start.height)
    (hy : r.y = (start.ontoSurface surface).y) :
    (r.pushOut area surface (some side)).y = r.y := by
  have hstays : (r.ontoSurface surface).y = r.y := ontoSurface_y hheight hy
  have hstart : r.y = clamp start.y zero ((ofSurface surface).bottom - r.height) := by
    rw [hy, hheight]
    rfl
  unfold pushOut
  dsimp only
  split
  · next hcollides =>
    simp only [collides, Bool.and_eq_true, decide_eq_true_eq] at hcollides
    obtain ⟨⟨-, habove⟩, hbelow⟩ := hcollides
    rw [hstays] at habove
    rw [bottom, hstays] at hbelow
    change area.y < r.y + r.height at hbelow
    cases side with
    | top =>
      simp only [exitDistance, bottom] at hexit
      have hpassed : clamp (area.y - r.height) zero ((ofSurface surface).bottom - r.height) =
          clamp start.y zero ((ofSurface surface).bottom - r.height) :=
        clamp_of_passed_up (by linarith) (by linarith)
      exact hpassed.trans hstart.symm
    | bottom =>
      simp only [exitDistance] at hexit
      have hpassed : clamp area.bottom zero ((ofSurface surface).bottom - r.height) =
          clamp start.y zero ((ofSurface surface).bottom - r.height) :=
        clamp_of_passed_down (by linarith) (by linarith)
      exact hpassed.trans hstart.symm
    | left | right => exact (congrArg (clamp · _ _) hstays).trans hstays
  · exact hstays

end Return

end Rect

end LayoutGrammar
