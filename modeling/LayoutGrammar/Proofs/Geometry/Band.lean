import LayoutGrammar.Proofs.Geometry.Rect

/-!
# Boxes beside an area

Between an edge of an area and the edge of the surface lies a band. A box beyond a side of an area
does not overlap it (`collides_of_distance`), and if it fits into the band there, the move onto the
surface brings it back towards the area no farther than the room asks for
(`distance_ontoSurface`).
-/

namespace LayoutGrammar

open Scalar

/-- The extent of a size along the axis that crosses a side. -/
def Size.across {α : Type} (s : Size α) (side : Side) : α :=
  if side.isHorizontal then s.width else s.height

namespace Rect

variable {r area : Rect Rat} {surface : Size Rat} {side : Side}

/-- The coordinate of the edge at a side. -/
def edge (r : Rect Rat) : Side → Rat
  | .left => r.x
  | .right => r.right
  | .top => r.y
  | .bottom => r.bottom

/-- All edges of a box lie on a surface. -/
def OnSurface (r : Rect Rat) (surface : Size Rat) : Prop :=
  ∀ side, 0 ≤ r.edge side ∧ r.edge side ≤ surface.across side

/-- The width of the band between an edge of an area and the edge of the surface at that side. -/
def band (area : Rect Rat) (surface : Size Rat) (side : Side) : Rat :=
  match side with
  | .left | .top => area.edge side
  | .right | .bottom => surface.across side - area.edge side

/-- How far a box lies beyond a side of an area; negative if it reaches into it from there. -/
def distance (r area : Rect Rat) : Side → Rat
  | .left => area.x - r.right
  | .right => r.x - area.right
  | .top => area.y - r.bottom
  | .bottom => r.y - area.bottom

theorem distance_eq (r area : Rect Rat) (side : Side) :
    r.distance area side = -r.exitDistance area side := by
  cases side <;> exact (neg_sub _ _).symm

/-- A box beyond a side of an area does not overlap it. -/
theorem collides_of_distance (h : 0 ≤ r.distance area side) : r.collides area = false := by
  rw [collides, Bool.eq_false_iff]
  simp only [ne_eq, Bool.and_eq_true, decide_eq_true_eq, not_and, not_lt]
  cases side with
  | left | right | top | bottom =>
    simp only [distance] at h
    intros
    linarith

/-! ## Along an axis of the surface -/

section Axis

variable {edge length gap extent : Rat}

/-- A box before an edge is moved towards it as far as the start of the surface asks. -/
theorem clamp_before (hedge : edge ≤ extent) (hgap : 0 ≤ gap) :
    edge - (clamp (edge - gap - length) 0 (extent - length) + length) =
      min gap (edge - length) := by
  rw [clamp_of_le_high (by linarith)]
  rcases le_total gap (edge - length) with h | h
  · rw [max_eq_right (by linarith), min_eq_left h]
    linarith
  · rw [max_eq_left (by linarith), min_eq_right h]
    linarith

/-- A box behind an edge is moved towards it as far as the end of the surface asks. -/
theorem clamp_behind (hfits : length ≤ extent - edge) (hedge : 0 ≤ edge) (hgap : 0 ≤ gap) :
    clamp (edge + gap) 0 (extent - length) - edge = min gap (extent - edge - length) := by
  rw [clamp_of_low_le (by linarith) (by linarith)]
  rcases le_total gap (extent - edge - length) with h | h
  · rw [min_eq_left (by linarith), min_eq_left h]
    linarith
  · rw [min_eq_right (by linarith), min_eq_right h]
    linarith

end Axis

theorem x_ontoSurface (r : Rect Rat) (surface : Size Rat) :
    (r.ontoSurface surface).x = clamp r.x 0 (surface.width - r.width) := by
  change clamp r.x 0 (0 + surface.width - r.width) = _
  rw [zero_add]

theorem y_ontoSurface (r : Rect Rat) (surface : Size Rat) :
    (r.ontoSurface surface).y = clamp r.y 0 (surface.height - r.height) := by
  change clamp r.y 0 (0 + surface.height - r.height) = _
  rw [zero_add]

/-- A box beyond a side that fits into the band there stays beyond the side when it is moved onto
the surface, as far from it as before or as far as there is room. -/
theorem distance_ontoSurface (harea : area.OnSurface surface)
    (hfits : r.size.across side ≤ area.band surface side) (hout : 0 ≤ r.distance area side) :
    (r.ontoSurface surface).distance area side =
      min (r.distance area side) (area.band surface side - r.size.across side) := by
  obtain ⟨hlow, hhigh⟩ := harea side
  cases side with
  | left =>
    have hx : r.x = area.x - r.distance area .left - r.width := by
      simp only [distance, right]
      linarith
    change area.x - ((r.ontoSurface surface).x + r.width) = min _ (area.x - r.width)
    rw [x_ontoSurface, hx]
    exact clamp_before hhigh hout
  | right =>
    have hx : r.x = area.right + r.distance area .right := (add_sub_cancel _ _).symm
    change (r.ontoSurface surface).x - area.right = min _ (surface.width - area.right - r.width)
    rw [x_ontoSurface, hx]
    exact clamp_behind hfits hlow hout
  | top =>
    have hy : r.y = area.y - r.distance area .top - r.height := by
      simp only [distance, bottom]
      linarith
    change area.y - ((r.ontoSurface surface).y + r.height) = min _ (area.y - r.height)
    rw [y_ontoSurface, hy]
    exact clamp_before hhigh hout
  | bottom =>
    have hy : r.y = area.bottom + r.distance area .bottom := (add_sub_cancel _ _).symm
    change (r.ontoSurface surface).y - area.bottom =
      min _ (surface.height - area.bottom - r.height)
    rw [y_ontoSurface, hy]
    exact clamp_behind hfits hlow hout

/-- A box that is not larger than the surface is on it after it was moved there. -/
theorem contains_ontoSurface (hwidth : r.width ≤ surface.width)
    (hheight : r.height ≤ surface.height) :
    (ofSurface surface).Contains (r.ontoSurface surface) := by
  have hcorner : (ofSurface surface).Contains (r.placedAt 0 0) :=
    ⟨le_refl _, le_refl _, add_le_add_right hwidth 0, add_le_add_right hheight 0⟩
  exact contains_movedInside hcorner r.x r.y

end Rect

end LayoutGrammar
