import LayoutGrammar.Proofs.Geometry.Band
import LayoutGrammar.Proofs.Layout.Measured

/-!
# Boxes beside their parents

A child beside its parent starts beyond its primary side, as far as the offset there says, whatever
happens along the other axis (`exists_placeBeside`). The move onto the surface may only bring it
back towards the parent, and if it fits into the band there it stays beside the parent.
`placeBox_outer_beside` puts this together.
-/

namespace LayoutGrammar

open Scalar

namespace Layout

variable {l : Location} {parent : Rect Rat} {child : Size Rat} {cell : Rat} {side : Side}

/-- A location that constrains some side has a primary side: the first constrained one of the left,
the right, the upper and the lower side. -/
theorem exists_primarySide (h : l ≠ .free) :
    ∃ side o, l.primarySide = some side ∧ l.get side = some o ∧
      ∃ before after, [Side.left, .right, .top, .bottom] = before ++ side :: after ∧
        ∀ other ∈ before, l.get other = none := by
  cases hside : l.primarySide with
  | none => exact absurd (eq_free_of_primarySide hside) h
  | some side =>
    obtain ⟨hsome, before, after, horder, hbefore⟩ := List.find?_eq_some_iff_append.1 hside
    obtain ⟨o, ho⟩ := Option.isSome_iff_exists.1 hsome
    refine ⟨side, o, rfl, ho, before, after, horder, fun other hother => ?_⟩
    simpa using hbefore other hother

theorem across_of_placeBeside {box : Rect Rat}
    (h : (placeBeside l parent child cell side).result = .ok box) :
    box.size.across side = child.across side := by
  simp only [placeBeside, pixels_rat, Logged.result_bind, Logged.result_ofExcept, ok_bind] at h
  cases side with
  | left | right | top | bottom =>
    simp only [Logged.result_bind, except_bind_ok, Logged.result_pure] at h
    obtain ⟨_, -, h⟩ := h
    obtain rfl := Except.ok.inj h
    rfl

variable (parent child cell) in
/-- A child beside its parent starts beyond the primary side, as long along that axis as it is. -/
theorem exists_placeBeside {o : Offset} (hside : l.primarySide = some side)
    (ho : l.get side = some o) :
    ∃ box, (placeBeside l parent child cell side).result = .ok box ∧
      box.distance parent side = o.min * cell ∧ box.size.across side = child.across side := by
  obtain ⟨box, hbox⟩ :=
    (failsUnless_placeBeside l parent child cell hside).ok (Location.measurable_rat .outer l)
  refine ⟨box, hbox, ?_, across_of_placeBeside hbox⟩
  rw [Rect.distance_eq, exitDistance_of_placeBeside hbox, ho, Option.getD_some, neg_neg]

/-- **A child beside its parent stays beside it.** It stands beyond its primary side, off the
parent, as far away as its offset says; on a surface that leaves room for it there, the distance is
cut down to that room and the box is on the surface unless it is larger. -/
theorem placeBox_outer_beside (parent : Rect Rat) (child : Size Rat) (cell : Option Rat)
    (choice : Choice Rat) (hl : l ≠ .free) (hmin : ∀ side o, l.get side = some o → 0 ≤ o.min)
    (hcell : 0 ≤ cell.getD choice.settings.gridSize) :
    ∃ side o, l.primarySide = some side ∧ l.get side = some o ∧
      (∃ before after, [Side.left, .right, .top, .bottom] = before ++ side :: after ∧
        ∀ other ∈ before, l.get other = none) ∧
      (∃ box, (placeBox (some l) parent child .outer cell none choice).result = .ok box ∧
        box.collides parent = false ∧
        box.distance parent side = o.min * cell.getD choice.settings.gridSize) ∧
      ∀ surface, parent.OnSurface surface → child.across side ≤ parent.band surface side →
        ∃ box, (placeBox (some l) parent child .outer cell (some surface) choice).result = .ok box ∧
          box.collides parent = false ∧ 0 ≤ box.distance parent side ∧
          box.distance parent side = min (o.min * cell.getD choice.settings.gridSize)
            (parent.band surface side - child.across side) ∧
          (box.width ≤ surface.width → box.height ≤ surface.height →
            (Rect.ofSurface surface).Contains box) := by
  obtain ⟨side, o, hside, ho, hfirst⟩ := exists_primarySide hl
  obtain ⟨start, hstart, hdistance, hacross⟩ :=
    exists_placeBeside parent child (cell.getD choice.settings.gridSize) hside ho
  have hout : 0 ≤ start.distance parent side := by
    rw [hdistance]
    exact mul_nonneg (Int.cast_nonneg (hmin side o ho)) hcell
  have hplaced : ∀ surface : Option (Size Rat),
      (placeBox (some l) parent child .outer cell surface choice).result =
        .ok (surface.elim start start.ontoSurface) := by
    intro surface
    rw [result_placeBox_getD, Option.getD_some, result_placeBox_outer, hside]
    exact except_map_ok.2 ⟨start, hstart, rfl⟩
  refine ⟨side, o, hside, ho, hfirst, ?_, fun surface hparent hfits => ?_⟩
  · exact ⟨start, hplaced none, Rect.collides_of_distance hout, hdistance⟩
  · rw [← hacross] at hfits
    have honto := Rect.distance_ontoSurface hparent hfits hout
    have hstays : 0 ≤ (start.ontoSurface surface).distance parent side := by
      rw [honto]
      exact le_min hout (sub_nonneg.2 hfits)
    rw [hdistance, hacross] at honto
    exact ⟨_, hplaced (some surface), Rect.collides_of_distance hstays, hstays, honto,
      fun hwidth hheight => Rect.contains_ontoSurface hwidth hheight⟩

/-- Five cells to the right, and pinned above and below. -/
def alongsideRight : Location := ⟨some .zero, some (.exactly 5), some .zero, none⟩

/-- The offset asks for more than the surface has room for. -/
theorem placeBox_outer_beside_alongsideRight :
    alongsideRight ≠ .free ∧ (∀ side o, alongsideRight.get side = some o → 0 ≤ o.min) ∧
      (0 : Rat) ≤ 20 ∧ Rect.OnSurface ⟨100, 100, 200, 100⟩ ⟨400, 300⟩ ∧
      ∃ box, (placeBox (some alongsideRight) ⟨100, 100, 200, 100⟩ ⟨50, 40⟩ .outer (some (20 : Rat))
          (some ⟨400, 300⟩) (.given .standard)).result = .ok box ∧
        box.collides ⟨100, 100, 200, 100⟩ = false ∧
        box.distance ⟨100, 100, 200, 100⟩ .right = 50 := by
  have hl : alongsideRight ≠ .free := by decide
  have hmin : ∀ side o, alongsideRight.get side = some o → 0 ≤ o.min := by
    intro side o ho
    cases side <;> cases ho <;> decide
  have hcell : (0 : Rat) ≤ 20 := by decide +kernel
  have hparent : Rect.OnSurface ⟨100, 100, 200, 100⟩ ⟨400, 300⟩ := by
    intro side
    cases side <;> exact ⟨by decide +kernel, by decide +kernel⟩
  obtain ⟨side, o, hside, ho, -, -, hsurface⟩ := placeBox_outer_beside ⟨100, 100, 200, 100⟩
    ⟨50, 40⟩ (some 20) (.given .standard) hl hmin hcell
  obtain rfl : Side.right = side := Option.some.inj hside
  obtain rfl : Offset.exactly 5 = o := Option.some.inj ho
  obtain ⟨box, hbox, hapart, -, hdistance, -⟩ := hsurface ⟨400, 300⟩ hparent (by decide +kernel)
  exact ⟨hl, hmin, hcell, hparent, box, hbox, hapart, hdistance.trans (by decide +kernel)⟩

end Layout

end LayoutGrammar
