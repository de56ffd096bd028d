import LayoutGrammar.Layout.Axis
import LayoutGrammar.Proofs.Geometry.Rect
import LayoutGrammar.Proofs.Logged

/-!
# What placing a box gives

`placeBox` takes a child inside its parent along both axes and a child beside it to its primary
side; without any constraint both stand in the middle (`result_placeBox_inner`,
`result_placeBox_outer`). Inside, the box is thus what the two axes give, moved into the parent
(`result_placeBox_of_axes`).

With rational coordinates one of a few rules applies along an axis (`AxisRule`), and what holds of
the axis is shown by cases on it. If the offsets of an axis are small enough for the child to stand
behind each of them, the child keeps the distances that they ask for, and moving it into its parent
afterwards changes nothing (`fitted_of_placeBox`). A child beside its parent starts beyond its
primary side (`exitDistance_of_placeBeside`).
-/

namespace LayoutGrammar.Layout

open Scalar

section Boxes

variable {α : Type} [Scalar α]

theorem placeInside_eq_ok_iff {l : Location} {parent box : Rect α} {child : Size α} {cell : α} :
    (placeInside l parent child cell).result = .ok box ↔
      ∃ x width y height,
        placeOnAxis l.left l.right parent.x parent.width child.width cell = .ok (x, width) ∧
        placeOnAxis l.top l.bottom parent.y parent.height child.height cell = .ok (y, height) ∧
        box = Rect.movedInside ⟨x, y, width, height⟩ parent := by
  simp only [placeInside, Logged.result_bind, except_bind_ok, Logged.result_pure, ok_eq_ok_iff,
    Prod.exists]
  constructor
  · rintro ⟨x, width, hx, y, height, hy, hbox⟩
    exact ⟨x, width, y, height, hx, hy, hbox⟩
  · rintro ⟨x, width, y, height, hx, hy, hbox⟩
    exact ⟨x, width, hx, y, height, hy, hbox⟩

/-- A missing location constrains no side, and a missing cell size is the one of the settings. -/
theorem result_placeBox_getD (location : Option Location) (parent : Rect α) (child : Size α)
    (mode : Placement) (cell : Option α) (surface : Option (Size α)) (choice : Choice α) :
    (placeBox location parent child mode cell surface choice).result =
      (placeBox (some (location.getD .free)) parent child mode
        (some (cell.getD choice.settings.gridSize)) surface choice).result := by
  cases location with
  | none =>
    have hfree : Location.free.primarySide = none := rfl
    cases h : mode.isKnown <;> simp [placeBox, primarySide, hfree, h]
  | some l => simp [placeBox]

theorem result_placeBox_inner (l : Location) (parent : Rect α) (child : Size α) (cell : α)
    (surface : Option (Size α)) (choice : Choice α) :
    (placeBox (some l) parent child .inner (some cell) surface choice).result =
      if l.primarySide.isSome then (placeInside l parent child cell).result
      else (centerBox parent child).result := by
  cases h : l.primarySide <;> simp [placeBox, Placement.isKnown, primarySide, h]

theorem result_placeBox_outer (l : Location) (parent : Rect α) (child : Size α) (cell : α)
    (surface : Option (Size α)) (choice : Choice α) :
    (placeBox (some l) parent child .outer (some cell) surface choice).result =
      l.primarySide.elim (centerBox parent child).result fun side =>
        (fun box => surface.elim box box.ontoSurface) <$>
          (placeBeside l parent child cell side).result := by
  cases h : l.primarySide with
  | none => simp [placeBox, Placement.isKnown, primarySide, h]
  | some side =>
    simp [placeBox, Placement.isKnown, primarySide, h]

end Boxes

/-- A location without a primary side constrains no side. -/
theorem eq_free_of_primarySide {l : Location} (h : l.primarySide = none) : l = .free := by
  have hnone : ∀ side, l.get side = none := by
    intro side
    have hside := List.find?_eq_none.1 h side (by cases side <;> decide)
    exact Option.not_isSome_iff_eq_none.1 hside
  exact Sides.ext_get fun side => (hnone side).trans (by cases side <;> rfl)

theorem primarySide_isSome_iff {l : Location} : l.primarySide.isSome ↔ l ≠ .free := by
  constructor
  · rintro h rfl
    cases h
  · intro h
    by_contra hnone
    exact h (eq_free_of_primarySide (Option.not_isSome_iff_eq_none.1 hnone))

theorem exists_get_of_primarySide {l : Location} {side : Side} (h : l.primarySide = some side) :
    ∃ o, l.get side = some o :=
  Option.isSome_iff_exists.1 (List.find?_some (p := fun side => (l.get side).isSome) h)

section Rational

variable {near far : Option Offset} {n f : Offset} {start span length cell : Rat}

theorem pixels_rat (o : Offset) (cell : Rat) : pixels o cell = .ok (o.min * cell) := rfl

/-! ## One axis -/

theorem placeOnAxis_near : placeOnAxis (some n) none start span length cell =
    .ok (start + n.min * cell, length) := by
  by_cases hn : n.min = 0
  · simp [placeOnAxis, hn, pure, Except.pure]
  · simp [placeOnAxis, hn, pixels_rat, pure, Except.pure]

theorem placeOnAxis_far : placeOnAxis none (some f) start span length cell =
    .ok (start + span - f.min * cell - length, length) := by
  by_cases hf : f.min = 0
  · simp [placeOnAxis, hf, pure, Except.pure]
  · simp [placeOnAxis, hf, pixels_rat, pure, Except.pure]

theorem placeOnAxis_stretched (hn : n.min = 0) (hf : f.min = 0) :
    placeOnAxis (some n) (some f) start span length cell = .ok (start, greater 0 span) := by
  simp [placeOnAxis, hn, hf, pixels_rat, pure, Except.pure]

theorem placeOnAxis_flushNear (hn : n.min = 0) (hf : f.min ≠ 0) :
    placeOnAxis (some n) (some f) start span length cell = .ok (start, length) := by
  simp [placeOnAxis, hn, hf, pure, Except.pure]

theorem placeOnAxis_flushFar (hn : n.min ≠ 0) (hf : f.min = 0) :
    placeOnAxis (some n) (some f) start span length cell =
      .ok (start + span - length, length) := by
  simp [placeOnAxis, hn, hf, pure, Except.pure]

theorem placeOnAxis_between (hn : n.min ≠ 0) (hf : f.min ≠ 0)
    (hfits : length ≤ start + span - f.min * cell - (start + n.min * cell)) :
    placeOnAxis (some n) (some f) start span length cell =
      .ok (start + n.min * cell +
        (start + span - f.min * cell - (start + n.min * cell) - length) / 2, length) := by
  simp only [placeOnAxis, hn, hf, if_false, pixels_rat, ok_bind, two_rat, if_pos hfits]
  rfl

theorem placeOnAxis_crowded (hn : n.min ≠ 0) (hf : f.min ≠ 0)
    (hcrowded : start + span - f.min * cell - (start + n.min * cell) < length) :
    placeOnAxis (some n) (some f) start span length cell =
      .ok (start + n.min * cell, length) := by
  simp only [placeOnAxis, hn, hf, if_false, pixels_rat, ok_bind, if_neg (not_le.2 hcrowded)]
  rfl

/-- The rules along one axis, by the offsets of the near and the far side: where a child stands, and
how long it is. -/
inductive AxisRule (start span length cell : Rat) :
    Option Offset → Option Offset → Rat → Rat → Prop where
  | centred : AxisRule start span length cell none none (start + (span - length) / 2) length
  | near (n : Offset) :
      AxisRule start span length cell (some n) none (start + n.min * cell) length
  | far (f : Offset) :
      AxisRule start span length cell none (some f) (start + span - f.min * cell - length) length
  | stretched {n f : Offset} (hn : n.min = 0) (hf : f.min = 0) :
      AxisRule start span length cell (some n) (some f) start (greater 0 span)
  | flushNear {n f : Offset} (hn : n.min = 0) (hf : f.min ≠ 0) :
      AxisRule start span length cell (some n) (some f) start length
  | flushFar {n f : Offset} (hn : n.min ≠ 0) (hf : f.min = 0) :
      AxisRule start span length cell (some n) (some f) (start + span - length) length
  | between {n f : Offset} (hn : n.min ≠ 0) (hf : f.min ≠ 0)
      (hfits : length ≤ start + span - f.min * cell - (start + n.min * cell)) :
      AxisRule start span length cell (some n) (some f)
        (start + n.min * cell +
          (start + span - f.min * cell - (start + n.min * cell) - length) / 2) length
  | crowded {n f : Offset} (hn : n.min ≠ 0) (hf : f.min ≠ 0)
      (hcrowded : start + span - f.min * cell - (start + n.min * cell) < length) :
      AxisRule start span length cell (some n) (some f) (start + n.min * cell) length

theorem AxisRule.placeOnAxis_eq {position extent : Rat}
    (h : AxisRule start span length cell near far position extent) :
    placeOnAxis near far start span length cell = .ok (position, extent) := by
  cases h with
  | centred => rfl
  | near => exact placeOnAxis_near
  | far => exact placeOnAxis_far
  | stretched hn hf => exact placeOnAxis_stretched hn hf
  | flushNear hn hf => exact placeOnAxis_flushNear hn hf
  | flushFar hn hf => exact placeOnAxis_flushFar hn hf
  | between hn hf hfits => exact placeOnAxis_between hn hf hfits
  | crowded hn hf hcrowded => exact placeOnAxis_crowded hn hf hcrowded

/-- One of the rules always applies. -/
theorem exists_axisRule (near far : Option Offset) (start span length cell : Rat) :
    ∃ position extent, AxisRule start span length cell near far position extent := by
  cases near with
  | none =>
    cases far with
    | none => exact ⟨_, _, .centred⟩
    | some f => exact ⟨_, _, .far f⟩
  | some n =>
    cases far with
    | none => exact ⟨_, _, .near n⟩
    | some f =>
      by_cases hn : n.min = 0 <;> by_cases hf : f.min = 0
      · exact ⟨_, _, .stretched hn hf⟩
      · exact ⟨_, _, .flushNear hn hf⟩
      · exact ⟨_, _, .flushFar hn hf⟩
      · rcases le_or_gt length (start + span - f.min * cell - (start + n.min * cell)) with h | h
        · exact ⟨_, _, .between hn hf h⟩
        · exact ⟨_, _, .crowded hn hf h⟩

/-- Rational coordinates place every child along an axis. -/
theorem exists_placeOnAxis (near far : Option Offset) (start span length cell : Rat) :
    ∃ a, placeOnAxis near far start span length cell = .ok a := by
  obtain ⟨position, extent, hrule⟩ := exists_axisRule near far start span length cell
  exact ⟨(position, extent), hrule.placeOnAxis_eq⟩

/-- Along one axis, a child keeps the distances that its offsets ask for: from the only constrained
side exactly the least one; from two sides that are not pinned at least the least one of the near
side and, unless it stands exactly there, of the far side as well. -/
structure KeepsDistances (near far : Option Offset) (start span cell position extent : Rat) :
    Prop where
  nearAlone : ∀ n, near = some n → far = none → position - start = n.min * cell
  farAlone : ∀ f, near = none → far = some f → start + span - (position + extent) = f.min * cell
  between : ∀ n f, near = some n → far = some f → n.min ≠ 0 → f.min ≠ 0 →
    n.min * cell ≤ position - start ∧
      (position - start = n.min * cell ∨ f.min * cell ≤ start + span - (position + extent))

namespace AxisRule

variable {position extent : Rat}

theorem keepsDistances (h : AxisRule start span length cell near far position extent) :
    KeepsDistances near far start span cell position extent := by
  cases h with
  | centred => exact ⟨nofun, nofun, nofun⟩
  | near n =>
    refine ⟨?_, nofun, nofun⟩
    rintro _ ⟨⟩ -
    linarith
  | far f =>
    refine ⟨nofun, ?_, nofun⟩
    rintro _ - ⟨⟩
    linarith
  | stretched hn | flushNear hn =>
    refine ⟨nofun, nofun, ?_⟩
    rintro _ _ ⟨⟩ - hn' -
    exact absurd hn hn'
  | flushFar _ hf =>
    refine ⟨nofun, nofun, ?_⟩
    rintro _ _ - ⟨⟩ - hf'
    exact absurd hf hf'
  | between _ _ hfits =>
    refine ⟨nofun, nofun, ?_⟩
    rintro _ _ ⟨⟩ ⟨⟩ - -
    exact ⟨by linarith, .inr (by linarith)⟩
  | crowded =>
    refine ⟨nofun, nofun, ?_⟩
    rintro _ _ ⟨⟩ ⟨⟩ - -
    exact ⟨by linarith, .inl (by linarith)⟩

/-- A child that fits into its parent behind each of its offsets is inside its parent right away. -/
theorem clamp_of_fits (h : AxisRule start span length cell near far position extent)
    (hlength : length ≤ span)
    (hnear : ∀ o, near = some o → 0 ≤ o.min * cell ∧ o.min * cell ≤ span - length)
    (hfar : ∀ o, far = some o → 0 ≤ o.min * cell ∧ o.min * cell ≤ span - length) :
    clamp position start (start + span - extent) = position := by
  cases h with
  | centred => exact clamp_of_le (by linarith) (.inl (by linarith))
  | near n =>
    obtain ⟨hbefore, hroom⟩ := hnear n rfl
    exact clamp_of_le (by linarith) (.inl (by linarith))
  | far f =>
    obtain ⟨hbehind, hroom⟩ := hfar f rfl
    exact clamp_of_le (by linarith) (.inl (by linarith))
  | stretched | flushNear => exact clamp_of_le (le_refl _) (.inr rfl)
  | flushFar => exact clamp_of_le (by linarith) (.inl (le_refl _))
  | @between n f _ _ hfits =>
    obtain ⟨hbefore, -⟩ := hnear n rfl
    obtain ⟨hbehind, -⟩ := hfar f rfl
    exact clamp_of_le (by linarith) (.inl (by linarith))
  | @crowded n _ _ _ _ =>
    obtain ⟨hbefore, hroom⟩ := hnear n rfl
    exact clamp_of_le (by linarith) (.inl (by linarith))

end AxisRule

/-! ## Inside the parent -/

theorem result_placeBox_inner_free (parent : Rect Rat) (child : Size Rat) (cell : Rat)
    (surface : Option (Size Rat)) (choice : Choice Rat) :
    (placeBox (some .free) parent child .inner (some cell) surface choice).result =
      .ok ⟨parent.x + (parent.width - child.width) / 2,
        parent.y + (parent.height - child.height) / 2, child.width, child.height⟩ := by
  rw [result_placeBox_inner]
  rfl

/-- The box of a child inside its parent, by where the rules of the axes put it. -/
theorem result_placeBox_inner_of_ne_free {l : Location} (h : l ≠ .free) {parent start : Rect Rat}
    {child : Size Rat} {cell : Rat}
    (hx : placeOnAxis l.left l.right parent.x parent.width child.width cell =
      .ok (start.x, start.width))
    (hy : placeOnAxis l.top l.bottom parent.y parent.height child.height cell =
      .ok (start.y, start.height))
    (surface : Option (Size Rat)) (choice : Choice Rat) :
    (placeBox (some l) parent child .inner (some cell) surface choice).result =
      .ok (start.movedInside parent) := by
  rw [result_placeBox_inner, if_pos (primarySide_isSome_iff.2 h)]
  exact placeInside_eq_ok_iff.2 ⟨_, _, _, _, hx, hy, rfl⟩

/-- A child that is not larger than its parent stands where its two axes say, inside the parent. -/
theorem result_placeBox_of_axes {l : Location} (parent : Rect Rat) (child : Size Rat) {cell : Rat}
    (hwidth : child.width ≤ parent.width) (hheight : child.height ≤ parent.height) {a b : Rat × Rat}
    (hx : placeOnAxis l.left l.right parent.x parent.width child.width cell = .ok a)
    (hy : placeOnAxis l.top l.bottom parent.y parent.height child.height cell = .ok b)
    (surface : Option (Size Rat)) (choice : Choice Rat) :
    (placeBox (some l) parent child .inner (some cell) surface choice).result =
      .ok (Rect.movedInside ⟨a.1, b.1, a.2, b.2⟩ parent) := by
  by_cases hfree : l = .free
  · subst hfree
    -- the rule of an axis without offsets is what centres a box
    rw [result_placeBox_inner_free]
    obtain rfl := Except.ok.inj hx
    obtain rfl := Except.ok.inj hy
    have hinside : ∀ start span length : Rat, length ≤ span →
        clamp (start + (span - length) / 2) start (start + span - length) =
          start + (span - length) / 2 := by
      intro start span length hle
      exact clamp_of_le (by linarith) (.inl (by linarith))
    have hmoved := hinside parent.x parent.width child.width hwidth
    have hmoved' := hinside parent.y parent.height child.height hheight
    unfold Rect.movedInside Rect.placedAt Rect.right Rect.bottom
    dsimp only [two_rat]
    rw [hmoved, hmoved']
  · exact result_placeBox_inner_of_ne_free hfree hx hy surface choice

/-- A box inside its parent has the position and the length of its axes, keeps their distances, and
is not changed by moving it into the parent. -/
structure Fitted (l : Location) (parent : Rect Rat) (child : Size Rat) (cell : Rat)
    (box : Rect Rat) : Prop where
  x : placeOnAxis l.left l.right parent.x parent.width child.width cell = .ok (box.x, box.width)
  y : placeOnAxis l.top l.bottom parent.y parent.height child.height cell = .ok (box.y, box.height)
  keepsX : KeepsDistances l.left l.right parent.x parent.width cell box.x box.width
  keepsY : KeepsDistances l.top l.bottom parent.y parent.height cell box.y box.height
  inside : box.movedInside parent = box

/-- A child that fits into its parent behind each of its offsets gets a fitted box. -/
theorem fitted_of_placeBox {l : Location} {parent box : Rect Rat} {child : Size Rat}
    {surface : Option (Size Rat)} {choice : Choice Rat}
    (h : (placeBox (some l) parent child .inner (some cell) surface choice).result = .ok box)
    (hwidth : child.width ≤ parent.width) (hheight : child.height ≤ parent.height)
    (hx : ∀ side, side = .left ∨ side = .right → ∀ o, l.get side = some o →
      0 ≤ o.min * cell ∧ o.min * cell ≤ parent.width - child.width)
    (hy : ∀ side, side = .top ∨ side = .bottom → ∀ o, l.get side = some o →
      0 ≤ o.min * cell ∧ o.min * cell ≤ parent.height - child.height) :
    Fitted l parent child cell box := by
  obtain ⟨x, width, hrulex⟩ :=
    exists_axisRule l.left l.right parent.x parent.width child.width cell
  obtain ⟨y, height, hruley⟩ :=
    exists_axisRule l.top l.bottom parent.y parent.height child.height cell
  have hplacex := hrulex.placeOnAxis_eq
  have hplacey := hruley.placeOnAxis_eq
  have hinside : Rect.movedInside ⟨x, y, width, height⟩ parent = ⟨x, y, width, height⟩ := by
    unfold Rect.movedInside Rect.placedAt Rect.right Rect.bottom
    rw [hrulex.clamp_of_fits hwidth (hx .left (.inl rfl)) (hx .right (.inr rfl)),
      hruley.clamp_of_fits hheight (hy .top (.inl rfl)) (hy .bottom (.inr rfl))]
  obtain rfl : box = ⟨x, y, width, height⟩ := by
    rw [result_placeBox_of_axes parent child hwidth hheight hplacex hplacey] at h
    exact (Except.ok.inj h).symm.trans hinside
  exact ⟨hplacex, hplacey, hrulex.keepsDistances, hruley.keepsDistances, hinside⟩

/-! ## Beside the parent -/

/-- A child beside its parent starts beyond its primary side, as far as the offset there says. -/
theorem exitDistance_of_placeBeside {l : Location} {parent box : Rect Rat} {child : Size Rat}
    {side : Side} (h : (placeBeside l parent child cell side).result = .ok box) :
    box.exitDistance parent side = -(((l.get side).getD .zero).min * cell) := by
  simp only [placeBeside, pixels_rat, Logged.result_bind, Logged.result_ofExcept, ok_bind] at h
  cases side with
  | left | right | top | bottom =>
    simp only [Logged.result_bind, except_bind_ok, Logged.result_pure] at h
    obtain ⟨_, -, h⟩ := h
    obtain rfl := Except.ok.inj h
    simp only [Rect.exitDistance, Rect.right, Rect.bottom]
    linarith

end Rational

end LayoutGrammar.Layout
