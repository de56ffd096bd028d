import LayoutGrammar.Proofs.Layout.Axis

/-!
# Boxes inside their parents

Whatever the sides of a location and however large its offsets and the cells, a child that is not
larger than its parent is inside it, and it is flush with the parent on every side that is pinned:
the move into the parent, which comes after the rules of the two axes, takes nothing back. What
holds along one axis is `Seated`, shown for one rule after the other (`AxisRule.seated`), and
`placeBox_inner_seated` says it of both axes of the box.
-/

namespace LayoutGrammar.Layout

open Scalar

/-- An offset pins its side. -/
def IsPinned (o : Option Offset) : Prop := ∃ n, o = some n ∧ n.min = 0

theorem isPinned_some {o : Offset} : IsPinned (some o) ↔ o.min = 0 := by
  constructor
  · rintro ⟨_, ⟨⟩, h⟩
    exact h
  · exact fun h => ⟨o, rfl, h⟩

theorem not_isPinned_none : ¬ IsPinned none := by
  rintro ⟨_, ⟨⟩, -⟩

/-- How a child stands along one axis inside its parent: between the edges of the parent, flush with
those that are pinned, as long as the parent if both are and as long as it is otherwise, and with
one offset that far from its edge or as far as there is room. -/
structure Seated (near far : Option Offset) (start span length cell position extent : Rat) :
    Prop where
  starts : start ≤ position
  ends : position + extent ≤ start + span
  flushNear : IsPinned near → position = start
  flushFar : IsPinned far → position + extent = start + span
  stretched : IsPinned near → IsPinned far → extent = span
  kept : ¬ (IsPinned near ∧ IsPinned far) → extent = length
  nearAlone : ∀ n, near = some n → 0 < n.min → far = none →
    position = min (start + n.min * cell) (start + span - extent)
  farAlone : ∀ f, far = some f → 0 < f.min → near = none →
    position + extent = max (start + span - f.min * cell) (start + extent)

section Axis

variable {n f : Offset} {start span length cell position : Rat}

theorem seated_unpinned {near far : Option Offset} (hnear : ¬ IsPinned near)
    (hfar : ¬ IsPinned far) (hboth : near.isSome = far.isSome) (hlength : length ≤ span) :
    Seated near far start span length cell
      (clamp position start (start + span - length)) length := by
  obtain ⟨hstarts, hends⟩ := clamp_mem (by linarith : start ≤ start + span - length) position
  refine ⟨hstarts, by linarith, fun h => absurd h hnear, fun h => absurd h hfar,
    fun h => absurd h hnear, fun _ => rfl, ?_, ?_⟩
  · rintro n rfl - rfl
    cases hboth
  · rintro f rfl - rfl
    cases hboth

theorem seated_near (hlength : length ≤ span) (hbefore : 0 ≤ n.min * cell) :
    Seated (some n) none start span length cell
      (clamp (start + n.min * cell) start (start + span - length)) length := by
  have hrange : start ≤ start + span - length := by linarith
  rw [clamp_of_low_le (by linarith) hrange]
  refine ⟨le_min (by linarith) hrange, ?_, fun h => ?_, fun h => absurd h not_isPinned_none,
    fun _ h => absurd h not_isPinned_none, fun _ => rfl, ?_, nofun⟩
  · have hle := min_le_right (start + n.min * cell) (start + span - length)
    linarith
  · rw [isPinned_some.1 h, Int.cast_zero, zero_mul, add_zero, min_eq_left hrange]
  · rintro _ ⟨⟩ - -
    rfl

theorem seated_far (hlength : length ≤ span) (hbehind : 0 ≤ f.min * cell) :
    Seated none (some f) start span length cell
      (clamp (start + span - f.min * cell - length) start (start + span - length)) length := by
  have hend : max start (start + span - f.min * cell - length) + length =
      max (start + span - f.min * cell) (start + length) := by
    rw [max_comm, ← max_add_add_right, sub_add_cancel]
  rw [clamp_of_le_high (by linarith)]
  refine ⟨le_max_left _ _, ?_, fun h => absurd h not_isPinned_none, fun h => ?_,
    fun h => absurd h not_isPinned_none, fun _ => rfl, nofun, ?_⟩
  · rw [hend]
    exact max_le (by linarith) (by linarith)
  · rw [hend, isPinned_some.1 h, Int.cast_zero, zero_mul, sub_zero]
    exact max_eq_left (by linarith)
  · rintro _ ⟨⟩ - -
    exact hend

theorem seated_stretched (hn : n.min = 0) (hf : f.min = 0) (hspan : 0 ≤ span) :
    Seated (some n) (some f) start span length cell
      (clamp start start (start + span - greater 0 span)) (greater 0 span) := by
  have hextent : greater 0 span = span := by
    unfold greater
    split
    · rfl
    · next h => exact le_antisymm hspan (not_lt.1 h)
  rw [hextent, clamp_of_le (le_refl _) (.inr rfl)]
  exact ⟨le_refl _, le_refl _, fun _ => rfl, fun _ => rfl, fun _ _ => rfl,
    fun h => absurd ⟨isPinned_some.2 hn, isPinned_some.2 hf⟩ h, nofun, nofun⟩

theorem seated_flushNear (hf : f.min ≠ 0) (hlength : length ≤ span) :
    Seated (some n) (some f) start span length cell
      (clamp start start (start + span - length)) length := by
  have hfree : ¬ IsPinned (some f) := mt isPinned_some.1 hf
  rw [clamp_of_le (le_refl _) (.inr rfl)]
  exact ⟨le_refl _, by linarith, fun _ => rfl, fun h => absurd h hfree,
    fun _ h => absurd h hfree, fun _ => rfl, nofun, nofun⟩

theorem seated_flushFar (hn : n.min ≠ 0) (hlength : length ≤ span) :
    Seated (some n) (some f) start span length cell
      (clamp (start + span - length) start (start + span - length)) length := by
  have hfree : ¬ IsPinned (some n) := mt isPinned_some.1 hn
  rw [clamp_of_le (by linarith) (.inl (le_refl _))]
  exact ⟨by linarith, by linarith, fun h => absurd h hfree, fun _ => by linarith,
    fun h => absurd h hfree, fun _ => rfl, nofun, nofun⟩

/-- A child that is not longer than its parent, moved into the parent from where the rule of the
axis puts it. -/
theorem AxisRule.seated {near far : Option Offset} {extent : Rat}
    (h : AxisRule start span length cell near far position extent) (hspan : 0 ≤ span)
    (hlength : length ≤ span) (hnear : ∀ o, near = some o → 0 ≤ o.min * cell)
    (hfar : ∀ o, far = some o → 0 ≤ o.min * cell) :
    Seated near far start span length cell (clamp position start (start + span - extent))
      extent := by
  cases h with
  | centred => exact seated_unpinned not_isPinned_none not_isPinned_none rfl hlength
  | near n => exact seated_near hlength (hnear n rfl)
  | far f => exact seated_far hlength (hfar f rfl)
  | stretched hn hf => exact seated_stretched hn hf hspan
  | flushNear _ hf => exact seated_flushNear hf hlength
  | flushFar hn _ => exact seated_flushFar hn hlength
  | between hn hf | crowded hn hf =>
    exact seated_unpinned (mt isPinned_some.1 hn) (mt isPinned_some.1 hf) rfl hlength

end Axis

/-- **A child that is not larger than its parent is inside it and flush with its pinned sides.**
This holds for every location, also a missing one, and however large the offsets and the cells
are. -/
theorem placeBox_inner_seated (location : Option Location) (parent : Rect Rat) (child : Size Rat)
    (cell : Option Rat) (surface : Option (Size Rat)) (choice : Choice Rat)
    (hmin : ∀ side o, (location.getD .free).get side = some o → 0 ≤ o.min)
    (hcell : 0 ≤ cell.getD choice.settings.gridSize)
    (hparent : 0 ≤ parent.width ∧ 0 ≤ parent.height)
    (hchild : child.width ≤ parent.width ∧ child.height ≤ parent.height) :
    let l := location.getD .free
    let cellSize := cell.getD choice.settings.gridSize
    ∃ box, (placeBox location parent child .inner cell surface choice).result = .ok box ∧
      parent.Contains box ∧
      Seated l.left l.right parent.x parent.width child.width cellSize box.x box.width ∧
      Seated l.top l.bottom parent.y parent.height child.height cellSize box.y box.height := by
  intro l cellSize
  have hdistance : ∀ side o, l.get side = some o → 0 ≤ (o.min : Rat) * cellSize :=
    fun side o ho => mul_nonneg (Int.cast_nonneg (hmin side o ho)) hcell
  obtain ⟨x, width, hx⟩ := exists_axisRule l.left l.right parent.x parent.width child.width cellSize
  obtain ⟨y, height, hy⟩ :=
    exists_axisRule l.top l.bottom parent.y parent.height child.height cellSize
  have hseatedx := hx.seated hparent.1 hchild.1 (hdistance .left) (hdistance .right)
  have hseatedy := hy.seated hparent.2 hchild.2 (hdistance .top) (hdistance .bottom)
  refine ⟨Rect.movedInside ⟨x, y, width, height⟩ parent, ?_, ?_, hseatedx, hseatedy⟩
  · rw [result_placeBox_getD]
    exact result_placeBox_of_axes parent child hchild.1 hchild.2 hx.placeOnAxis_eq
      hy.placeOnAxis_eq surface choice
  · exact ⟨hseatedx.starts, hseatedy.starts, hseatedx.ends, hseatedy.ends⟩

/-- Pinned on the left and the right, and three cells below the upper side. -/
def acrossBelow : Location := ⟨some (.exactly 3), some .zero, none, some .zero⟩

/-- The offset is larger than the parent is high. -/
theorem placeBox_inner_seated_acrossBelow :
    (∀ side o, acrossBelow.get side = some o → 0 ≤ o.min) ∧
      (placeBox (some acrossBelow) ⟨10, 20, 200, 100⟩ ⟨50, 40⟩ .inner (some (50 : Rat)) none
        (.given .standard)).result = .ok ⟨10, 80, 200, 40⟩ := by
  have hmin : ∀ side o, acrossBelow.get side = some o → 0 ≤ o.min := by
    intro side o ho
    cases side <;> cases ho <;> decide
  obtain ⟨⟨x, y, width, height⟩, hbox, -, hx, hy⟩ := placeBox_inner_seated (some acrossBelow)
    ⟨10, 20, 200, 100⟩ ⟨50, 40⟩ (some 50) none (.given .standard) hmin (by decide +kernel)
    ⟨by decide +kernel, by decide +kernel⟩ ⟨by decide +kernel, by decide +kernel⟩
  have hpinned : IsPinned (some .zero) := isPinned_some.2 rfl
  obtain rfl : x = 10 := hx.flushNear hpinned
  obtain rfl : width = 200 := hx.stretched hpinned hpinned
  obtain rfl : height = 40 := hy.kept fun h => not_isPinned_none h.2
  have hplace : y = min ((20 : Rat) + (3 : Int) * 50) (20 + 100 - 40) :=
    hy.nearAlone (.exactly 3) rfl (by decide) rfl
  obtain rfl : y = 80 := hplace.trans (by decide +kernel)
  exact ⟨hmin, hbox⟩

end LayoutGrammar.Layout
