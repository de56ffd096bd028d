import LayoutGrammar.Proofs.Layout.Axis

/-!
# Boxes of transposed and of moved parents

The rules along an axis know nothing of which axis it is, and they see the place of the parent only
as where the axis starts (`AxisRule.add`); the same holds of the move into the parent
(`Scalar.clamp_add`). So a child in a transposed parent gets the transposed box, and a child in a
parent that stands elsewhere gets its box there (`placeBox_inner_symmetric`).
-/

namespace LayoutGrammar

/-! ## Transposed and moved boxes -/

/-- The horizontal and the vertical sides exchanged. -/
def Sides.transpose {α : Type} (s : Sides α) : Sides α where
  top := s.left
  right := s.bottom
  bottom := s.right
  left := s.top

/-- Width and height exchanged. -/
def Size.transpose {α : Type} (s : Size α) : Size α := ⟨s.height, s.width⟩

/-- The horizontal and the vertical axis exchanged. -/
def Rect.transpose {α : Type} (r : Rect α) : Rect α := ⟨r.y, r.x, r.height, r.width⟩

theorem Rect.movedInside_transpose (r area : Rect Rat) :
    r.transpose.movedInside area.transpose = (r.movedInside area).transpose := rfl

theorem Rect.movedInside_translated (r area : Rect Rat) (dx dy : Rat) :
    (r.translated dx dy).movedInside (area.translated dx dy) =
      (r.movedInside area).translated dx dy := by
  have hx : area.x + dx + area.width - r.width = area.right - r.width + dx := by
    rw [right]
    linarith
  have hy : area.y + dy + area.height - r.height = area.bottom - r.height + dy := by
    rw [bottom]
    linarith
  change Rect.mk (Scalar.clamp (r.x + dx) (area.x + dx) (area.x + dx + area.width - r.width))
    (Scalar.clamp (r.y + dy) (area.y + dy) (area.y + dy + area.height - r.height)) _ _ = _
  rw [hx, hy, Scalar.clamp_add, Scalar.clamp_add]
  rfl

namespace Layout

/-! ## One axis -/

/-- Along an axis that starts elsewhere the same rule puts a child elsewhere by as much. -/
theorem AxisRule.add {near far : Option Offset} {start span length cell position extent : Rat}
    (h : AxisRule start span length cell near far position extent) (d : Rat) :
    AxisRule (start + d) span length cell near far (position + d) extent := by
  -- whether a child fits between two offsets depends on their distance only
  have hband : ∀ n f : Offset, start + span - f.min * cell - (start + n.min * cell) =
      start + d + span - f.min * cell - (start + d + n.min * cell) := by
    intro n f
    linarith
  cases h with
  | centred =>
    rw [add_right_comm]
    exact .centred
  | near n =>
    rw [add_right_comm]
    exact .near n
  | far f =>
    have hmoved : start + span - f.min * cell - length + d =
        start + d + span - f.min * cell - length := by linarith
    rw [hmoved]
    exact .far f
  | stretched hn hf => exact .stretched hn hf
  | flushNear hn hf => exact .flushNear hn hf
  | flushFar hn hf =>
    have hmoved : start + span - length + d = start + d + span - length := by linarith
    rw [hmoved]
    exact .flushFar hn hf
  | @between n f hn hf hfits =>
    rw [hband] at hfits ⊢
    rw [add_right_comm, add_right_comm start]
    exact .between hn hf hfits
  | @crowded n f hn hf hcrowded =>
    rw [hband] at hcrowded
    rw [add_right_comm]
    exact .crowded hn hf hcrowded

/-! ## Boxes -/

/-- A child of a transposed or a moved parent. -/
theorem exists_box_symmetric (l : Location) (parent : Rect Rat) (child : Size Rat) (cell : Rat)
    (surface : Option (Size Rat)) (choice : Choice Rat) :
    ∃ box, (placeBox (some l) parent child .inner (some cell) surface choice).result = .ok box ∧
      (placeBox (some l.transpose) parent.transpose child.transpose .inner (some cell) surface
        choice).result = .ok box.transpose ∧
      ∀ dx dy, (placeBox (some l) (parent.translated dx dy) child .inner (some cell) surface
        choice).result = .ok (box.translated dx dy) := by
  by_cases hfree : l = .free
  · subst hfree
    refine ⟨_, result_placeBox_inner_free parent child cell surface choice,
      result_placeBox_inner_free parent.transpose child.transpose cell surface choice,
      fun dx dy => ?_⟩
    rw [result_placeBox_inner_free]
    exact congrArg Except.ok
      (congrArg₂ (Rect.mk · · _ _) (add_right_comm _ _ _) (add_right_comm _ _ _))
  · have hfree' : l.transpose ≠ Location.free := fun heq => hfree (congrArg Sides.transpose heq)
    obtain ⟨x, width, hx⟩ :=
      exists_axisRule l.left l.right parent.x parent.width child.width cell
    obtain ⟨y, height, hy⟩ :=
      exists_axisRule l.top l.bottom parent.y parent.height child.height cell
    let start : Rect Rat := ⟨x, y, width, height⟩
    refine ⟨start.movedInside parent, ?_, ?_, fun dx dy => ?_⟩
    · exact result_placeBox_inner_of_ne_free hfree hx.placeOnAxis_eq hy.placeOnAxis_eq surface
        choice
    · rw [← Rect.movedInside_transpose]
      refine result_placeBox_inner_of_ne_free hfree' ?_ ?_ surface choice
      · exact hy.placeOnAxis_eq
      · exact hx.placeOnAxis_eq
    · rw [← Rect.movedInside_translated]
      refine result_placeBox_inner_of_ne_free hfree ?_ ?_ surface choice
      · exact (hx.add dx).placeOnAxis_eq
      · exact (hy.add dy).placeOnAxis_eq

/-- **Boxes inside their parents follow them.** A child of a transposed parent, with the location
and the size transposed too, gets the transposed box, and moving the parent moves the box as far. -/
theorem placeBox_inner_symmetric (location : Option Location) (parent : Rect Rat)
    (child : Size Rat) (cell : Option Rat) (surface : Option (Size Rat)) (choice : Choice Rat) :
    ∃ box, (placeBox location parent child .inner cell surface choice).result = .ok box ∧
      (placeBox (location.map Sides.transpose) parent.transpose child.transpose .inner cell surface
        choice).result = .ok box.transpose ∧
      ∀ dx dy, (placeBox location (parent.translated dx dy) child .inner cell surface
        choice).result = .ok (box.translated dx dy) := by
  have htransposed : (location.map Sides.transpose).getD Location.free =
      (location.getD .free).transpose := by cases location <;> rfl
  obtain ⟨box, hbox, hbox', hmoved⟩ := exists_box_symmetric (location.getD .free) parent child
    (cell.getD choice.settings.gridSize) surface choice
  refine ⟨box, ?_, ?_, fun dx dy => ?_⟩
  · rw [result_placeBox_getD]
    exact hbox
  · rw [result_placeBox_getD, htransposed]
    exact hbox'
  · rw [result_placeBox_getD]
    exact hmoved dx dy

end Layout

end LayoutGrammar
