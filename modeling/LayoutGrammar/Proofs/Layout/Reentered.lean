import LayoutGrammar.Proofs.Edit.Undone
import LayoutGrammar.Proofs.Layout.Measured

/-!
# Entering a displayed token again

A constrained side displays the token of its offset, and entering that token sets the offset again.
A free side displays the token of an offset that starts at zero, and entering it pins the side
(`result_setToken_displayed`). Then the layout changes for any size of the cells: along its axis, a
box that had room on that side is flush with it or stretches (`AxisChanges`), whatever the other
axis does. `setToken_displayed` puts this together: entering what is displayed changes nothing
exactly where the side is constrained.
-/

namespace LayoutGrammar

open Scalar

namespace Layout

/-! ## An axis with another offset -/

/-- Along an axis with a parent of a given length at the origin, a child of length one gets another
place or another length by other offsets. -/
def AxisChanges (near far near' far' : Option Offset) (span cell : Rat) : Prop :=
  ∃ a a', placeOnAxis near far 0 span 1 cell = .ok a ∧
    placeOnAxis near' far' 0 span 1 cell = .ok a' ∧
    (clamp a.1 0 (0 + span - a.2), a.2) ≠ (clamp a'.1 0 (0 + span - a'.2), a'.2)

section

variable {near far near' far' : Option Offset} {span cell v v' : Rat}

theorem AxisChanges.of_pulled (h : placeOnAxis near far 0 span 1 cell = .ok (v, 1))
    (h' : placeOnAxis near' far' 0 span 1 cell = .ok (0, 1)) (hv : 0 < v) (hspan : 1 < span) :
    AxisChanges near far near' far' span cell := by
  refine ⟨_, _, h, h', fun heq => ?_⟩
  have hsame := (Prod.mk.inj heq).1
  rw [clamp_eq, clamp_eq, min_eq_left (by linarith : (0 : Rat) ≤ 0 + span - 1), max_self] at hsame
  exact (lt_max_of_lt_right (lt_min hv (by linarith))).ne' hsame

theorem AxisChanges.of_pushed (h : placeOnAxis near far 0 span 1 cell = .ok (v, 1))
    (h' : placeOnAxis near' far' 0 span 1 cell = .ok (span - 1, 1)) (hv : v < span - 1)
    (hspan : 1 < span) : AxisChanges near far near' far' span cell := by
  refine ⟨_, _, h, h', fun heq => ?_⟩
  have hsame := (Prod.mk.inj heq).1
  have hpushed : clamp (span - 1) 0 (0 + span - 1) = span - 1 :=
    clamp_of_le (by linarith) (.inl (by linarith))
  rw [hpushed, clamp_eq] at hsame
  exact (max_lt (by linarith) (min_lt_of_left_lt hv)).ne hsame

theorem AxisChanges.of_stretched (h : placeOnAxis near far 0 span 1 cell = .ok (v, 1))
    (h' : placeOnAxis near' far' 0 span 1 cell = .ok (v', greater 0 span)) (hspan : 1 < span) :
    AxisChanges near far near' far' span cell := by
  refine ⟨_, _, h, h', fun heq => ?_⟩
  have hsame : 1 = greater 0 span := (Prod.mk.inj heq).2
  rw [greater, if_pos (by linarith)] at hsame
  exact hspan.ne hsame

end

/-- The length of a parent with enough room beside a child of length one. -/
def roomy (o : Option Offset) (cell : Rat) : Rat := 3 + |(o.elim 0 Offset.min : Int) * cell|

theorem three_le_roomy (o : Option Offset) (cell : Rat) : 3 ≤ roomy o cell :=
  le_add_of_nonneg_right (abs_nonneg _)

theorem le_roomy (o : Offset) (cell : Rat) : o.min * cell + 3 ≤ roomy (some o) cell := by
  have hle := le_abs_self (o.min * cell : Rat)
  rw [roomy, Option.elim_some]
  linarith

theorem axisChanges_near (far : Option Offset) (cell : Rat) :
    AxisChanges none far (some (.atLeast 0)) far (roomy far cell) cell := by
  have hroomy := three_le_roomy far cell
  cases far with
  | none =>
    refine .of_pulled rfl ?_ ?_ (by linarith)
    · rw [placeOnAxis_near]
      simp [Offset.atLeast]
    · rw [two_rat]
      linarith
  | some f =>
    by_cases hf : f.min = 0
    · exact .of_stretched placeOnAxis_far (placeOnAxis_stretched rfl hf) (by linarith)
    · have hle := le_roomy f cell
      exact .of_pulled placeOnAxis_far (placeOnAxis_flushNear rfl hf) (by linarith) (by linarith)

theorem axisChanges_far (near : Option Offset) (cell : Rat) :
    AxisChanges near none near (some (.atLeast 0)) (roomy near cell) cell := by
  have hroomy := three_le_roomy near cell
  cases near with
  | none =>
    refine .of_pushed rfl ?_ ?_ (by linarith)
    · rw [placeOnAxis_far]
      simp [Offset.atLeast]
    · rw [two_rat]
      linarith
  | some n =>
    by_cases hn : n.min = 0
    · exact .of_stretched placeOnAxis_near (placeOnAxis_stretched hn rfl) (by linarith)
    · have hle := le_roomy n cell
      refine .of_pushed placeOnAxis_near ?_ (by linarith) (by linarith)
      rw [placeOnAxis_flushFar hn rfl, zero_add]

/-! ## Boxes by another location -/

section

variable {l l' : Location} {span cell : Rat}

theorem exists_box_of_axisChanges_x
    (h : AxisChanges l.left l.right l'.left l'.right span cell) (hspan : 1 ≤ span)
    (surface : Option (Size Rat)) (choice : Choice Rat) : ∃ parent child,
      (placeBox (some l') parent child .inner (some cell) surface choice).result ≠
        (placeBox (some l) parent child .inner (some cell) surface choice).result := by
  obtain ⟨a, a', hx, hx', hne⟩ := h
  obtain ⟨b, hy⟩ := exists_placeOnAxis l.top l.bottom 0 1 1 cell
  obtain ⟨b', hy'⟩ := exists_placeOnAxis l'.top l'.bottom 0 1 1 cell
  let parent : Rect Rat := ⟨0, 0, span, 1⟩
  have hbox := result_placeBox_of_axes parent ⟨1, 1⟩ hspan (le_refl _) hx hy
    surface choice
  have hbox' := result_placeBox_of_axes parent ⟨1, 1⟩ hspan (le_refl _) hx'
    hy' surface choice
  refine ⟨parent, ⟨1, 1⟩, fun heq => hne ?_⟩
  obtain ⟨hplace, -, hlength, -⟩ := Rect.mk.inj (Except.ok.inj (hbox'.symm.trans (heq.trans hbox)))
  exact Prod.ext hplace.symm hlength.symm

theorem exists_box_of_axisChanges_y
    (h : AxisChanges l.top l.bottom l'.top l'.bottom span cell) (hspan : 1 ≤ span)
    (surface : Option (Size Rat)) (choice : Choice Rat) : ∃ parent child,
      (placeBox (some l') parent child .inner (some cell) surface choice).result ≠
        (placeBox (some l) parent child .inner (some cell) surface choice).result := by
  obtain ⟨a, a', hy, hy', hne⟩ := h
  obtain ⟨b, hx⟩ := exists_placeOnAxis l.left l.right 0 1 1 cell
  obtain ⟨b', hx'⟩ := exists_placeOnAxis l'.left l'.right 0 1 1 cell
  let parent : Rect Rat := ⟨0, 0, 1, span⟩
  have hbox := result_placeBox_of_axes parent ⟨1, 1⟩ (le_refl _) hspan hx hy
    surface choice
  have hbox' := result_placeBox_of_axes parent ⟨1, 1⟩ (le_refl _) hspan hx'
    hy' surface choice
  refine ⟨parent, ⟨1, 1⟩, fun heq => hne ?_⟩
  obtain ⟨-, hplace, -, hlength⟩ := Rect.mk.inj (Except.ok.inj (hbox'.symm.trans (heq.trans hbox)))
  exact Prod.ext hplace.symm hlength.symm

/-- Pinning a free side changes some box. -/
theorem exists_box_of_pinned {side : Side} (h : l.get side = none) (cell : Rat)
    (surface : Option (Size Rat)) (choice : Choice Rat) : ∃ parent child,
      (placeBox (some (l.set side (some (.atLeast 0)))) parent child .inner (some cell) surface
          choice).result ≠
        (placeBox (some l) parent child .inner (some cell) surface choice).result := by
  have hspan : ∀ o, 1 ≤ roomy o cell := fun o => by linarith [three_le_roomy o cell]
  obtain ⟨top, right, bottom, left⟩ := l
  cases side with
  | top =>
    obtain rfl : top = none := h
    exact exists_box_of_axisChanges_y (axisChanges_near bottom cell) (hspan bottom) surface choice
  | right =>
    obtain rfl : right = none := h
    exact exists_box_of_axisChanges_x (axisChanges_far left cell) (hspan left) surface choice
  | bottom =>
    obtain rfl : bottom = none := h
    exact exists_box_of_axisChanges_y (axisChanges_far top cell) (hspan top) surface choice
  | left =>
    obtain rfl : left = none := h
    exact exists_box_of_axisChanges_x (axisChanges_near right cell) (hspan right) surface choice

end

end Layout

/-! ## Displayed tokens -/

theorem Offset.text_atLeast_zero : (atLeast 0).text = "0+" := by decide +kernel

namespace Location

variable {l : Location} {key : String} {side : Side} {strict : Bool}

/-- The offset whose token a side displays. -/
def shownOffset (l : Location) (side : Side) : Offset := (l.get side).getD (.atLeast 0)

theorem text_shownOffset (l : Location) (side : Side) :
    (l.shownOffset side).text = l.displayed side := by
  rw [shownOffset, displayed]
  cases l.get side with
  | none => exact Offset.text_atLeast_zero
  | some o => rfl

/-- Entering what is displayed sets the offset whose token it is. -/
theorem result_setToken_displayed (h : ∀ side o, l.get side = some o → o.WellFormed)
    (hkey : (readSideKey? key).map (·.2) = some side) (strict : Bool) :
    (l.setToken key (some (l.displayed side)) strict).result =
      .ok (l.set side (some (l.shownOffset side))) := by
  have hformed : (l.shownOffset side).WellFormed := by
    rw [shownOffset]
    cases hside : l.get side with
    | none => decide
    | some o => exact h side o hside
  rw [← text_shownOffset]
  exact result_setToken_of_wellFormed hkey hformed strict

/-- **Entering a displayed token again changes nothing exactly where the side is constrained.** A
free side gets pinned, and for any size of the cells some child gets another box inside some
parent. -/
theorem setToken_displayed (h : ∀ side o, l.get side = some o → o.WellFormed)
    (hkey : (readSideKey? key).map (·.2) = some side) (strict : Bool) :
    ∃ l', (l.setToken key (some (l.displayed side)) strict).result = .ok l' ∧
      (l' = l ↔ (l.get side).isSome) ∧
      (Pins.ofLocation l' = Pins.ofLocation l ↔ (l.get side).isSome) ∧
      ∀ (cell : Rat) surface choice,
        (∀ parent child,
          (Layout.placeBox (some l') parent child .inner (some cell) surface choice).result =
            (Layout.placeBox (some l) parent child .inner (some cell) surface choice).result) ↔
          (l.get side).isSome := by
  refine ⟨_, result_setToken_displayed h hkey strict, ?_⟩
  cases hside : l.get side with
  | some o =>
    have hsame : l.set side (some (l.shownOffset side)) = l := by
      rw [shownOffset, hside, Option.getD_some, ← hside, Sides.set_get]
    rw [hsame]
    exact ⟨iff_of_true rfl rfl, iff_of_true rfl rfl, fun _ _ _ => iff_of_true (fun _ _ => rfl) rfl⟩
  | none =>
    have hshown : l.shownOffset side = .atLeast 0 := by rw [shownOffset, hside, Option.getD_none]
    have hpins : Pins.ofLocation (l.set side (some (.atLeast 0))) ≠ Pins.ofLocation l := by
      intro heq
      have hpinned := congrArg (Sides.get · side) heq
      simp [hside, Offset.atLeast] at hpinned
    have hfree : ¬ (none : Option Offset).isSome := Bool.false_ne_true
    rw [hshown]
    refine ⟨iff_of_false (fun heq => hpins (congrArg _ heq)) hfree, iff_of_false hpins hfree,
      fun cell surface choice => iff_of_false (fun hsame => ?_) hfree⟩
    obtain ⟨parent, child, hne⟩ := Layout.exists_box_of_pinned hside cell surface choice
    exact hne (hsame parent child)

theorem setToken_displayed_free :
    (∀ side o, free.get side = some o → o.WellFormed) ∧
      (readSideKey? " Margin-Top").map (·.2) = some .top ∧
      ∃ l', (free.setToken " Margin-Top" (some (free.displayed .top)) true).result = .ok l' ∧
        l' ≠ free ∧ Pins.ofLocation l' ≠ Pins.ofLocation free := by
  have hformed : ∀ side o, free.get side = some o → o.WellFormed := by
    intro side o ho
    cases side <;> cases ho
  have hkey : (readSideKey? " Margin-Top").map (·.2) = some .top := rfl
  obtain ⟨l', hresult, hsame, hpins, -⟩ := setToken_displayed hformed hkey true
  exact ⟨hformed, hkey, l', hresult, mt hsame.1 Bool.false_ne_true, mt hpins.1 Bool.false_ne_true⟩

end Location

end LayoutGrammar
