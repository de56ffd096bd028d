import LayoutGrammar.Layout.Spread
import LayoutGrammar.Proofs.Geometry.Band
import Mathlib.Algebra.BigOperators.Group.List.Basic
import Mathlib.Data.List.Chain
import Mathlib.Tactic.Positivity
import Mathlib.Tactic.Ring

/-!
# Boxes in a line

The order in which lengths are added up has no part in it with rational coordinates
(`pairwiseSum_rat`). Then positions follow one another (`positions_cons`): each is one gap behind
the end of the box before it, and the first one a gap behind the start. Everything about a line of
boxes is an induction along that: the gaps are the same (`evenlySpaced_lineUp`), no two boxes
overlap (`pairwise_lineUp`), and the last one ends behind all gaps and all boxes (`end_lineUp`).
-/

namespace LayoutGrammar

section Along

variable {α : Type}

/-- The extent of a size along a side. -/
def Size.along (s : Size α) (side : Side) : α := if side.isHorizontal then s.height else s.width

namespace Rect

/-- The coordinate of a box along a side. -/
def along (r : Rect α) (side : Side) : α := if side.isHorizontal then r.y else r.x

/-- The coordinate of a box across a side. -/
def across (r : Rect α) (side : Side) : α := if side.isHorizontal then r.x else r.y

/-- Where a box ends along a side. -/
def alongEnd [Add α] (r : Rect α) (side : Side) : α := r.along side + r.size.along side

/-- A box moved along a side. -/
def placedAlong (r : Rect α) (side : Side) (position : α) : Rect α :=
  if side.isHorizontal then r.placedAt r.x position else r.placedAt position r.y

@[simp] theorem size_placedAlong (r : Rect α) (side : Side) (position : α) :
    (r.placedAlong side position).size = r.size := by cases side <;> rfl

@[simp] theorem along_placedAlong (r : Rect α) (side : Side) (position : α) :
    (r.placedAlong side position).along side = position := by cases side <;> rfl

@[simp] theorem across_placedAlong (r : Rect α) (side : Side) (position : α) :
    (r.placedAlong side position).across side = r.across side := by cases side <;> rfl

theorem collides_of_alongEnd {a b : Rect Rat} {side : Side} (h : a.alongEnd side ≤ b.along side) :
    a.collides b = false := by
  have habove : ∀ side, 0 ≤ a.distance b side → a.collides b = false :=
    fun _ => collides_of_distance
  cases side with
  | left | right => exact habove .top (sub_nonneg.2 h)
  | top | bottom => exact habove .left (sub_nonneg.2 h)

end Rect

end Along

namespace Layout

open Scalar

/-! ## Sums -/

theorem runningSum_rat (start : Rat) (xs : List Rat) : runningSum start xs = start + xs.sum := by
  induction xs generalizing start with
  | nil => exact (add_zero start).symm
  | cons x rest ih =>
    change runningSum (start + x) rest = _
    rw [ih, List.sum_cons, add_assoc]

/-- Adding blocks to the interleaved sums loses nothing. -/
theorem sum_addBlocks (sums : List Rat) (h : sums.length = 8) (xs : List Rat) :
    (addBlocks sums xs).1.sum + (addBlocks sums xs).2.sum = sums.sum + xs.sum := by
  fun_induction addBlocks sums xs with
  | case1 sums x₁ x₂ x₃ x₄ x₅ x₆ x₇ x₈ rest ih =>
    have hblock := List.sum_add_sum_eq_sum_zipWith_of_length_eq sums
      [x₁, x₂, x₃, x₄, x₅, x₆, x₇, x₈] h
    rw [ih (by simp [h]), ← hblock]
    simp only [List.sum_cons, List.sum_nil]
    ring
  | case2 sums rest => rfl

theorem blockSum_rat (xs : List Rat) : blockSum xs = xs.sum := by
  unfold blockSum
  split
  · next x₁ x₂ x₃ x₄ x₅ x₆ x₇ x₈ rest =>
    have hblocks := sum_addBlocks [x₁, x₂, x₃, x₄, x₅, x₆, x₇, x₈] rfl rest
    split
    · next heq =>
      rw [heq] at hblocks
      simp only [List.sum_cons, List.sum_nil] at hblocks ⊢
      rw [runningSum_rat]
      linarith
    · next heq =>
      rw [heq] at hblocks
      simp only [List.sum_cons, List.sum_nil] at hblocks ⊢
      rw [runningSum_rat, runningSum_rat, zero_rat]
      linarith
  · rw [runningSum_rat, zero_rat, zero_add]

theorem pairwiseSum_rat (xs : List Rat) : pairwiseSum xs = xs.sum := by
  fun_induction pairwiseSum xs with
  | case1 xs h => exact blockSum_rat xs
  | case2 xs h half ihfirst ihrest =>
    rw [ihfirst, ihrest, ← List.sum_append, List.take_append_drop]

/-! ## Positions -/

section Length

variable {α : Type} [Scalar α]

theorem length_sumsFrom (sum : α) (xs : List α) : (sumsFrom sum xs).length = xs.length + 1 := by
  induction xs generalizing sum with
  | nil => rfl
  | cons x rest ih => rw [sumsFrom, List.length_cons, ih, List.length_cons]

theorem length_positions (start spacing : α) (sizes : List α) :
    (positions start spacing sizes).length = sizes.length := by
  rw [positions, List.length_map, List.length_zipIdx]
  cases sizes with
  | nil => rfl
  | cons size rest =>
    rw [takenBefore, List.length_cons, List.length_dropLast, length_sumsFrom]
    rfl

end Length

theorem dropLast_sumsFrom (sum : Rat) (xs : List Rat) :
    (sumsFrom sum xs).dropLast = (takenBefore xs).map (sum + ·) := by
  induction xs generalizing sum with
  | nil => rfl
  | cons x rest ih =>
    have hne : sumsFrom (sum + x) rest ≠ [] := by cases rest <;> exact List.cons_ne_nil _ _
    rw [sumsFrom, List.dropLast_cons_of_ne_nil hne, ih, takenBefore, ih, List.map_cons,
      List.map_map, zero_rat, add_zero]
    congr 1
    exact List.map_congr_left fun y _ => add_assoc sum x y

/-- **Positions follow one another**: behind the first box the line starts anew. -/
theorem positions_cons (start spacing size : Rat) (rest : List Rat) :
    positions start spacing (size :: rest) =
      (start + spacing) :: positions (start + spacing + size) spacing rest := by
  rw [positions, takenBefore, dropLast_sumsFrom, List.zipIdx_cons, List.map_cons]
  congr 1
  · simp
  · rw [positions, List.zipIdx_succ, List.zipIdx_map, List.map_map, List.map_map]
    refine List.map_congr_left fun e _ => ?_
    simp only [Function.comp_apply, Prod.map, ofNat_rat, id_eq]
    push_cast
    ring

/-! ## Lines of boxes -/

/-- Boxes one after the other along a side, a gap before each of them. -/
def lineUp {α : Type} [Scalar α] (side : Side) (start spacing : α) (boxes : List (Rect α)) :
    List (Rect α) :=
  boxes.zipWith (Rect.placedAlong · side) (positions start spacing (boxes.map (·.size.along side)))

/-- In a line boxes are moved along the side, and nothing else. -/
theorem forall₂_lineUp {α : Type} [Scalar α] (side : Side) (start spacing : α)
    (boxes : List (Rect α)) :
    List.Forall₂ (fun box moved => ∃ position, moved = box.placedAlong side position) boxes
      (lineUp side start spacing boxes) := by
  have hlength := length_positions start spacing (boxes.map (·.size.along side))
  rw [List.length_map] at hlength
  unfold lineUp
  generalize positions start spacing _ = ps at hlength ⊢
  induction boxes generalizing ps with
  | nil => exact .nil
  | cons box rest ih =>
    cases ps with
    | nil => cases hlength
    | cons p ps => exact .cons ⟨p, rfl⟩ (ih ps (Nat.succ.inj hlength))

/-- The gap that boxes take in a line: what they leave of the span, divided evenly, but at least the
smallest one. -/
def evenGap (parent : Rect Rat) (side : Side) (minSpacing : Rat) (boxes : List (Rect Rat)) : Rat :=
  max minSpacing ((parent.size.along side - (boxes.map (·.size.along side)).sum) /
    (boxes.length + 1))

/-- The same gap between the start of a line and the first box, and between any two neighbours. -/
structure EvenlySpaced (side : Side) (start spacing : Rat) (boxes : List (Rect Rat)) : Prop where
  first : ∀ box ∈ boxes.head?, box.along side - start = spacing
  next : boxes.IsChain fun a b => b.along side - a.alongEnd side = spacing

variable {side : Side} {start spacing minSpacing : Rat} {boxes : List (Rect Rat)}
variable {parent : Rect Rat}

theorem gap_boxes (parent : Rect Rat) (side : Side) (minSpacing : Rat) (boxes : List (Rect Rat)) :
    gap (boxes.map (·.size.along side)) (parent.size.along side) minSpacing =
      evenGap parent side minSpacing boxes := by
  rw [gap, total, pairwiseSum_rat, greater_rat, zero_rat, zero_add, List.length_map, ofNat_rat,
    Nat.cast_succ]
  rfl

theorem lineUp_cons (side : Side) (start spacing : Rat) (box : Rect Rat) (rest : List (Rect Rat)) :
    lineUp side start spacing (box :: rest) =
      box.placedAlong side (start + spacing) ::
        lineUp side ((box.placedAlong side (start + spacing)).alongEnd side) spacing rest := by
  rw [Rect.alongEnd, Rect.along_placedAlong, Rect.size_placedAlong, lineUp, List.map_cons,
    positions_cons]
  rfl

/-- The gaps of a line are the same. -/
theorem evenlySpaced_lineUp (side : Side) (start spacing : Rat) (boxes : List (Rect Rat)) :
    EvenlySpaced side start spacing (lineUp side start spacing boxes) := by
  induction boxes generalizing start with
  | nil => exact ⟨nofun, .nil⟩
  | cons box rest ih =>
    rw [lineUp_cons]
    have hrest := ih ((box.placedAlong side (start + spacing)).alongEnd side)
    refine ⟨fun first hfirst => ?_, List.isChain_cons.2 ⟨hrest.first, hrest.next⟩⟩
    rw [← Option.some.inj hfirst, Rect.along_placedAlong, add_sub_cancel_left]

/-- A line goes ahead if its gap and its boxes do. -/
theorem le_along_lineUp (hspacing : 0 ≤ spacing) (hsizes : ∀ box ∈ boxes, 0 ≤ box.size.along side) :
    ∀ box ∈ lineUp side start spacing boxes, start + spacing ≤ box.along side := by
  induction boxes generalizing start with
  | nil => exact nofun
  | cons first rest ih =>
    obtain ⟨hfirst, hrest⟩ := List.forall_mem_cons.1 hsizes
    rw [lineUp_cons, List.forall_mem_cons]
    refine ⟨(Rect.along_placedAlong _ _ _).ge, fun box hbox => ?_⟩
    have hahead := ih hrest box hbox
    rw [Rect.alongEnd, Rect.along_placedAlong, Rect.size_placedAlong] at hahead
    linarith

/-- No two boxes of a line overlap. -/
theorem pairwise_lineUp (hspacing : 0 ≤ spacing) (hsizes : ∀ box ∈ boxes, 0 ≤ box.size.along side) :
    (lineUp side start spacing boxes).Pairwise fun a b => a.collides b = false := by
  induction boxes generalizing start with
  | nil => exact .nil
  | cons first rest ih =>
    have hrest := (List.forall_mem_cons.1 hsizes).2
    rw [lineUp_cons]
    refine List.pairwise_cons.2 ⟨fun box hbox => ?_, ih hrest⟩
    have hahead := le_along_lineUp hspacing hrest box hbox
    exact Rect.collides_of_alongEnd (by linarith)

/-- The last box of a line ends behind all gaps and all boxes. -/
theorem end_lineUp : ∀ last ∈ (lineUp side start spacing boxes).getLast?, last.alongEnd side =
    start + boxes.length * spacing + (boxes.map (·.size.along side)).sum := by
  induction boxes generalizing start with
  | nil => exact nofun
  | cons first rest ih =>
    intro last hlast
    rw [lineUp_cons] at hlast
    rw [List.length_cons, List.map_cons, List.sum_cons, Nat.cast_succ]
    cases rest with
    | nil =>
      obtain rfl : first.placedAlong side (start + spacing) = last := Option.some.inj hlast
      rw [Rect.alongEnd, Rect.along_placedAlong, Rect.size_placedAlong]
      simp only [List.length_nil, List.map_nil, List.sum_nil, Nat.cast_zero]
      ring
    | cons second rest =>
      rw [lineUp_cons, List.getLast?_cons_cons, ← lineUp_cons] at hlast
      rw [ih last hlast, Rect.alongEnd, Rect.along_placedAlong, Rect.size_placedAlong]
      ring

/-- If the smallest gaps fit, the last box of a line ends a gap before the end of the parent. -/
theorem end_lineUp_evenGap
    (hfits : (boxes.map (·.size.along side)).sum + (boxes.length + 1) * minSpacing ≤
      parent.size.along side) :
    ∀ last ∈ (lineUp side (parent.along side) (evenGap parent side minSpacing boxes)
        boxes).getLast?,
      parent.alongEnd side - last.alongEnd side = evenGap parent side minSpacing boxes := by
  intro last hlast
  have hcount : (0 : Rat) < boxes.length + 1 := by positivity
  have heven : evenGap parent side minSpacing boxes =
      (parent.size.along side - (boxes.map (·.size.along side)).sum) / (boxes.length + 1) := by
    refine max_eq_right ((le_div_iff₀ hcount).2 ?_)
    linarith
  have hall : evenGap parent side minSpacing boxes * (boxes.length + 1) =
      parent.size.along side - (boxes.map (·.size.along side)).sum := by
    rw [heven, div_mul_cancel₀ _ hcount.ne']
  rw [end_lineUp last hlast, Rect.alongEnd]
  linarith

end Layout

end LayoutGrammar
