import LayoutGrammar.Layout.Cell
import LayoutGrammar.Proofs.Constraint.Location
import LayoutGrammar.Proofs.Logged
import Mathlib.Tactic.Linarith

/-!
# Cells that every offset fits into

The extents can be computed if all that is needed fits a machine word (`failsUnless_extents`). They
are upper bounds of what every location needs at every side (`cells_le_extents`), and the size of
the cells is a function of them alone (`result_fitCell`). With rational coordinates and a fitting
cell that is not below the least one, as many cells as an axis has capacity for take up no more than
its room (`scaledCell_mul_capacity_le`), so every offset leaves enough of the parent's span for a
child that is no larger than the room kept for it (`offset_fits`).
-/

namespace LayoutGrammar.Layout

open Scalar

/-! ## Extents -/

theorem get_maxSides (s t : Sides Int) (side : Side) :
    (maxSides s t).get side = max (s.get side) (t.get side) := by cases side <;> rfl

theorem get_le_foldl_maxSides {row : Sides Int} {rows : List (Sides Int)} {r : Sides Int}
    (hr : r ∈ row :: rows) (side : Side) : r.get side ≤ (rows.foldl maxSides row).get side := by
  induction rows generalizing row r with
  | nil => rw [List.mem_singleton.1 hr, List.foldl_nil]
  | cons next rest ih =>
    rw [List.foldl_cons]
    have hboth : ∀ r', r' = row ∨ r' = next → r'.get side ≤ (maxSides row next).get side := by
      rintro r' (rfl | rfl) <;> rw [get_maxSides]
      · exact le_max_left _ _
      · exact le_max_right _ _
    rcases List.mem_cons.1 hr with rfl | hr
    · exact (hboth r (.inl rfl)).trans (ih List.mem_cons_self)
    · rcases List.mem_cons.1 hr with rfl | hr
      · exact (hboth r (.inr rfl)).trans (ih List.mem_cons_self)
      · exact ih (List.mem_cons_of_mem _ hr)

variable {locations : List Location} {headroom : Int} {e : Sides Int}

theorem neededCells_le_extents (h : extents locations headroom = .ok e) {l : Location}
    (hl : l ∈ locations) (side : Side) : (neededCells headroom l).get side ≤ e.get side := by
  have hrow : neededCells headroom l ∈ locations.map (neededCells headroom) :=
    List.mem_map_of_mem hl
  unfold extents at h
  split at h
  · next hrows =>
    rw [hrows] at hrow
    cases hrow
  · next row rows hrows =>
    rw [hrows] at hrow
    split at h
    · obtain rfl := Except.ok.inj h
      exact get_le_foldl_maxSides hrow side
    · cases h

/-- An offset needs no less than it starts with. -/
theorem min_le_cells {o : Offset} (h : o.Ordered) (hheadroom : 0 ≤ headroom) :
    o.min ≤ o.cells headroom := by
  cases hmax : o.max with
  | none =>
    rw [Offset.cells_of_open hmax]
    omega
  | some m =>
    rw [Offset.cells_of_max hmax]
    exact h m hmax

/-- No offset needs more cells than the extent at its side counts. -/
theorem cells_le_extents (h : extents locations headroom = .ok e) {l : Location}
    (hl : l ∈ locations) {side : Side} {o : Offset} (ho : l.get side = some o) :
    o.cells headroom ≤ e.get side := by
  have hneeded := neededCells_le_extents h hl side
  rw [neededCells, Sides.get_map, ho] at hneeded
  exact hneeded

/-- No offset starts beyond the capacity of its axis. -/
theorem min_le_capacities (h : extents locations headroom = .ok e) (hheadroom : 0 ≤ headroom)
    {l : Location} (hl : l ∈ locations) {side : Side} {o : Offset} (ho : l.get side = some o)
    (hformed : o.WellFormed) :
    (side = .left ∨ side = .right → o.min ≤ (capacities e).1) ∧
      (side = .top ∨ side = .bottom → o.min ≤ (capacities e).2) := by
  have hextent : o.min ≤ e.get side :=
    (min_le_cells hformed.2 hheadroom).trans (cells_le_extents h hl ho)
  refine ⟨?_, ?_⟩ <;> rintro (rfl | rfl)
  · exact hextent.trans (le_max_left _ _)
  · exact hextent.trans (le_max_right _ _)
  · exact hextent.trans (le_max_left _ _)
  · exact hextent.trans (le_max_right _ _)

theorem isWord_iff {n : Int} : isWord n = true ↔ -2 ^ 63 ≤ n ∧ n < 2 ^ 63 := by
  have hword : (Decimal.twoTo 63 : Int) = 2 ^ 63 := rfl
  rw [isWord, hword, Bool.and_eq_true, decide_eq_true_eq, decide_eq_true_eq]

theorem isWord_of_lt {n : Int} (hlow : 0 ≤ n) (hhigh : n < 2 ^ 63) : isWord n = true :=
  isWord_iff.2 ⟨by omega, hhigh⟩

/-- All cells that the locations need fit a machine word. -/
def InWords (locations : List Location) (headroom : Int) : Prop :=
  ∀ l ∈ locations, ∀ side o, l.get side = some o → isWord (o.cells headroom) = true

theorem all_isWord_neededCells_iff {l : Location} :
    ((neededCells headroom l).toList.all fun e => isWord e.2) = true ↔
      ∀ side o, l.get side = some o → isWord (o.cells headroom) = true := by
  simp only [Sides.toList, List.all_map, List.all_eq_true, Function.comp_apply, neededCells,
    Sides.get_map]
  constructor
  · intro h side o ho
    have hside := h side side.mem_all
    rw [ho] at hside
    exact hside
  · intro h side _
    cases ho : l.get side with
    | none => exact (by decide : isWord 0 = true)
    | some o => exact h side o ho

/-- Extents can be computed exactly if all that is needed fits a machine word. -/
theorem failsUnless_extents (locations : List Location) (headroom : Int) :
    FailsUnless .extentTooLarge (InWords locations headroom) (extents locations headroom) := by
  have hall : ((locations.map (neededCells headroom)).all fun s =>
      s.toList.all fun e => isWord e.2) = true ↔ InWords locations headroom := by
    rw [List.all_map, List.all_eq_true]
    exact forall₂_congr fun l _ => all_isWord_neededCells_iff
  unfold extents
  split
  · next hrows =>
    rw [hrows] at hall
    exact .of_ok rfl (hall.1 rfl)
  · next row rows hrows =>
    rw [hrows] at hall
    exact ⟨fun h => ⟨_, if_pos (hall.2 h)⟩, fun h => if_neg fun h' => h (hall.1 h')⟩

/-- What measuring relies on: offsets as tokens give them, an open one does not need less than it
starts with, and nothing needs more cells than a machine word counts. -/
structure Formed (locations : List Location) (headroom : Int) : Prop where
  wellFormed : ∀ l ∈ locations, ∀ side o, l.get side = some o → o.WellFormed
  word : ∀ l ∈ locations, ∀ side o, l.get side = some o → o.cells headroom < 2 ^ 63
  headroom : 0 ≤ headroom

namespace Formed

theorem cells_nonneg (h : Formed locations headroom) {l : Location} (hl : l ∈ locations)
    {side : Side} {o : Offset} (ho : l.get side = some o) : 0 ≤ o.cells headroom := by
  have hformed := h.wellFormed l hl side o ho
  exact hformed.1.trans (min_le_cells hformed.2 h.headroom)

theorem exists_extents (h : Formed locations headroom) :
    ∃ e, extents locations headroom = .ok e := by
  refine (failsUnless_extents _ _).ok fun l hl side o ho => ?_
  exact isWord_of_lt (h.cells_nonneg hl ho) (h.word l hl side o ho)

end Formed

/-! ## Cells -/

section Scaling

variable {α : Type} [Scalar α]

/-- The size of the cells by what is needed at each side. -/
def scaledCell (s : Settings α) (available : Size α) (e : Sides Int) : α :=
  (fittingCell? (capacities e) available s.iconSize).elim s.gridSize (limitCell s)

theorem result_fitCell (locations : List Location) (available : Size α) (choice : Choice α) :
    (fitCell locations available choice).result =
      (extents locations choice.settings.headroom).map (scaledCell choice.settings available) := by
  simp only [fitCell, measureExtents, result_traced, Logged.result_bind, Logged.result_ofExcept]
  cases extents locations choice.settings.headroom with
  | error cause => rfl
  | ok e =>
    simp only [ok_bind, Except.map, scaledCell]
    cases fittingCell? (capacities e) available choice.settings.iconSize <;> rfl

theorem result_fitPatternCell (p : Pattern) (available : Size α) (choice : Choice α) :
    (fitPatternCell p available choice).result =
      (extents p.locations choice.settings.headroom).map
        (scaledCell choice.settings available) :=
  result_fitCell p.locations available choice

theorem failsUnless_fitPatternCell (p : Pattern) (available : Size α) (choice : Choice α) :
    FailsUnless .extentTooLarge (InWords p.locations choice.settings.headroom)
      (fitPatternCell p available choice).result := by
  rw [result_fitPatternCell]
  exact (failsUnless_extents _ _).map _

end Scaling

theorem strictLesser_rat (a b : Rat) : strictLesser a b = min a b := by
  unfold strictLesser
  rcases lt_or_ge a b with h | h
  · rw [if_pos h, min_eq_left (le_of_lt h)]
  · rw [if_neg (not_lt.2 h), if_pos h, min_eq_right h]

theorem strictGreater_rat (a b : Rat) : strictGreater a b = max a b := by
  unfold strictGreater
  rcases lt_or_ge b a with h | h
  · rw [if_pos h, max_eq_left (le_of_lt h)]
  · rw [if_neg (not_lt.2 h), if_pos h, max_eq_right h]

variable {s : Settings Rat} {available : Size Rat}

theorem room_eq (length icon : Rat) : room length icon = max 0 (length - icon) := by
  rw [room, strictGreater_rat, zero_rat, max_comm]

/-- An axis bounds a cell by its quotient if the cells it has capacity for are within its room. -/
theorem le_axisCell_iff {c length icon : Rat} {capacity : Int} :
    (∀ q, axisCell? capacity length icon = some q → c ≤ q) ↔
      (0 < capacity → c * capacity ≤ room length icon) := by
  unfold axisCell?
  by_cases hcapacity : 0 < capacity
  · have hpos : (0 : Rat) < capacity := by exact_mod_cast hcapacity
    rw [if_pos hcapacity]
    constructor
    · intro h _
      exact (le_div_iff₀ hpos).1 (h _ rfl)
    · intro h q hq
      rw [← Option.some.inj hq]
      exact (le_div_iff₀ hpos).2 (h hcapacity)
  · rw [if_neg hcapacity]
    exact ⟨fun _ h => absurd h hcapacity, fun _ q hq => nomatch hq⟩

/-- The fitting cell bounds a cell if both axes do. -/
theorem le_fittingCell_iff {c icon : Rat} {capacity : Int × Int} :
    (∀ q, fittingCell? capacity available icon = some q → c ≤ q) ↔
      (0 < capacity.1 → c * capacity.1 ≤ room available.width icon) ∧
        (0 < capacity.2 → c * capacity.2 ≤ room available.height icon) := by
  rw [← le_axisCell_iff, ← le_axisCell_iff]
  unfold fittingCell?
  cases axisCell? capacity.1 available.width icon with
  | none => cases axisCell? capacity.2 available.height icon <;> simp
  | some a =>
    cases axisCell? capacity.2 available.height icon with
    | none => simp
    | some b => simp [strictLesser_rat]

theorem limitCell_rat (s : Settings Rat) (q : Rat) :
    limitCell s q = min s.gridSize (max s.minCell q) := by
  rw [limitCell, strictLesser_rat, strictGreater_rat]

/-- The fitting cell, if there is one, is not below the least cell. -/
def NotRaised (s : Settings Rat) (available : Size Rat) (e : Sides Int) : Prop :=
  ∀ q, fittingCell? (capacities e) available s.iconSize = some q → s.minCell ≤ q

theorem scaledCell_nonneg (hgrid : 0 ≤ s.gridSize) (hmin : 0 ≤ s.minCell) :
    0 ≤ scaledCell s available e := by
  unfold scaledCell
  cases fittingCell? (capacities e) available s.iconSize with
  | none => exact hgrid
  | some q =>
    change 0 ≤ limitCell s q
    rw [limitCell_rat]
    exact le_min hgrid (hmin.trans (le_max_left _ _))

theorem scaledCell_le {q : Rat} (h : NotRaised s available e)
    (hq : fittingCell? (capacities e) available s.iconSize = some q) :
    scaledCell s available e ≤ q := by
  unfold scaledCell
  rw [hq]
  change limitCell s q ≤ q
  rw [limitCell_rat, max_eq_right (h q hq)]
  exact min_le_right _ _

/-- The cells that an axis has capacity for take up no more than its room. -/
theorem scaledCell_mul_capacity_le (h : NotRaised s available e) :
    (0 < (capacities e).1 → scaledCell s available e * (capacities e).1 ≤
        room available.width s.iconSize) ∧
      (0 < (capacities e).2 → scaledCell s available e * (capacities e).2 ≤
        room available.height s.iconSize) :=
  le_fittingCell_iff.1 fun _ hq => scaledCell_le h hq

/-- An offset within the capacity of an axis leaves room for a child that is no larger than the room
kept for it. -/
theorem offset_fits {cell icon length span : Rat} {capacity min : Int} (hcell : 0 ≤ cell)
    (hroom : 0 < capacity → cell * capacity ≤ room span icon) (hicon : length ≤ icon)
    (hspan : length ≤ span) (hmin : 0 ≤ min) (hle : min ≤ capacity) :
    0 ≤ (min : Rat) * cell ∧ min * cell ≤ span - length := by
  have hmin' : (0 : Rat) ≤ min := by exact_mod_cast hmin
  have hle' : (min : Rat) ≤ capacity := by exact_mod_cast hle
  refine ⟨mul_nonneg hmin' hcell, ?_⟩
  rcases lt_or_ge 0 capacity with hcapacity | hcapacity
  · have hkept : room span icon ≤ span - length := by
      rw [room_eq]
      exact max_le (by linarith) (by linarith)
    calc (min : Rat) * cell ≤ capacity * cell := mul_le_mul_of_nonneg_right hle' hcell
      _ = cell * capacity := mul_comm _ _
      _ ≤ room span icon := hroom hcapacity
      _ ≤ span - length := hkept
  · have hnone : min = 0 := le_antisymm (hle.trans hcapacity) hmin
    rw [hnone, Int.cast_zero, zero_mul]
    linarith

end LayoutGrammar.Layout
