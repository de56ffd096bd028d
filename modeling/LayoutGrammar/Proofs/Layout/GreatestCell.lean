import LayoutGrammar.Proofs.Geometry.Band
import LayoutGrammar.Proofs.Layout.Cell
import Mathlib.Order.Bounds.Basic

/-!
# The greatest admissible cell

A cell is admissible if it is within the limits of the settings and leaves every offset its room
(`Admissible`). An extent above zero is what some location needs at that side (`exists_needed`), so
the quotients of room and capacity bound exactly the cells that leave every offset its room
(`leavesRoom_iff`). The limits of the settings then cut off what is not admissible, and the cell is
the greatest admissible one, or the least cell of the settings if none is (`fitCell_isGreatest`).
-/

namespace LayoutGrammar.Layout

open Scalar

variable {locations : List Location} {available : Size Rat} {s : Settings Rat}
variable {e : Sides Int} {headroom : Int} {c : Rat}

/-- With cells of size `c`, every offset fits beside the room kept for the child. -/
def LeavesRoom (locations : List Location) (available : Size Rat) (s : Settings Rat) (c : Rat) :
    Prop :=
  ∀ l ∈ locations, ∀ side o, l.get side = some o →
    c * o.cells s.headroom ≤ max 0 (available.across side - s.iconSize)

/-- The cells within the limits of the settings that leave every offset its room. -/
def Admissible (locations : List Location) (available : Size Rat) (s : Settings Rat) : Set Rat :=
  {c | s.minCell ≤ c ∧ c ≤ s.gridSize ∧ LeavesRoom locations available s c}

/-! ## Extents are needed by some location -/

theorem exists_get_foldl_maxSides (row : Sides Int) (rows : List (Sides Int)) (side : Side) :
    ∃ r ∈ row :: rows, (rows.foldl maxSides row).get side = r.get side := by
  induction rows generalizing row with
  | nil => exact ⟨row, List.mem_cons_self, rfl⟩
  | cons next rest ih =>
    obtain ⟨r, hr, heq⟩ := ih (maxSides row next)
    rw [List.foldl_cons, heq]
    rcases List.mem_cons.1 hr with rfl | hr
    · rw [get_maxSides]
      rcases max_choice (row.get side) (next.get side) with h | h
      · exact ⟨row, List.mem_cons_self, h⟩
      · exact ⟨next, List.mem_cons_of_mem _ List.mem_cons_self, h⟩
    · exact ⟨r, List.mem_cons_of_mem _ (List.mem_cons_of_mem _ hr), rfl⟩

/-- What is needed at a side above nothing is needed by a location that is present there. -/
theorem exists_needed (h : extents locations headroom = .ok e) {side : Side}
    (hpos : 0 < e.get side) :
    ∃ l ∈ locations, ∃ o, l.get side = some o ∧ o.cells headroom = e.get side := by
  unfold extents at h
  split at h
  · obtain rfl := Except.ok.inj h
    cases side <;> cases hpos
  · next row rows hrows =>
    split at h
    · obtain rfl := Except.ok.inj h
      obtain ⟨r, hr, heq⟩ := exists_get_foldl_maxSides row rows side
      rw [← hrows] at hr
      obtain ⟨l, hl, rfl⟩ := List.mem_map.1 hr
      rw [heq, neededCells, Sides.get_map] at hpos ⊢
      cases ho : l.get side with
      | none =>
        rw [ho] at hpos
        cases hpos
      | some o => exact ⟨l, hl, o, ho, rfl⟩
    · cases h

/-! ## Cells that leave every offset its room -/

/-- Cells with room for some number of them also have room for fewer. -/
theorem mul_le_of_le {length : Rat} {m n : Int} (hlength : 0 ≤ length)
    (h : 0 < n → c * n ≤ length) (hm : 0 ≤ m) (hmn : m ≤ n) : c * m ≤ length := by
  have hm' : (0 : Rat) ≤ m := by exact_mod_cast hm
  -- the least cell may be negative, and then nothing bounds it
  rcases lt_or_ge c 0 with hc | hc
  · exact (mul_nonpos_of_nonpos_of_nonneg (le_of_lt hc) hm').trans hlength
  rcases hm.eq_or_lt with rfl | hpos
  · rw [Int.cast_zero, mul_zero]
    exact hlength
  · have hmn' : (m : Rat) ≤ n := by exact_mod_cast hmn
    exact (mul_le_mul_of_nonneg_left hmn' hc).trans (h (hpos.trans_le hmn))

theorem mul_max_le_iff {length : Rat} {m n : Int} (hlength : 0 ≤ length) :
    (0 < max m n → c * (max m n : Int) ≤ length) ↔
      (0 < m → c * m ≤ length) ∧ (0 < n → c * n ≤ length) := by
  constructor
  · intro h
    exact ⟨fun hm => mul_le_of_le hlength h hm.le (le_max_left m n),
      fun hn => mul_le_of_le hlength h hn.le (le_max_right m n)⟩
  · rintro ⟨hm, hn⟩ hpos
    rcases max_choice m n with heq | heq
    · rw [heq] at hpos ⊢
      exact hm hpos
    · rw [heq] at hpos ⊢
      exact hn hpos

/-- The fitting cell bounds a cell if every side has room for its extent. -/
theorem le_fittingCell_capacities_iff {icon : Rat} :
    (∀ q, fittingCell? (capacities e) available icon = some q → c ≤ q) ↔
      ∀ side, 0 < e.get side → c * e.get side ≤ max 0 (available.across side - icon) := by
  rw [le_fittingCell_iff, room_eq, room_eq, capacities, mul_max_le_iff (le_max_left _ _),
    mul_max_le_iff (le_max_left _ _)]
  constructor
  · rintro ⟨⟨hleft, hright⟩, htop, hbottom⟩ side
    cases side with
    | top => exact htop
    | right => exact hright
    | bottom => exact hbottom
    | left => exact hleft
  · intro h
    exact ⟨⟨h .left, h .right⟩, h .top, h .bottom⟩

theorem leavesRoom_iff (hformed : Formed locations s.headroom)
    (he : extents locations s.headroom = .ok e) :
    LeavesRoom locations available s c ↔
      ∀ q, fittingCell? (capacities e) available s.iconSize = some q → c ≤ q := by
  rw [le_fittingCell_capacities_iff]
  constructor
  · intro h side hpos
    obtain ⟨l, hl, o, ho, heq⟩ := exists_needed he hpos
    rw [← heq]
    exact h l hl side o ho
  · intro h l hl side o ho
    exact mul_le_of_le (le_max_left _ _) (h side) (hformed.cells_nonneg hl ho)
      (cells_le_extents he hl ho)

/-! ## The limits of the settings -/

/-- The limits cut off exactly the cells that are not within them or above the fitting one. -/
theorem isGreatest_scaledCell (hlimits : s.minCell ≤ s.gridSize)
    (hraised : NotRaised s available e) : IsGreatest {c | s.minCell ≤ c ∧ c ≤ s.gridSize ∧
      ∀ q, fittingCell? (capacities e) available s.iconSize = some q → c ≤ q}
      (scaledCell s available e) := by
  have hle : ∀ q, fittingCell? (capacities e) available s.iconSize = some q →
      scaledCell s available e ≤ q := fun q hq => scaledCell_le hraised hq
  unfold scaledCell at hle ⊢
  cases hfitting : fittingCell? (capacities e) available s.iconSize with
  | none => exact ⟨⟨hlimits, le_refl _, nofun⟩, fun c hc => hc.2.1⟩
  | some q =>
    rw [hfitting] at hle
    rw [Option.elim_some] at hle ⊢
    rw [limitCell_rat] at hle ⊢
    refine ⟨⟨le_min hlimits (le_max_left _ _), min_le_left _ _, hle⟩, ?_⟩
    rintro c ⟨-, hgrid, hfits⟩
    exact le_min hgrid ((hfits q rfl).trans (le_max_right _ _))

/-- A fitting cell below the least one is raised to it. -/
theorem scaledCell_of_raised (hlimits : s.minCell ≤ s.gridSize)
    (h : ¬ NotRaised s available e) : scaledCell s available e = s.minCell := by
  obtain ⟨q, hq, hlt⟩ : ∃ q, fittingCell? (capacities e) available s.iconSize = some q ∧
      q < s.minCell := by simpa [NotRaised] using h
  unfold scaledCell
  rw [hq, Option.elim_some, limitCell_rat, max_eq_left hlt.le, min_eq_right hlimits]

/-- The cell of the settings for a set of admissible cells: the greatest of them, and if there is
none the least cell that the settings permit. -/
structure IsCell (s : Settings Rat) (admissible : Set Rat) (cell : Rat) : Prop where
  greatest : admissible.Nonempty → IsGreatest admissible cell
  least : admissible = ∅ → cell = s.minCell

theorem isCell_scaledCell (hlimits : s.minCell ≤ s.gridSize)
    (hformed : Formed locations s.headroom) (he : extents locations s.headroom = .ok e) :
    IsCell s (Admissible locations available s) (scaledCell s available e) := by
  have hset : Admissible locations available s = {c | s.minCell ≤ c ∧ c ≤ s.gridSize ∧
      ∀ q, fittingCell? (capacities e) available s.iconSize = some q → c ≤ q} :=
    Set.ext fun c => and_congr_right' (and_congr_right' (leavesRoom_iff hformed he))
  rw [hset]
  by_cases hraised : NotRaised s available e
  · have hgreatest := isGreatest_scaledCell hlimits hraised
    exact ⟨fun _ => hgreatest, fun hempty => absurd hgreatest.1 (hempty ▸ Set.notMem_empty _)⟩
  · -- what has to be raised to the least cell leaves no cell admissible
    refine ⟨?_, fun _ => scaledCell_of_raised hlimits hraised⟩
    rintro ⟨c, hmin, -, hfits⟩
    exact absurd (fun q hq => hmin.trans (hfits q hq)) hraised

namespace IsCell

variable {admissible fewer : Set Rat} {cell cell' : Rat}

theorem unique (h : IsCell s admissible cell) (h' : IsCell s admissible cell') : cell = cell' := by
  rcases admissible.eq_empty_or_nonempty with hempty | hne
  · rw [h.least hempty, h'.least hempty]
  · exact (h.greatest hne).unique (h'.greatest hne)

/-- Of fewer admissible cells the greatest is no greater. -/
theorem le_of_subset (h : IsCell s admissible cell) (h' : IsCell s fewer cell')
    (hsub : fewer ⊆ admissible) (hmin : ∀ c ∈ admissible, s.minCell ≤ c) : cell' ≤ cell := by
  rcases fewer.eq_empty_or_nonempty with hempty | hne
  · rw [h'.least hempty]
    rcases admissible.eq_empty_or_nonempty with hempty | hne
    · exact (h.least hempty).ge
    · exact hmin _ (h.greatest hne).1
  · exact (h'.greatest hne).mono (h.greatest (hne.mono hsub)) hsub

end IsCell

theorem admissible_anti {more : List Location} (hmore : ∀ l ∈ locations, l ∈ more) :
    Admissible more available s ⊆ Admissible locations available s := by
  rintro c ⟨hmin, hgrid, hroom⟩
  exact ⟨hmin, hgrid, fun l hl => hroom l (hmore l hl)⟩

/-- **The cell is the greatest admissible one.** If none is admissible it is the least cell of the
settings. The order of the locations and their repetitions have no part in it, and a cell for more
locations is not larger. -/
theorem fitCell_isGreatest (locations : List Location) (available : Size Rat) (choice : Choice Rat)
    (hlimits : choice.settings.minCell ≤ choice.settings.gridSize)
    (hformed : Formed locations choice.settings.headroom) :
    ∃ cell, (fitCell locations available choice).result = .ok cell ∧
      ((Admissible locations available choice.settings).Nonempty →
        IsGreatest (Admissible locations available choice.settings) cell) ∧
      (Admissible locations available choice.settings = ∅ → cell = choice.settings.minCell) ∧
      (∀ same : List Location, (∀ l, l ∈ same ↔ l ∈ locations) →
        (fitCell same available choice).result = .ok cell) ∧
      ∀ more : List Location, Formed more choice.settings.headroom →
        (∀ l ∈ locations, l ∈ more) →
        ∃ cell', (fitCell more available choice).result = .ok cell' ∧ cell' ≤ cell := by
  have hcell : ∀ ls : List Location, Formed ls choice.settings.headroom →
      ∃ cell, (fitCell ls available choice).result = .ok cell ∧
        IsCell choice.settings (Admissible ls available choice.settings) cell := by
    intro ls hls
    obtain ⟨e, he⟩ := hls.exists_extents
    refine ⟨scaledCell choice.settings available e, ?_, isCell_scaledCell hlimits hls he⟩
    rw [result_fitCell, he]
    rfl
  obtain ⟨cell, hresult, hiscell⟩ := hcell locations hformed
  refine ⟨cell, hresult, hiscell.greatest, hiscell.least, fun same hsame => ?_,
    fun more hmore hsub => ?_⟩
  · have hformed' : Formed same choice.settings.headroom :=
      ⟨fun l hl => hformed.wellFormed l ((hsame l).1 hl),
        fun l hl => hformed.word l ((hsame l).1 hl), hformed.headroom⟩
    obtain ⟨cell', hresult', hiscell'⟩ := hcell same hformed'
    have hset : Admissible same available choice.settings =
        Admissible locations available choice.settings :=
      (admissible_anti fun l hl => (hsame l).2 hl).antisymm
        (admissible_anti fun l hl => (hsame l).1 hl)
    rw [hresult', hiscell.unique (hset ▸ hiscell')]
  · obtain ⟨cell', hresult', hiscell'⟩ := hcell more hmore
    exact ⟨cell', hresult', hiscell.le_of_subset hiscell' (admissible_anti hsub) fun c hc => hc.1⟩

/-! ## An example -/

/-- One component ten cells from the left, and one at least flush with the top. -/
def twoAxes : List Location :=
  [{ Location.free with left := some (.exactly 10) },
    { Location.free with top := some (.atLeast 0) }]

theorem formed_twoAxes : Formed twoAxes 10 := by
  have hformed : ∀ l ∈ twoAxes, ∀ side ∈ Side.all, ∀ o ∈ l.get side,
      o.WellFormed ∧ o.cells 10 < 2 ^ 63 := by decide
  exact ⟨fun l hl side o ho => (hformed l hl side side.mem_all o ho).1,
    fun l hl side o ho => (hformed l hl side side.mem_all o ho).2, by decide⟩

theorem fitCell_isGreatest_twoAxes :
    (Settings.standard : Settings Rat).minCell ≤ (Settings.standard : Settings Rat).gridSize ∧
      Formed twoAxes 10 ∧
      (fitCell twoAxes (⟨600, 300⟩ : Size Rat) (.given .standard)).result = .ok 20 ∧
      IsGreatest (Admissible twoAxes ⟨600, 300⟩ .standard) 20 ∧
      (fitCell twoAxes.reverse (⟨600, 300⟩ : Size Rat) (.given .standard)).result = .ok 20 := by
  have hlimits : (Settings.standard : Settings Rat).minCell ≤
      (Settings.standard : Settings Rat).gridSize := by decide +kernel
  have hresult : (fitCell twoAxes (⟨600, 300⟩ : Size Rat) (.given .standard)).result = .ok 20 :=
    eq_ok_of_toOption (by decide +kernel)
  have hroom : ∀ l ∈ twoAxes, ∀ side ∈ Side.all, ∀ o ∈ l.get side,
      (20 : Rat) * o.cells 10 ≤ max 0 (Size.across ⟨600, 300⟩ side - 100) := by decide +kernel
  have hadmissible : 20 ∈ Admissible twoAxes (⟨600, 300⟩ : Size Rat) .standard :=
    ⟨by decide +kernel, by decide +kernel,
      fun l hl side o ho => hroom l hl side side.mem_all o ho⟩
  obtain ⟨cell, hcell, hgreatest, -, hsame, -⟩ :=
    fitCell_isGreatest twoAxes ⟨600, 300⟩ (.given .standard) hlimits formed_twoAxes
  obtain rfl : 20 = cell := Except.ok.inj (hresult.symm.trans hcell)
  exact ⟨hlimits, formed_twoAxes, hresult, hgreatest ⟨20, hadmissible⟩,
    hsame _ fun _ => List.mem_reverse⟩

end LayoutGrammar.Layout
