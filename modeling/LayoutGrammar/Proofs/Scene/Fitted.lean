import LayoutGrammar.Proofs.Layout.Axis
import LayoutGrammar.Proofs.Layout.Cell
import LayoutGrammar.Proofs.Scene.Computed

/-!
# Offsets that fit

The grid is scaled by what all components need together, and every child is placed by its own
location in cells of that size. With rational coordinates a scene can always be built if its extents
can be measured (`exists_build`). If the child sizes are within what the scaling reserves for them
and the cell was not raised to the least one (`Roomy`), every child inside its parent keeps the
distances that it declares, and the final move into the parent changes nothing (`build_fitted`).

That needs a grid size that is not negative. The limits of the settings are applied in order, the
least cell first and the grid size last, so a negative grid size makes negative cells, and the
children are moved back into their parent (`build_negativeGrid`).
-/

namespace LayoutGrammar

open Layout

/-- What the scaling of the grid relies on: offsets that are read from tokens, extents that fit a
machine word, children within the room kept for them, and a fitting cell above the least one. -/
structure Roomy (p : Pattern) (available : Size Rat) (s : Settings Rat) : Prop where
  formed : ∀ l ∈ p.locations, ∀ side o, l.get side = some o → o.WellFormed
  headroom : 0 ≤ s.headroom
  word : ∀ l ∈ p.locations, ∀ side o, l.get side = some o → o.cells s.headroom < 2 ^ 63
  minCell : 0 < s.minCell
  widthKept : s.innerSize.width ≤ s.iconSize
  heightKept : s.innerSize.height ≤ s.iconSize
  width : s.innerSize.width ≤ available.width
  height : s.innerSize.height ≤ available.height
  notRaised : ∀ e, extents p.locations s.headroom = .ok e → NotRaised s available e

namespace Roomy

variable {p : Pattern} {available : Size Rat} {s : Settings Rat} {e : Sides Int} {l : Location}
variable {side : Side} {o : Offset}

/-- The grid size has no part in it. -/
theorem withGridSize (h : Roomy p available s) (gridSize : Rat) :
    Roomy p available { s with gridSize } :=
  ⟨h.formed, h.headroom, h.word, h.minCell, h.widthKept, h.heightKept, h.width, h.height,
    h.notRaised⟩

theorem exists_extents (h : Roomy p available s) :
    ∃ e, extents p.locations s.headroom = .ok e :=
  Formed.exists_extents ⟨h.formed, h.word, h.headroom⟩

/-- An offset to the left or the right leaves room for the width of the child. -/
theorem width_fits (h : Roomy p available s) (hgrid : 0 ≤ s.gridSize)
    (he : extents p.locations s.headroom = .ok e) (hl : l ∈ p.locations)
    (hside : side = .left ∨ side = .right) (ho : l.get side = some o) :
    0 ≤ o.min * scaledCell s available e ∧
      o.min * scaledCell s available e ≤ available.width - s.innerSize.width := by
  have hformed := h.formed l hl side o ho
  have hle : o.min ≤ (capacities e).1 :=
    (min_le_capacities he h.headroom hl ho hformed).1 hside
  exact offset_fits (scaledCell_nonneg hgrid (le_of_lt h.minCell))
    (scaledCell_mul_capacity_le (h.notRaised e he)).1 h.widthKept h.width hformed.1 hle

/-- An offset above or below leaves room for the height of the child. -/
theorem height_fits (h : Roomy p available s) (hgrid : 0 ≤ s.gridSize)
    (he : extents p.locations s.headroom = .ok e) (hl : l ∈ p.locations)
    (hside : side = .top ∨ side = .bottom) (ho : l.get side = some o) :
    0 ≤ o.min * scaledCell s available e ∧
      o.min * scaledCell s available e ≤ available.height - s.innerSize.height := by
  have hformed := h.formed l hl side o ho
  have hle : o.min ≤ (capacities e).2 :=
    (min_le_capacities he h.headroom hl ho hformed).2 hside
  exact offset_fits (scaledCell_nonneg hgrid (le_of_lt h.minCell))
    (scaledCell_mul_capacity_le (h.notRaised e he)).2 h.heightKept h.height hformed.1 hle

end Roomy

namespace Scene

variable {d : Dictionary} {id : String} {surface : Size Rat} {settings : Settings Rat}
variable {p : Pattern} {parent : Rect Rat} {e : Sides Int}

/-- With rational coordinates, placing cannot fail. -/
theorem exists_build (hp : d.get? id = some p)
    (hparent : Rect.innerArea surface settings.areaRatio = .ok parent)
    (he : extents p.locations settings.headroom = .ok e) :
    ∃ s, (build d id surface ∅ false settings).result = .ok s ∧ s.parent = parent ∧
      s.cell = scaledCell settings parent.size e ∧
      Frame.children ⟨d, surface, parent, s.cell, settings⟩ p = .ok s.children := by
  let cell : Rat := scaledCell settings parent.size e
  have hcell : (fitPatternCell p parent.size (.given settings)).result = .ok cell := by
    rw [result_fitPatternCell]
    exact congrArg (Except.map (scaledCell settings parent.size)) he
  obtain ⟨children, hchildren⟩ :
      ∃ cs, Frame.children ⟨d, surface, parent, cell, settings⟩ p = .ok cs :=
    (Frame.failsUnless_children _ p).ok fun _ _ _ => Location.measurable_rat _ _
  refine ⟨⟨id, surface, parent, cell, children⟩, ?_, rfl, rfl, hchildren⟩
  exact build_eq_ok_iff.2 ⟨rfl, rfl, p, children, hp, hparent, hcell, hchildren, rfl⟩

/-- **Grid scaling makes every declared inner offset fit.** -/
theorem build_fitted (hp : d.get? id = some p)
    (hparent : Rect.innerArea surface settings.areaRatio = .ok parent)
    (hroomy : Roomy p parent.size settings) (hgrid : 0 ≤ settings.gridSize) :
    ∃ s, (build d id surface ∅ false settings).result = .ok s ∧ s.parent = parent ∧
      ∀ c ∈ s.children, c.mode = .inner → ∃ l, c.location = some l ∧
        Fitted l parent settings.innerSize s.cell c.bounds := by
  obtain ⟨e, he⟩ := hroomy.exists_extents
  obtain ⟨s, hs, hsparent, hcell, hchildren⟩ := exists_build hp hparent he
  refine ⟨s, hs, hsparent, fun c hc hmode => ?_⟩
  obtain ⟨mode, component, -, hlocation, hplace⟩ := Frame.exists_component hchildren hc
  obtain ⟨box, hbox, rfl⟩ := Frame.place_eq_ok_iff.1 hplace
  obtain rfl : mode = .inner := hmode
  refine ⟨component.2.location, rfl, fitted_of_placeBox hbox hroomy.width hroomy.height ?_ ?_⟩
  · intro side hside o ho
    rw [hcell]
    exact hroomy.width_fits hgrid he hlocation hside ho
  · intro side hside o ho
    rw [hcell]
    exact hroomy.height_fits hgrid he hlocation hside ho

/-! ## An example -/

theorem roomy_panel : Roomy panelPattern ⟨200, 200⟩ .standard := by
  have hcells : ∀ l ∈ panelPattern.locations, ∀ side ∈ Side.all, ∀ o ∈ l.get side,
      o.cells 10 < 2 ^ 63 := by decide
  refine ⟨fun l hl side o ho => wellFormed_panel rfl hl side ho, by decide,
    fun l hl side o ho => hcells l hl side (by cases side <;> decide) o ho, by decide +kernel,
    by decide +kernel, by decide +kernel, by decide +kernel, by decide +kernel, ?_⟩
  intro e he q hq
  have hextents : extents panelPattern.locations 10 = .ok ⟨4, 0, 0, 0⟩ :=
    eq_ok_of_toOption (by decide)
  have hfitting : fittingCell? (0, 4) (⟨200, 200⟩ : Size Rat) 100 = some 25 := by decide +kernel
  obtain rfl : ⟨4, 0, 0, 0⟩ = e := Except.ok.inj (hextents.symm.trans he)
  obtain rfl : 25 = q := Option.some.inj (hfitting.symm.trans hq)
  decide +kernel

theorem innerArea_panel :
    Rect.innerArea (⟨300, 300⟩ : Size Rat) (Settings.standard : Settings Rat).areaRatio =
      .ok ⟨50, 50, 200, 200⟩ := eq_ok_of_toOption (by decide +kernel)

def negativeGrid : Settings Rat := { Settings.standard with gridSize := -10 }

/-- Without the condition on the grid size, a declared offset need not fit: cells of size -10 ask
for a place above the parent, from where the child is moved back. -/
theorem build_negativeGrid :
    panel.get? "panel" = some panelPattern ∧
      Rect.innerArea (⟨300, 300⟩ : Size Rat) negativeGrid.areaRatio = .ok ⟨50, 50, 200, 200⟩ ∧
      Roomy panelPattern ⟨200, 200⟩ negativeGrid ∧
      ∃ s, (build panel "panel" ⟨300, 300⟩ ∅ false negativeGrid).result = .ok s ∧
        ∃ c ∈ s.children, c.mode = .inner ∧ ∃ l, c.location = some l ∧
          l.top = some ⟨1, some 4⟩ ∧ l.bottom = none ∧ c.bounds.y - s.parent.y ≠ 1 * s.cell := by
  refine ⟨rfl, innerArea_panel, roomy_panel.withGridSize (-10), ?_⟩
  let icon : Child Rat :=
    { name := "icon", mode := .inner, pattern := "box",
      location := some { Location.free with left := some .zero, top := some ⟨1, some 4⟩ },
      bounds := ⟨50, 50, 100, 70⟩, initial := ⟨50, 50, 100, 70⟩,
      pins := ⟨false, false, false, true⟩, draggable := true, attachment := none }
  have hscene : (build panel "panel" ⟨300, 300⟩ ∅ false negativeGrid).result =
      .ok { panelScene with cell := -10, children := icon :: panelScene.children.tail } :=
    eq_ok_of_toOption (by decide +kernel)
  refine ⟨_, hscene, icon, List.mem_cons_self, rfl, _, rfl, rfl, rfl, ?_⟩
  decide +kernel

theorem build_fitted_panel :
    panel.get? "panel" = some panelPattern ∧
      Rect.innerArea (⟨300, 300⟩ : Size Rat) (Settings.standard : Settings Rat).areaRatio =
        .ok ⟨50, 50, 200, 200⟩ ∧
      Roomy panelPattern ⟨200, 200⟩ .standard ∧ (0 : Rat) ≤ Settings.standard.gridSize ∧
      ∀ c ∈ panelScene.children, c.mode = .inner → ∃ l, c.location = some l ∧
        Fitted l ⟨50, 50, 200, 200⟩ ⟨100, 70⟩ 25 c.bounds := by
  have hp : panel.get? "panel" = some panelPattern := rfl
  have hgrid : (0 : Rat) ≤ Settings.standard.gridSize := by decide +kernel
  obtain ⟨s, hs, -, hfitted⟩ := build_fitted hp innerArea_panel roomy_panel hgrid
  obtain rfl : panelScene = s := Except.ok.inj (build_panel.symm.trans hs)
  exact ⟨hp, innerArea_panel, roomy_panel, hgrid, hfitted⟩

end Scene

end LayoutGrammar
