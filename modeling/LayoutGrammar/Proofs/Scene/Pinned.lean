import LayoutGrammar.Proofs.Layout.Axis
import LayoutGrammar.Proofs.Scene.Build
import LayoutGrammar.Proofs.Scene.Session

/-!
# Pinned axes

A pinned coordinate is frozen before a proposed place is made legal, and what comes after that could
move it again: the move into the parent, or the push off the parent and back onto the surface. It
never does, because the box of a child starts where the same moves brought it (`Origin`): a child
inside its parent has been moved into it already, and a child beside it was moved onto the surface
from beyond the side through which it is pushed out again (`origin_of_place`). So making a place
legal puts pinned coordinates back (`holdsPins_of_adjust`), and they are the same in every scene
that sessions lead to (`pinned_afterSessions`).
-/

namespace LayoutGrammar

open Layout

/-- A box has the coordinates at which a child is pinned: those that it started with. -/
structure Child.HoldsPins (c : Child Rat) (box : Rect Rat) : Prop where
  x : c.pins.left = true ∨ c.pins.right = true → box.x = c.initial.x
  y : c.pins.top = true ∨ c.pins.bottom = true → box.y = c.initial.y
  still : (∀ side, c.pins.get side = true) → box = c.initial

theorem Child.HoldsPins.of_moved {c c' : Child Rat} {box : Rect Rat} (h : c.HoldsPins box)
    (hmoved : c.Moved c') : c'.HoldsPins box := by
  obtain ⟨x, y, rfl⟩ := hmoved
  exact ⟨h.x, h.y, h.still⟩

namespace DragLimits

variable {c : DragLimits Rat}

/-- How a child that is pinned came to the place where it starts. -/
inductive Origin (c : DragLimits Rat) : Prop
  | inside (start : Rect Rat) (hmode : c.mode = .inner)
      (hinitial : c.initial = start.movedInside c.parent)
  | beside (start : Rect Rat) (side : Side) (hmode : c.mode = .outer)
      (hattached : c.attachment = some side.name) (hexit : start.exitDistance c.parent side ≤ 0)
      (hinitial : c.initial = start.ontoSurface c.surface)
  | unpinned (hx : c.pins.locksX = false) (hy : c.pins.locksY = false)

/-- Making a place legal puts locked coordinates back to where the child started. -/
theorem locked_of_adjust (h : c.Origin) {current box : Rect Rat} {x y : Rat}
    (hsize : current.size = c.initial.size) (hbox : c.adjust current x y = .ok box) :
    (c.pins.locksX = true → box.x = c.initial.x) ∧
      (c.pins.locksY = true → box.y = c.initial.y) := by
  obtain ⟨hwidth, hheight⟩ := Size.mk.inj hsize
  have hfrozenx : c.pins.locksX = true → (c.freeze current x y).x = c.initial.x :=
    fun hlocked => if_pos hlocked
  have hfrozeny : c.pins.locksY = true → (c.freeze current x y).y = c.initial.y :=
    fun hlocked => if_pos hlocked
  cases h with
  | inside start hmode hinitial =>
    rw [adjust, hmode] at hbox
    obtain rfl := Except.ok.inj hbox
    constructor
    · intro hlocked
      change Scalar.clamp (c.freeze current x y).x c.parent.x (c.parent.right - current.width) = _
      rw [hfrozenx hlocked, hwidth, hinitial]
      exact Scalar.clamp_clamp _ _ _
    · intro hlocked
      change Scalar.clamp (c.freeze current x y).y c.parent.y (c.parent.bottom - current.height) = _
      rw [hfrozeny hlocked, hheight, hinitial]
      exact Scalar.clamp_clamp _ _ _
  | beside start side hmode hattached hexit hinitial =>
    -- the child is pushed out through the side beyond which it came onto the surface
    rw [adjust, hmode, hattached, Option.bind_some, Side.ofName?_name] at hbox
    obtain rfl := Except.ok.inj hbox
    constructor
    · intro hlocked
      rw [← hfrozenx hlocked]
      refine Rect.pushOut_x hexit (hwidth.trans (by rw [hinitial]; rfl)) ?_
      rw [hfrozenx hlocked, hinitial]
    · intro hlocked
      rw [← hfrozeny hlocked]
      refine Rect.pushOut_y hexit (hheight.trans (by rw [hinitial]; rfl)) ?_
      rw [hfrozeny hlocked, hinitial]
  | unpinned hx hy =>
    rw [hx, hy]
    exact ⟨nofun, nofun⟩

end DragLimits

namespace Scene

variable {s : Scene Rat} {c : Child Rat}

theorem holdsPins_of_adjust (h : (s.limitsFor c).Origin) {current box : Rect Rat} {x y : Rat}
    (hsize : current.size = c.initial.size) (hbox : (s.limitsFor c).adjust current x y = .ok box) :
    c.HoldsPins box := by
  obtain ⟨hx, hy⟩ := DragLimits.locked_of_adjust h hsize hbox
  constructor
  · intro hpinned
    exact hx (Bool.or_eq_true_iff.2 hpinned)
  · intro hpinned
    exact hy (Bool.or_eq_true_iff.2 hpinned)
  · intro hall
    have hleft : c.pins.locksX = true := Bool.or_eq_true_iff.2 (.inl (hall .left))
    have htop : c.pins.locksY = true := Bool.or_eq_true_iff.2 (.inl (hall .top))
    have hbox' : box.size = c.initial.size := (DragLimits.size_of_adjust hbox).trans hsize
    rw [Rect.eq_placedAt hbox', hx hleft, hy htop]
    rfl

/-- A child that a component became, before it is dragged, stands where it was moved from beyond its
primary side or into its parent. -/
theorem origin_of_place {f : Frame Rat} {mode : Placement} {component : String × Component}
    (hparent : s.parent = f.parent) (hsurface : s.surface = f.surface)
    (hmode : mode = .inner ∨ mode = .outer) (hcell : 0 ≤ f.cell)
    (hmin : ∀ side o, component.2.location.get side = some o → 0 ≤ o.min)
    (h : f.place mode component = .ok c) : (s.limitsFor c).Origin := by
  obtain ⟨box, hbox, rfl⟩ := Frame.place_eq_ok_iff.1 h
  cases hprimary : component.2.location.primarySide with
  | none =>
    -- a child in the middle may be pushed anywhere, but nothing pins it
    have hfree := eq_free_of_primarySide hprimary
    refine .unpinned ?_ ?_ <;> simp only [limitsFor, freshChild, hfree] <;> rfl
  | some side =>
    rcases hmode with rfl | rfl
    · rw [Frame.box, result_placeBox_inner, hprimary, Option.isSome_some, if_pos rfl] at hbox
      obtain ⟨x, width, y, height, -, -, rfl⟩ := placeInside_eq_ok_iff.1 hbox
      exact .inside ⟨x, y, width, height⟩ rfl (by rw [limitsFor, hparent]; rfl)
    · rw [Frame.box, if_pos rfl, result_placeBox_outer, hprimary] at hbox
      obtain ⟨start, hstart, rfl⟩ := except_map_ok.1 hbox
      refine .beside start side rfl ?_ ?_ ?_
      · simp only [limitsFor, freshChild, if_true, hprimary, Option.map_some]
      · rw [limitsFor, hparent, exitDistance_of_placeBeside hstart]
        have hgap : 0 ≤ ((component.2.location.get side).getD .zero).min := by
          cases hside : component.2.location.get side with
          | none => exact le_refl _
          | some o => exact hmin side o hside
        have hdistance := mul_nonneg (Int.cast_nonneg (R := Rat) hgap) hcell
        linarith
      · rw [limitsFor, hsurface]
        rfl

/-! ## Children that are dragged -/

/-- What drags keep of a child and of what becomes of it. -/
structure Steady (s : Scene Rat) (c c' : Child Rat) : Prop where
  starts : c.bounds = c.initial
  origin : (s.limitsFor c).Origin
  moved : c.Moved c'
  pins : c.HoldsPins c'.bounds

theorem Steady.refl (hstarts : c.bounds = c.initial) (horigin : (s.limitsFor c).Origin) :
    s.Steady c c := by
  refine ⟨hstarts, horigin, .refl c, ?_⟩
  rw [hstarts]
  exact ⟨fun _ => rfl, fun _ => rfl, fun _ => rfl⟩

theorem Steady.adjust {c' : Child Rat} (h : s.Steady c c') {x y : Rat} {box : Rect Rat}
    (hbox : (s.limitsFor c').adjust c'.bounds x y = .ok box) :
    s.Steady c { c' with bounds := box } := by
  obtain ⟨hstarts, horigin, ⟨x', y', rfl⟩, -⟩ := h
  refine ⟨hstarts, horigin, ?_, ?_⟩
  · exact Child.Moved.trans ⟨x', y', rfl⟩ (.of_size_eq (DragLimits.size_of_adjust hbox))
  · exact holdsPins_of_adjust horigin (congrArg Rect.size hstarts) hbox

theorem Steady.gesture {c' : Child Rat} (h : s.Steady c c') (siblings : List (Rect Rat))
    (steps : List (GestureStep Rat)) :
    s.Steady c { c' with bounds := (steps.foldl GestureStep.applyOrKeep
      (.idle c'.bounds (s.limitsFor c') siblings)).bounds } :=
  GestureStep.gesture_induction (I := fun box => s.Steady c { c' with bounds := box })
    (fun _ _ _ _ hcurrent hbox => hcurrent.adjust hbox) h steps

/-! ## Built scenes -/

section Built

variable {d : Dictionary} {id : String} {surface : Size Rat} {settings : Settings Rat}

/-- In a scene that was built without positions, all children stand where they start. -/
theorem steady_of_build (h : (build d id surface ∅ false settings).result = .ok s)
    (hcell : 0 ≤ s.cell)
    (hmin : ∀ p, d.get? id = some p → ∀ l ∈ p.locations, ∀ side o, l.get side = some o → 0 ≤ o.min)
    (hc : c ∈ s.children) : s.Steady c c := by
  obtain ⟨-, hsurface, p, placed, hp, -, -, hplaced, hspread⟩ := build_eq_ok_iff.1 h
  obtain rfl : placed = s.children := Except.ok.inj hspread
  obtain ⟨mode, component, hmode, hlocation, hplace⟩ := Frame.exists_component hplaced hc
  refine .refl ?_ (origin_of_place rfl hsurface hmode hcell (hmin p hp _ hlocation) hplace)
  obtain ⟨box, -, rfl⟩ := Frame.place_eq_ok_iff.1 hplace
  rfl

/-- **Pinned axes never move.** Whatever has been dragged since a scene was built, and whatever is
being dragged, every child has the coordinates at which it is pinned. -/
theorem pinned_afterSessions (h : (build d id surface ∅ false settings).result = .ok s)
    (hcell : 0 ≤ s.cell)
    (hmin : ∀ p, d.get? id = some p → ∀ l ∈ p.locations, ∀ side o, l.get side = some o → 0 ≤ o.min)
    (sessions : List (DragSession Rat)) :
    ∃ children, s.afterSessions sessions = { s with children } ∧
      List.Forall₂ (fun c c' => c.bounds = c.initial ∧ c.Moved c' ∧ c.HoldsPins c'.bounds)
        s.children children ∧
      ∀ key c' g (steps : List (GestureStep Rat)),
        (s.afterSessions sessions).child key = .ok c' →
        (s.afterSessions sessions).gestureFor key = .ok g →
        c'.HoldsPins (steps.foldl GestureStep.applyOrKeep g).bounds := by
  obtain ⟨children, hafter, hsteady⟩ := forall₂_afterSessions (nodup_keys_of_build h)
    (fun c c' (hcc' : s.Steady c c') => hcc'.moved.key_eq)
    (fun c c' x y box hcc' hbox => hcc'.adjust hbox)
    (fun c hc => steady_of_build h hcell hmin hc) sessions
  refine ⟨children, hafter, ?_, ?_⟩
  · exact hsteady.imp fun c c' hcc' => ⟨hcc'.starts, hcc'.moved, hcc'.pins⟩
  · intro key c' g steps hc' hg
    rw [hafter] at hc' hg
    obtain ⟨dragged, hdragged, rfl⟩ := gestureFor_eq_ok_iff.1 hg
    obtain rfl : dragged = c' := Except.ok.inj (hdragged.symm.trans hc')
    obtain ⟨i, hi, rfl⟩ := List.getElem_of_mem (of_child_eq_ok hc').1
    have hcc' := hsteady.get (hsteady.length_eq ▸ hi) hi
    exact (hcc'.gesture _ steps).pins.of_moved hcc'.moved

/-- The child above the panel overlaps it from the start, because the surface leaves no room. -/
theorem pinned_afterSessions_panel :
    (build panel "panel" ⟨300, 300⟩ ∅ false .standard).result = .ok panelScene ∧
      0 ≤ panelScene.cell ∧
      (∀ p, panel.get? "panel" = some p → ∀ l ∈ p.locations, ∀ side o, l.get side = some o →
        0 ≤ o.min) ∧
      ∃ children, panelScene.afterSessions [⟨(.outer, "title"), [.start, .move 20 280]⟩,
          ⟨(.inner, "icon"), [.start, .move 90 140, .stop]⟩] = { panelScene with children } ∧
        children ≠ panelScene.children ∧
        List.Forall₂ (fun c c' => c.HoldsPins c'.bounds) panelScene.children children := by
  have hcell : 0 ≤ panelScene.cell := by decide +kernel
  have hmin : ∀ p, panel.get? "panel" = some p → ∀ l ∈ p.locations, ∀ side o,
      l.get side = some o → 0 ≤ o.min :=
    fun p hp l hl side o ho => (wellFormed_panel hp hl side ho).1
  obtain ⟨children, hafter, hsteady, -⟩ := pinned_afterSessions build_panel hcell hmin
    [⟨(.outer, "title"), [.start, .move 20 280]⟩, ⟨(.inner, "icon"), [.start, .move 90 140, .stop]⟩]
  refine ⟨build_panel, hcell, hmin, children, hafter, ?_, hsteady.imp fun c c' h => h.2.2⟩
  have hchildren := congrArg Scene.children hafter
  rw [show children = _ from hchildren.symm]
  decide +kernel

end Built

end Scene

end LayoutGrammar
