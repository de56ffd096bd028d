import LayoutGrammar.Scene.Session
import LayoutGrammar.Proofs.Geometry.Rect
import LayoutGrammar.Proofs.Logged

/-!
# Gestures that keep a box legal

With rational coordinates, a box that stands where its placement allows and overlaps no sibling
still does so after any step of a gesture, and no step fails (`exists_apply`); hence after all steps
in any order (`exists_run`). A candidate for a move is inside its area by construction, and whether
it is off the parent and off the siblings is tested before it is taken; if no candidate passes, the
box stays where it is.
-/

namespace LayoutGrammar

/-- A box stands where a placement allows: inside the parent, or on the surface and off the
parent. -/
def Placement.Allows (parent : Rect Rat) (surface : Size Rat) (box : Rect Rat) : Placement → Prop
  | .inner => parent.Contains box
  | .outer => (Rect.ofSurface surface).Contains box ∧ box.collides parent = false
  | .other _ => False

namespace DragLimits

/-- A box stands where it may be dragged to, siblings apart. -/
def Allows (c : DragLimits Rat) (box : Rect Rat) : Prop := c.mode.Allows c.parent c.surface box

variable {c : DragLimits Rat} {current : Rect Rat} {siblings : List (Rect Rat)}

theorem exists_adjust (h : c.Allows current) (x y : Rat) :
    ∃ x' y', c.adjust current x y = .ok (current.placedAt x' y') ∧
      ∀ siblings, c.admits siblings (current.placedAt x' y') = true →
        c.Allows (current.placedAt x' y') := by
  obtain ⟨mode, parent, surface, pins, initial, attachment⟩ := c
  cases mode with
  | inner =>
    refine ⟨_, _, rfl, fun siblings _ => ?_⟩
    exact Rect.contains_movedInside h _ _
  | outer =>
    obtain ⟨x', y', hpush⟩ := Rect.exists_pushOut
      (freeze ⟨.outer, parent, surface, pins, initial, attachment⟩ current x y) parent surface
      (attachment.bind Side.ofName?)
    refine ⟨_, _, congrArg Except.ok hpush, fun siblings hadmits => ⟨?_, ?_⟩⟩
    · exact Rect.contains_movedInside h.1 _ _
    · simp only [admits, decide_true, Bool.true_and, Bool.and_eq_true, Bool.not_eq_true'] at hadmits
      exact hadmits.1
  | other name => exact h.elim

theorem apart_of_admits {box : Rect Rat} (h : c.admits siblings box = true) :
    ∀ other ∈ siblings, box.collides other = false := by
  simp only [admits, Bool.and_eq_true, Bool.not_eq_true', List.any_eq_false] at h
  exact fun other hother => Bool.eq_false_iff.2 (h.2 other hother)

/-- Following the pointer takes the first admitted one of three places. -/
theorem result_followPointer {x y : Rat} {full onlyx onlyy : Rect Rat}
    (hfull : c.adjust current x y = .ok full)
    (honlyx : c.adjust current full.x current.y = .ok onlyx)
    (honlyy : c.adjust current current.x full.y = .ok onlyy) :
    (Layout.followPointer x y current c siblings).result =
      .ok (([full, onlyx, onlyy].find? (c.admits siblings)).getD current) := by
  simp only [Layout.followPointer, Layout.adjustProposal, result_traced, Logged.result_bind,
    Logged.result_ofExcept, Logged.result_pure, hfull, honlyx, honlyy, ok_bind]

/-- Following the pointer moves a legal box to a legal place. -/
theorem exists_followPointer (h : c.Allows current)
    (hapart : ∀ other ∈ siblings, current.collides other = false) (x y : Rat) :
    ∃ x' y', (Layout.followPointer x y current c siblings).result =
        .ok (current.placedAt x' y') ∧
      c.Allows (current.placedAt x' y') ∧
      ∀ other ∈ siblings, (current.placedAt x' y').collides other = false := by
  obtain ⟨x₁, y₁, hfull, hfull'⟩ := exists_adjust h x y
  obtain ⟨x₂, y₂, honlyx, honlyx'⟩ := exists_adjust h x₁ current.y
  obtain ⟨x₃, y₃, honlyy, honlyy'⟩ := exists_adjust h current.x y₁
  rw [result_followPointer hfull honlyx honlyy]
  cases hfind : [current.placedAt x₁ y₁, current.placedAt x₂ y₂, current.placedAt x₃ y₃].find?
      (c.admits siblings) with
  | none => exact ⟨current.x, current.y, rfl, h, hapart⟩
  | some box =>
    have hadmits : c.admits siblings box = true := List.find?_some hfind
    have hmem := List.mem_of_find?_eq_some hfind
    simp only [List.mem_cons, List.not_mem_nil, or_false] at hmem
    rcases hmem with rfl | rfl | rfl
    · exact ⟨x₁, y₁, rfl, hfull' _ hadmits, apart_of_admits hadmits⟩
    · exact ⟨x₂, y₂, rfl, honlyx' _ hadmits, apart_of_admits hadmits⟩
    · exact ⟨x₃, y₃, rfl, honlyy' _ hadmits, apart_of_admits hadmits⟩

end DragLimits

namespace Gesture

/-- The box of a gesture stands where it is allowed and overlaps no sibling. -/
structure Legal (g : Gesture Rat) : Prop where
  place : g.constraints.Allows g.bounds
  apart : ∀ other ∈ g.siblings, g.bounds.collides other = false

/-- A later state of a gesture: its box may stand elsewhere. -/
def Later (g g' : Gesture Rat) : Prop :=
  ∃ x y isDragging, g' = { g with bounds := g.bounds.placedAt x y, isDragging }

theorem Later.refl (g : Gesture Rat) : g.Later g := ⟨g.bounds.x, g.bounds.y, g.isDragging, rfl⟩

theorem Later.trans {g₁ g₂ g₃ : Gesture Rat} (h : g₁.Later g₂) (h' : g₂.Later g₃) :
    g₁.Later g₃ := by
  obtain ⟨x, y, isDragging, rfl⟩ := h
  obtain ⟨x', y', isDragging', rfl⟩ := h'
  exact ⟨x', y', isDragging', rfl⟩

end Gesture

namespace GestureStep

/-- **No step of a gesture fails, and every step keeps it legal.** -/
theorem exists_apply {g : Gesture Rat} (h : g.Legal) (step : GestureStep Rat) :
    ∃ g', (step.apply g).result = .ok g' ∧ g'.Legal ∧ g.Later g' := by
  cases step with
  | start =>
    simp only [apply, Gesture.start, result_traced]
    split
    · exact ⟨g, rfl, h, .refl g⟩
    · exact ⟨_, rfl, ⟨h.place, h.apart⟩, g.bounds.x, g.bounds.y, true, rfl⟩
  | stop => exact ⟨_, rfl, ⟨h.place, h.apart⟩, g.bounds.x, g.bounds.y, false, rfl⟩
  | move x y =>
    simp only [apply, Gesture.move, result_traced]
    split
    · obtain ⟨x', y', hresult, hplace, hapart⟩ :=
        DragLimits.exists_followPointer h.place h.apart x y
      refine ⟨{ g with bounds := g.bounds.placedAt x' y' }, ?_, ⟨hplace, hapart⟩, x', y', _, rfl⟩
      rw [Logged.result_bind, hresult]
      rfl
    · exact ⟨g, rfl, h, .refl g⟩

/-- Carries out steps of which each has to succeed. -/
def run (g : Gesture Rat) (steps : List (GestureStep Rat)) : Except Error (Gesture Rat) :=
  steps.foldlM (fun g step => (step.apply g).result) g

theorem exists_run {g : Gesture Rat} (h : g.Legal) (steps : List (GestureStep Rat)) :
    ∃ g', run g steps = .ok g' ∧ steps.foldl applyOrKeep g = g' ∧ g'.Legal ∧ g.Later g' := by
  induction steps generalizing g with
  | nil => exact ⟨g, rfl, rfl, h, .refl g⟩
  | cons step rest ih =>
    obtain ⟨g₁, hstep, hlegal₁, hlater₁⟩ := exists_apply h step
    obtain ⟨g₂, hrun, hfold, hlegal₂, hlater₂⟩ := ih hlegal₁
    have hkeep : applyOrKeep g step = g₁ := by
      unfold applyOrKeep
      rw [hstep]
    refine ⟨g₂, ?_, ?_, hlegal₂, hlater₁.trans hlater₂⟩
    · rw [run, List.foldlM_cons, hstep, ok_bind]
      exact hrun
    · rw [List.foldl_cons, hkeep, hfold]

end GestureStep

end LayoutGrammar
