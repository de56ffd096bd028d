import LayoutGrammar.Proofs.Layout.Axis

/-!
# Offsets that are measured

Placing a child turns some of its offsets into pixels, and that is the only thing that can go wrong:
an offset may start beyond every coordinate. Along an axis, a side that is pinned while the other
one is not decides alone, and no offset is measured; otherwise all of them are (`measuredAlong`). A
child beside its parent measures the offset of its primary side and those of the other axis
(`Location.measured`). A box can be computed exactly if all measured offsets can be
(`failsUnless_placeBox`).
-/

namespace LayoutGrammar

/-- The offsets along an axis that are turned into pixels. -/
def measuredAlong (near far : Option Offset) : List Offset :=
  if near.any (·.min == 0) == far.any (·.min == 0) then near.toList ++ far.toList else []

namespace Location

/-- The offsets across from a side: those of the axis along which a child beside it can move. -/
def measuredBeside (l : Location) (side : Side) : List Offset :=
  if side.isHorizontal then measuredAlong l.top l.bottom else measuredAlong l.left l.right

/-- The offsets that are turned into pixels when a child is placed. -/
def measured (mode : Placement) (l : Location) : List Offset :=
  if mode = .inner then measuredAlong l.left l.right ++ measuredAlong l.top l.bottom
  else l.primarySide.elim [] fun side => (l.get side).toList ++ l.measuredBeside side

/-- No measured offset starts beyond every coordinate. -/
def Measurable (α : Type) [Scalar α] (mode : Placement) (l : Location) : Prop :=
  ∀ o ∈ l.measured mode, Scalar.overflows α o.min = false

theorem measurable_rat (mode : Placement) (l : Location) : l.Measurable Rat mode := fun _ _ => rfl

theorem exists_get_of_measuredAlong {near far : Option Offset} {o : Offset}
    (h : o ∈ measuredAlong near far) : near = some o ∨ far = some o := by
  unfold measuredAlong at h
  split at h
  · rcases List.mem_append.1 h with h | h
    · exact .inl (Option.mem_toList.1 h)
    · exact .inr (Option.mem_toList.1 h)
  · cases h

/-- Measured offsets are offsets of the location. -/
theorem exists_get_of_measured {mode : Placement} {l : Location} {o : Offset}
    (h : o ∈ l.measured mode) : ∃ side, l.get side = some o := by
  have hx : o ∈ measuredAlong l.left l.right → ∃ side, l.get side = some o := fun h =>
    (exists_get_of_measuredAlong h).elim (⟨.left, ·⟩) (⟨.right, ·⟩)
  have hy : o ∈ measuredAlong l.top l.bottom → ∃ side, l.get side = some o := fun h =>
    (exists_get_of_measuredAlong h).elim (⟨.top, ·⟩) (⟨.bottom, ·⟩)
  unfold measured at h
  split at h
  · exact (List.mem_append.1 h).elim hx hy
  · cases hside : l.primarySide with
    | none =>
      rw [hside] at h
      cases h
    | some side =>
      rw [hside] at h
      rcases List.mem_append.1 h with h | h
      · exact ⟨side, Option.mem_toList.1 h⟩
      · unfold measuredBeside at h
        split at h
        · exact hy h
        · exact hx h

end Location

namespace Layout

open Scalar

variable {α : Type} [Scalar α]

/-! ## One axis -/

theorem failsUnless_pixels (o : Offset) (cell : α) :
    FailsUnless .integerTooLarge (overflows α o.min = false) (pixels o cell) := by
  unfold pixels
  cases overflows α o.min with
  | false => exact .of_ok rfl rfl
  | true => exact ⟨nofun, fun _ => rfl⟩

theorem mapM_pixels_one {β : Type} (o : Offset) (cell : α) (place : α → β) :
    (do let distance ← pixels o cell; pure (place distance)) =
      (fun distances => place (distances.headD zero)) <$> [o].mapM (pixels · cell) := by
  rw [List.mapM_cons, List.mapM_nil]
  cases pixels o cell <;> rfl

theorem mapM_pixels_two {β : Type} (n f : Offset) (cell : α) (place : α → α → β) :
    (do let before ← pixels n cell; let after ← pixels f cell; pure (place before after)) =
      (fun distances => place (distances.headD zero) (distances.tail.headD zero)) <$>
        [n, f].mapM (pixels · cell) := by
  rw [List.mapM_cons, List.mapM_cons, List.mapM_nil]
  cases pixels n cell with
  | error cause => rfl
  | ok before => cases pixels f cell <;> rfl

/-- What is placed along an axis is computed from the measured offsets in pixels. -/
theorem exists_placeOnAxis_eq (near far : Option Offset) (start span length cell : α) :
    ∃ place : List α → α × α, placeOnAxis near far start span length cell =
      place <$> (measuredAlong near far).mapM (pixels · cell) := by
  cases near with
  | none =>
    cases far with
    | none => exact ⟨fun _ => _, rfl⟩
    | some f =>
      by_cases hf : f.min = 0
      · rw [show measuredAlong none (some f) = [] by simp [measuredAlong, hf]]
        exact ⟨fun _ => _, if_pos hf⟩
      · rw [show measuredAlong none (some f) = [f] by simp [measuredAlong, hf]]
        exact ⟨_, (if_neg hf).trans (mapM_pixels_one f cell _)⟩
  | some n =>
    cases far with
    | none =>
      by_cases hn : n.min = 0
      · rw [show measuredAlong (some n) none = [] by simp [measuredAlong, hn]]
        exact ⟨fun _ => _, if_pos hn⟩
      · rw [show measuredAlong (some n) none = [n] by simp [measuredAlong, hn]]
        exact ⟨_, (if_neg hn).trans (mapM_pixels_one n cell _)⟩
    | some f =>
      by_cases hn : n.min = 0
      · by_cases hf : f.min = 0
        · rw [show measuredAlong (some n) (some f) = [n, f] by simp [measuredAlong, hn, hf]]
          exact ⟨_, ((if_pos hn).trans (if_pos hf)).trans (mapM_pixels_two n f cell _)⟩
        · rw [show measuredAlong (some n) (some f) = [] by simp [measuredAlong, hn, hf]]
          exact ⟨fun _ => _, (if_pos hn).trans (if_neg hf)⟩
      · by_cases hf : f.min = 0
        · rw [show measuredAlong (some n) (some f) = [] by simp [measuredAlong, hn, hf]]
          exact ⟨fun _ => _, (if_neg hn).trans (if_pos hf)⟩
        · rw [show measuredAlong (some n) (some f) = [n, f] by simp [measuredAlong, hn, hf]]
          let place (before after : α) : α × α :=
            let low := start + before
            let high := start + span - after
            if length ≤ high - low then (low + (high - low - length) / two, length)
            else (low, length)
          refine ⟨_, ((if_neg hn).trans (if_neg hf)).trans
            (Eq.trans ?_ (mapM_pixels_two n f cell place))⟩
          refine bind_congr fun before => bind_congr fun after => ?_
          dsimp only [place]
          split <;> rfl

theorem failsUnless_placeOnAxis (near far : Option Offset) (start span length cell : α) :
    FailsUnless .integerTooLarge (∀ o ∈ measuredAlong near far, overflows α o.min = false)
      (placeOnAxis near far start span length cell) := by
  obtain ⟨place, hplace⟩ := exists_placeOnAxis_eq near far start span length cell
  rw [hplace]
  exact (FailsUnless.mapM fun o _ => failsUnless_pixels o cell).map place

/-! ## Boxes -/

variable (l : Location) (parent : Rect α) (child : Size α) (cell : α)

theorem failsUnless_alongX :
    FailsUnless .integerTooLarge (∀ o ∈ measuredAlong l.left l.right, overflows α o.min = false)
      (alongX l parent child cell).result :=
  failsUnless_placeOnAxis _ _ _ _ _ _

theorem failsUnless_alongY :
    FailsUnless .integerTooLarge (∀ o ∈ measuredAlong l.top l.bottom, overflows α o.min = false)
      (alongY l parent child cell).result :=
  failsUnless_placeOnAxis _ _ _ _ _ _

theorem failsUnless_placeInside :
    FailsUnless .integerTooLarge (l.Measurable α .inner)
      (placeInside l parent child cell).result := by
  simp only [placeInside, Logged.result_bind, Logged.result_pure]
  refine ((failsUnless_alongX l parent child cell).bind fun x =>
    (failsUnless_alongY l parent child cell).map _).congr ?_
  exact List.forall_mem_append.symm

theorem failsUnless_placeBeside {side : Side} (hside : l.primarySide = some side) :
    FailsUnless .integerTooLarge (l.Measurable α .outer)
      (placeBeside l parent child cell side).result := by
  obtain ⟨o, ho⟩ := exists_get_of_primarySide hside
  have hmeasured : l.measured .outer = o :: l.measuredBeside side := by
    simp [Location.measured, hside, ho]
  have hgap := failsUnless_pixels o cell
  have hiff : (overflows α o.min = false ∧
      ∀ o ∈ l.measuredBeside side, overflows α o.min = false) ↔ l.Measurable α .outer := by
    rw [Location.Measurable, hmeasured, List.forall_mem_cons]
  simp only [placeBeside, Logged.result_bind, Logged.result_ofExcept, ho, Option.getD_some]
  cases side with
  | left | right =>
    simp only [Logged.result_bind, Logged.result_pure]
    exact (hgap.bind fun _ => (failsUnless_alongY l parent child cell).map _).congr hiff
  | top | bottom =>
    simp only [Logged.result_bind, Logged.result_pure]
    exact (hgap.bind fun _ => (failsUnless_alongX l parent child cell).map _).congr hiff

theorem failsUnless_placeBox {mode : Placement} (hmode : mode = .inner ∨ mode = .outer)
    (surface : Size α) (choice : Choice α) :
    FailsUnless .integerTooLarge (l.Measurable α mode)
      (placeBox (some l) parent child mode (some cell)
        (if mode = .outer then some surface else none) choice).result := by
  cases hside : l.primarySide with
  | none =>
    -- a child without constraints is centred, and nothing is measured
    obtain rfl := eq_free_of_primarySide hside
    rcases hmode with rfl | rfl
    · rw [result_placeBox_inner]
      exact .of_ok rfl nofun
    · rw [if_pos rfl, result_placeBox_outer]
      exact .of_ok rfl nofun
  | some side =>
    rcases hmode with rfl | rfl
    · rw [result_placeBox_inner, hside]
      exact failsUnless_placeInside l parent child cell
    · rw [if_pos rfl, result_placeBox_outer, hside]
      exact (failsUnless_placeBeside l parent child cell hside).map _

end Layout

end LayoutGrammar
