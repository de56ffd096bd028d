import LayoutGrammar.Proofs.Geometry.Band
import Mathlib.Algebra.Order.Ring.Abs
import Mathlib.Tactic.Ring

/-!
# Boxes pushed off an area

A box on the surface that overlaps an area can leave it through each side, by a move of the exit
distance there, and every move that separates the two is at least as long as the shortest of these
four (`exists_exitDistance_le`). If the band beyond a side is wide enough for the box, it stands on
the surface once it has left through that side (`contains_beside`), so the second move onto the
surface changes nothing; if the band is too narrow, that move brings the box back over the area
(`fits_of_apart`). `pushOut_separates` puts this together.
-/

namespace LayoutGrammar

open Scalar

/-! ## The first of the least -/

/-- An item of least value, and the first one of its kind. -/
structure IsFirstLeast {ι : Type} (d : ι → Rat) (items : List ι) (best : ι) : Prop where
  least : ∀ i ∈ items, d best ≤ d i
  first : ∃ before after, items = before ++ best :: after ∧ ∀ i ∈ before, d best < d i

/-- Going through items and keeping the lesser one ends with the first of the least. -/
theorem isFirstLeast_foldl {ι : Type} (d : ι → Rat) (start : ι) (rest : List ι) :
    IsFirstLeast d (start :: rest)
      (rest.foldl (fun best i => if d i < d best then i else best) start) := by
  induction rest generalizing start with
  | nil => exact ⟨by simp, [], [], rfl, nofun⟩
  | cons next rest ih =>
    rw [List.foldl_cons]
    by_cases h : d next < d start
    · rw [if_pos h]
      obtain ⟨hleast, before, after, horder, hfirst⟩ := ih next
      have hstart := (hleast next List.mem_cons_self).trans_lt h
      refine ⟨List.forall_mem_cons.2 ⟨hstart.le, hleast⟩, start :: before, after, ?_, ?_⟩
      · rw [horder, List.cons_append]
      · exact List.forall_mem_cons.2 ⟨hstart, hfirst⟩
    · rw [if_neg h]
      obtain ⟨hleast, before, after, horder, hfirst⟩ := ih start
      generalize rest.foldl (fun best i => if d i < d best then i else best) start = best at *
      obtain ⟨hstart, hrest⟩ := List.forall_mem_cons.1 hleast
      have hall : ∀ i ∈ start :: next :: rest, d best ≤ d i :=
        List.forall_mem_cons.2
          ⟨hstart, List.forall_mem_cons.2 ⟨hstart.trans (not_lt.1 h), hrest⟩⟩
      cases before with
      | nil =>
        obtain ⟨hbest, -⟩ := List.cons.inj horder
        exact ⟨hall, [], next :: rest, by rw [hbest]; rfl, nofun⟩
      | cons head before =>
        obtain ⟨rfl, hbefore⟩ := List.cons.inj horder
        obtain ⟨hlt, hlts⟩ := List.forall_mem_cons.1 hfirst
        refine ⟨hall, start :: next :: before, after, ?_, ?_⟩
        · rw [hbefore]
          rfl
        · exact List.forall_mem_cons.2
            ⟨hlt, List.forall_mem_cons.2 ⟨hlt.trans_le (not_lt.1 h), hlts⟩⟩

/-- A name gives a side exactly if it is the name of that side. -/
theorem Side.bind_ofName?_eq_some_iff {name : Option String} {side : Side} :
    name.bind ofName? = some side ↔ name = some side.name := by
  constructor
  · intro h
    obtain ⟨s, rfl, hs⟩ := Option.bind_eq_some_iff.1 h
    have hname : (side.name == s) = true :=
      List.find?_some (p := fun side : Side => side.name == s) hs
    rw [eq_of_beq hname]
  · rintro rfl
    exact ofName?_name side

namespace Rect

variable {r area : Rect Rat} {surface : Size Rat} {side : Side} {prefer : Option Side}

theorem isFirstLeast_nearestExit (r area : Rect Rat) :
    IsFirstLeast (r.exitDistance area) [.left, .right, .top, .bottom] (r.nearestExit area) :=
  isFirstLeast_foldl _ _ _

/-! ## Leaving through a side -/

theorem collides_iff : r.collides area = true ↔
    (r.x < area.x + area.width ∧ area.x < r.x + r.width) ∧
      r.y < area.y + area.height ∧ area.y < r.y + r.height := by
  simp only [collides, Bool.and_eq_true, decide_eq_true_eq, and_assoc]
  rfl

theorem contains_ofSurface_iff : (ofSurface surface).Contains r ↔
    (0 ≤ r.x ∧ r.x + r.width ≤ surface.width) ∧ 0 ≤ r.y ∧ r.y + r.height ≤ surface.height := by
  have hright : (ofSurface surface).right = surface.width := zero_add _
  have hbottom : (ofSurface surface).bottom = surface.height := zero_add _
  constructor
  · rintro ⟨hx, hy, hx', hy'⟩
    rw [hright] at hx'
    rw [hbottom] at hy'
    exact ⟨⟨hx, hx'⟩, hy, hy'⟩
  · rintro ⟨⟨hx, hx'⟩, hy, hy'⟩
    exact ⟨hx, hy, hx'.trans hright.ge, hy'.trans hbottom.ge⟩

theorem exitDistance_pos (h : r.collides area = true) (side : Side) :
    0 < r.exitDistance area side := by
  obtain ⟨⟨hright, hleft⟩, hbottom, htop⟩ := collides_iff.1 h
  cases side with
  | left => exact sub_pos.2 hleft
  | right => exact sub_pos.2 hright
  | top => exact sub_pos.2 htop
  | bottom => exact sub_pos.2 hbottom

/-- A box that has left an area through a side touches it there. -/
theorem distance_beside (r area : Rect Rat) (side : Side) :
    (r.beside area side).distance area side = 0 := by
  cases side <;> simp [beside, distance, placedAt, right, bottom]

/-- A box that leaves an area moves by the exit distance. -/
theorem sq_move_beside (r area : Rect Rat) (side : Side) :
    ((r.beside area side).x - r.x) ^ 2 + ((r.beside area side).y - r.y) ^ 2 =
      r.exitDistance area side ^ 2 := by
  cases side <;> simp only [beside, exitDistance, placedAt, right, bottom] <;> ring

/-- A move that separates a box from an area is at least as long as the exit through some side. -/
theorem exists_exitDistance_le (hcollides : r.collides area = true) {dx dy : Rat}
    (h : (r.translated dx dy).collides area = false) :
    ∃ side, r.exitDistance area side ^ 2 ≤ dx ^ 2 + dy ^ 2 := by
  by_contra hall
  simp only [not_exists, not_le] at hall
  -- a move that is shorter than all four exits leaves the box over the area
  have hshort : ∀ side, |dx| < r.exitDistance area side ∧ |dy| < r.exitDistance area side := by
    intro side
    have hpos := (exitDistance_pos hcollides side).le
    constructor
    · exact abs_lt_of_sq_lt_sq ((le_add_of_nonneg_right (sq_nonneg dy)).trans_lt (hall side)) hpos
    · exact abs_lt_of_sq_lt_sq ((le_add_of_nonneg_left (sq_nonneg dx)).trans_lt (hall side)) hpos
  have hleft := neg_lt_of_abs_lt (hshort .left).1
  have hright := lt_of_abs_lt (hshort .right).1
  have htop := neg_lt_of_abs_lt (hshort .top).2
  have hbottom := lt_of_abs_lt (hshort .bottom).2
  simp only [exitDistance, Rect.right, Rect.bottom] at hleft hright htop hbottom
  refine Bool.false_ne_true (h.symm.trans (collides_iff.2 ⟨⟨?_, ?_⟩, ?_, ?_⟩)) <;>
    simp only [translated, placedAt] <;> linarith

/-- A box on the surface that leaves an area through a side with room for it stays on it. -/
theorem contains_beside (hr : (ofSurface surface).Contains r) (hcollides : r.collides area = true)
    (hfits : r.size.across side ≤ area.band surface side) :
    (ofSurface surface).Contains (r.beside area side) := by
  obtain ⟨⟨hx, hx'⟩, hy, hy'⟩ := contains_ofSurface_iff.1 hr
  obtain ⟨⟨hright, hleft⟩, hbottom, htop⟩ := collides_iff.1 hcollides
  rw [contains_ofSurface_iff]
  cases side <;> simp only [Size.across, Side.isHorizontal, size, band, edge, beside, placedAt,
    Rect.right, Rect.bottom, if_true, Bool.false_eq_true, if_false] at * <;>
    refine ⟨⟨?_, ?_⟩, ?_, ?_⟩ <;> linarith

theorem y_beside (hside : side.isHorizontal = true) : (r.beside area side).y = r.y := by
  cases side with
  | left | right => rfl
  | top | bottom => cases hside

theorem x_beside (hside : side.isHorizontal = false) : (r.beside area side).x = r.x := by
  cases side with
  | left | right => cases hside
  | top | bottom => rfl

theorem size_beside (r area : Rect Rat) (side : Side) : (r.beside area side).size = r.size := by
  cases side <;> rfl

/-- Leaving an area and moving onto the surface keep the coordinate along the side. -/
theorem y_ontoSurface_beside (hr : (ofSurface surface).Contains r)
    (hside : side.isHorizontal = true) : ((r.beside area side).ontoSurface surface).y = r.y := by
  have hheight : (r.beside area side).height = r.height := by cases side <;> rfl
  rw [y_ontoSurface, y_beside hside, hheight]
  obtain ⟨-, hlow, hhigh⟩ := contains_ofSurface_iff.1 hr
  exact clamp_of_le hlow (.inl (le_sub_iff_add_le.2 hhigh))

theorem x_ontoSurface_beside (hr : (ofSurface surface).Contains r)
    (hside : side.isHorizontal = false) : ((r.beside area side).ontoSurface surface).x = r.x := by
  have hwidth : (r.beside area side).width = r.width := by cases side <;> rfl
  rw [x_ontoSurface, x_beside hside, hwidth]
  obtain ⟨⟨hlow, hhigh⟩, -⟩ := contains_ofSurface_iff.1 hr
  exact clamp_of_le hlow (.inl (le_sub_iff_add_le.2 hhigh))

section Narrow

variable {edge length extent : Rat}

/-- A box without room before an edge stands at the start of the surface. -/
theorem clamp_before_of_lt (hfits : length ≤ extent) (h : edge < length) :
    clamp (edge - length) 0 (extent - length) = 0 := by
  rw [clamp_of_le_high (by linarith), max_eq_left (by linarith)]

/-- A box without room behind an edge stands at the end of the surface. -/
theorem clamp_behind_of_lt (hfits : length ≤ extent) (hedge : 0 ≤ edge)
    (h : extent - edge < length) : clamp edge 0 (extent - length) = extent - length := by
  rw [clamp_of_low_le hedge (by linarith), min_eq_right (by linarith)]

end Narrow

/-- If there is no room beyond a side, the move onto the surface brings a box that left through it
back over the area. -/
theorem fits_of_apart (hr : (ofSurface surface).Contains r) (hcollides : r.collides area = true)
    (h : ((r.beside area side).ontoSurface surface).collides area = false) :
    r.size.across side ≤ area.band surface side := by
  obtain ⟨⟨hx, hx'⟩, hy, hy'⟩ := contains_ofSurface_iff.1 hr
  obtain ⟨⟨hright, hleft⟩, hbottom, htop⟩ := collides_iff.1 hcollides
  have hwidth : r.width ≤ surface.width := (le_add_of_nonneg_left hx).trans hx'
  have hheight : r.height ≤ surface.height := (le_add_of_nonneg_left hy).trans hy'
  by_contra hnarrow
  rw [not_le] at hnarrow
  refine Bool.false_ne_true (h.symm.trans (collides_iff.2 ?_))
  cases side with
  | left =>
    have hback : ((r.beside area .left).ontoSurface surface).x = 0 :=
      (x_ontoSurface _ _).trans (clamp_before_of_lt hwidth hnarrow)
    rw [hback, y_ontoSurface_beside hr rfl, zero_add]
    exact ⟨⟨hx.trans_lt hright, hnarrow⟩, hbottom, htop⟩
  | right =>
    have hback : ((r.beside area .right).ontoSurface surface).x = surface.width - r.width :=
      (x_ontoSurface _ _).trans (clamp_behind_of_lt hwidth (hx.trans hright.le) hnarrow)
    rw [hback, y_ontoSurface_beside hr rfl]
    refine ⟨⟨sub_lt_comm.1 hnarrow, ?_⟩, hbottom, htop⟩
    exact (hleft.trans_le hx').trans_eq (sub_add_cancel _ _).symm
  | top =>
    have hback : ((r.beside area .top).ontoSurface surface).y = 0 :=
      (y_ontoSurface _ _).trans (clamp_before_of_lt hheight hnarrow)
    rw [hback, x_ontoSurface_beside hr rfl, zero_add]
    exact ⟨⟨hright, hleft⟩, hy.trans_lt hbottom, hnarrow⟩
  | bottom =>
    have hback : ((r.beside area .bottom).ontoSurface surface).y = surface.height - r.height :=
      (y_ontoSurface _ _).trans (clamp_behind_of_lt hheight (hy.trans hbottom.le) hnarrow)
    rw [hback, x_ontoSurface_beside hr rfl]
    refine ⟨⟨hright, hleft⟩, sub_lt_comm.1 hnarrow, ?_⟩
    exact (htop.trans_le hy').trans_eq (sub_add_cancel _ _).symm

/-! ## Pushing -/

theorem pushOut_of_apart (h : (r.ontoSurface surface).collides area = false) :
    r.pushOut area surface prefer = r.ontoSurface surface := by
  unfold pushOut
  dsimp only
  rw [h, if_neg Bool.false_ne_true]

theorem pushOut_of_collides (h : (r.ontoSurface surface).collides area = true)
    (prefer : Option Side) :
    r.pushOut area surface prefer = ((r.ontoSurface surface).beside area
      (prefer.getD ((r.ontoSurface surface).nearestExit area))).ontoSurface surface := by
  unfold pushOut
  dsimp only
  rw [h, if_pos rfl]

/-- A box on the surface and off the area stays where it is. -/
theorem pushOut_of_contains (hr : (ofSurface surface).Contains r)
    (h : r.collides area = false) : r.pushOut area surface prefer = r := by
  have hstays : r.ontoSurface surface = r := movedInside_of_contains hr
  rw [pushOut_of_apart (by rwa [hstays]), hstays]

/-- A box on the surface that is pushed off an area and ends off it stays where it is, or leaves the
area and touches it. -/
theorem eq_or_beside_of_pushOut (hr : (ofSurface surface).Contains r)
    (h : (r.pushOut area surface prefer).collides area = false) :
    r.pushOut area surface prefer = r ∨ r.collides area = true ∧
      r.pushOut area surface prefer = r.beside area (prefer.getD (r.nearestExit area)) := by
  have hstays : r.ontoSurface surface = r := movedInside_of_contains hr
  cases hcollides : r.collides area with
  | false => exact .inl (pushOut_of_contains hr hcollides)
  | true =>
    have hpush := pushOut_of_collides (hstays.symm ▸ hcollides) prefer
    rw [hstays] at hpush
    rw [hpush] at h ⊢
    have hon := contains_beside hr hcollides (fits_of_apart hr hcollides h)
    exact .inr ⟨rfl, movedInside_of_contains hon⟩

/-- A box that leaves an area through one of its sides, and where it stands then. -/
structure LeavesThrough (r area : Rect Rat) (surface : Size Rat) (side : Side)
    (out : Rect Rat) : Prop where
  onSurface : (ofSurface surface).Contains out
  apart : out.collides area = false
  touching : out.distance area side = 0
  size : out.size = r.size
  level : side.isHorizontal = true → out.y = r.y
  upright : side.isHorizontal = false → out.x = r.x

theorem leavesThrough_beside (hr : (ofSurface surface).Contains r)
    (hcollides : r.collides area = true) (hfits : r.size.across side ≤ area.band surface side) :
    r.LeavesThrough area surface side (r.beside area side) := by
  have htouch := distance_beside r area side
  exact ⟨contains_beside hr hcollides hfits, collides_of_distance htouch.ge, htouch,
    size_beside r area side, y_beside, x_beside⟩

/-- The side through which a box is pushed: the one of the given name, or else the nearest one. -/
theorem exists_exit (r area : Rect Rat) (name : Option String) :
    ∃ side, (name.bind Side.ofName?).getD (r.nearestExit area) = side ∧
      (name = some side.name ∨ (∀ other : Side, name ≠ some other.name) ∧
        IsFirstLeast (r.exitDistance area) [.left, .right, .top, .bottom] side) := by
  cases hname : name.bind Side.ofName? with
  | some side => exact ⟨side, rfl, .inl (Side.bind_ofName?_eq_some_iff.1 hname)⟩
  | none =>
    refine ⟨r.nearestExit area, rfl, .inr ⟨fun other hother => ?_, isFirstLeast_nearestExit r area⟩⟩
    rw [Side.bind_ofName?_eq_some_iff.2 hother] at hname
    cases hname

/-- No move that separates a box from an area is shorter than leaving it through the nearest
side. -/
theorem sq_move_le (hcollides : r.collides area = true)
    (hside : IsFirstLeast (r.exitDistance area) [.left, .right, .top, .bottom] side) {dx dy : Rat}
    (h : (r.translated dx dy).collides area = false) :
    ((r.beside area side).x - r.x) ^ 2 + ((r.beside area side).y - r.y) ^ 2 ≤
      dx ^ 2 + dy ^ 2 := by
  obtain ⟨other, hother⟩ := exists_exitDistance_le hcollides h
  have hpos := (exitDistance_pos hcollides side).le
  have hleast : r.exitDistance area side ≤ r.exitDistance area other :=
    hside.least other (by cases other <;> decide)
  calc ((r.beside area side).x - r.x) ^ 2 + ((r.beside area side).y - r.y) ^ 2
      _ = r.exitDistance area side ^ 2 := sq_move_beside r area side
      _ ≤ r.exitDistance area other ^ 2 := pow_le_pow_left₀ hpos hleast 2
      _ ≤ dx ^ 2 + dy ^ 2 := hother

/-- **Pushing a box off an area makes the smallest move that separates the two, if there is room.**
The box, once it is on the surface, stays there if it does not overlap the area. Otherwise it leaves
through the side of the given name, or else through the one with the shortest way out; if the band
there is wide enough, it stands on the surface beside the area, no shorter move separates the two,
and it is not moved a second time. -/
theorem pushOut_separates (r area : Rect Rat) (surface : Size Rat) (name : Option String)
    (hwidth : r.width ≤ surface.width) (hheight : r.height ≤ surface.height) :
    ∃ start out, r.ontoSurface surface = start ∧
      r.pushOut area surface (name.bind Side.ofName?) = out ∧
      (start.collides area = false →
        out = start ∧ ∀ again, out.pushOut area surface again = out) ∧
      (start.collides area = true → ∃ side,
        (name = some side.name ∨ (∀ other : Side, name ≠ some other.name) ∧
          IsFirstLeast (start.exitDistance area) [.left, .right, .top, .bottom] side) ∧
        (r.size.across side ≤ area.band surface side →
          start.LeavesThrough area surface side out ∧
          ((∀ other : Side, name ≠ some other.name) → ∀ dx dy,
            (start.translated dx dy).collides area = false →
            (out.x - start.x) ^ 2 + (out.y - start.y) ^ 2 ≤ dx ^ 2 + dy ^ 2) ∧
          ∀ again, out.pushOut area surface again = out)) := by
  have hon := contains_ontoSurface hwidth hheight
  refine ⟨_, _, rfl, rfl, fun hapart => ?_, fun hcollides => ?_⟩
  · rw [pushOut_of_apart hapart]
    exact ⟨rfl, fun again => pushOut_of_contains hon hapart⟩
  · obtain ⟨side, hside, hchosen⟩ := exists_exit (r.ontoSurface surface) area name
    refine ⟨side, hchosen, fun hfits => ?_⟩
    have hleaves := leavesThrough_beside hon hcollides hfits
    have hout : r.pushOut area surface (name.bind Side.ofName?) =
        (r.ontoSurface surface).beside area side := by
      rw [pushOut_of_collides hcollides, hside]
      exact movedInside_of_contains hleaves.onSurface
    rw [hout]
    refine ⟨hleaves, fun hnone dx dy hseparates => ?_, fun again => ?_⟩
    · rcases hchosen with hnamed | ⟨-, hnearest⟩
      · exact absurd hnamed (hnone side)
      · exact sq_move_le hcollides hnearest hseparates
    · exact pushOut_of_contains hleaves.onSurface hleaves.apart

/-- A box over the upper edge of an area leaves it upwards, though the name is that of no side. -/
theorem pushOut_separates_upwards :
    (50 : Rat) ≤ 400 ∧ (50 : Rat) ≤ 400 ∧ (∀ other : Side, some "middle" ≠ some other.name) ∧
      Rect.pushOut (⟨110, 60, 50, 50⟩ : Rect Rat) ⟨100, 100, 100, 100⟩ ⟨400, 400⟩
        ((some "middle").bind Side.ofName?) = ⟨110, 50, 50, 50⟩ ∧
      ∀ dx dy, (translated ⟨110, 60, 50, 50⟩ dx dy).collides ⟨100, 100, 100, 100⟩ = false →
        10 ^ 2 ≤ dx ^ 2 + dy ^ 2 := by
  have hsize : (50 : Rat) ≤ 400 := by decide +kernel
  have hname : ∀ other : Side, some "middle" ≠ some other.name := by
    intro other
    cases other <;> decide
  obtain ⟨start, out, hstart, hout, -, hleaves⟩ := pushOut_separates ⟨110, 60, 50, 50⟩
    ⟨100, 100, 100, 100⟩ ⟨400, 400⟩ (some "middle") hsize hsize
  obtain rfl : start = ⟨110, 60, 50, 50⟩ := hstart.symm.trans (by decide +kernel)
  obtain rfl : out = ⟨110, 50, 50, 50⟩ := hout.symm.trans (by decide +kernel)
  obtain ⟨side, hside, hfits⟩ := hleaves (by decide +kernel)
  obtain ⟨-, hfirst⟩ := hside.resolve_left (hname side)
  have hleast := hfirst.least .top (by decide)
  obtain rfl : side = .top := by
    cases side with
    | top => rfl
    | left | right | bottom => exact absurd hleast (by decide +kernel)
  obtain ⟨-, hshortest, -⟩ := hfits (by decide +kernel)
  refine ⟨hsize, hsize, hname, hout, fun dx dy hseparates => ?_⟩
  exact (by decide +kernel : (10 : Rat) ^ 2 ≤ (110 - 110) ^ 2 + (50 - 60) ^ 2).trans
    (hshortest hname dx dy hseparates)

end Rect

end LayoutGrammar
