import LayoutGrammar.Proofs.Layout.Spread

/-!
# Spreading along free axes

A child inside its parent is grouped by the only side where it is pinned, so it is free to move
along that side (`Pins.free_of_single?`). A child beside its parent is grouped by its primary side,
and left and right come first: at the top or the bottom nothing holds it to the left or the right
(`Location.free_of_primarySide`), but at the left or the right it may be pinned at the top as well,
and is moved all the same (`distribute_movesPinned`). What is found under a key after spreading was
written for a child with that key, or is its own box, so all of this holds of every list of
children, whatever their keys (`distribute_keepsPins`).
-/

namespace LayoutGrammar

/-! ## Pins -/

namespace Pins

variable {p : Pins} {side : Side}

theorem mem_sides {other : Side} : other ∈ p.sides ↔ p.get other = true := by
  simp [sides, Side.mem_all]

theorem sides_eq_of_single? (h : p.single? = some side) : p.sides = [side] := by
  unfold single? at h
  split at h
  · next only heq =>
    rw [heq, Option.some.inj h]
  · cases h

/-- More than one pinned side is no single one. -/
theorem single?_eq_none_of_count (h : 1 < p.count) : p.single? = none := by
  cases hsingle : p.single? with
  | none => rfl
  | some side =>
    rw [count, sides_eq_of_single? hsingle] at h
    simp at h

/-- Where only one side is pinned, none of the axis along that side is. -/
theorem free_of_single? (h : p.single? = some side) :
    if side.isHorizontal then p.top = false ∧ p.bottom = false
    else p.left = false ∧ p.right = false := by
  have hothers : ∀ other, other ≠ side → p.get other = false := by
    intro other hne
    apply Bool.eq_false_iff.2
    intro hpinned
    have hmem := mem_sides.2 hpinned
    rw [sides_eq_of_single? h] at hmem
    exact hne (List.mem_singleton.1 hmem)
  cases side with
  | left | right => exact ⟨hothers .top nofun, hothers .bottom nofun⟩
  | top | bottom => exact ⟨hothers .left nofun, hothers .right nofun⟩

end Pins

namespace Location

/-- At the top or the bottom a child has neither a left nor a right side. -/
theorem free_of_primarySide {l : Location} {side : Side} (h : l.primarySide = some side) :
    if side.isHorizontal then l.left.isSome ∨ l.right.isSome
    else l.left = none ∧ l.right = none := by
  obtain ⟨top, right, bottom, left⟩ := l
  cases left with
  | some o =>
    obtain rfl : Side.left = side := Option.some.inj h
    exact .inl rfl
  | none =>
    cases right with
    | some o =>
      obtain rfl : Side.right = side := Option.some.inj h
      exact .inr rfl
    | none =>
      cases top <;> cases bottom <;> cases h <;> exact ⟨rfl, rfl⟩

end Location

/-! ## One child -/

namespace Child

variable {α : Type}

/-- The location of a child; without one nothing constrains it. -/
def place (c : Child α) : Location := c.location.getD .free

/-- The sides where a child is pinned. -/
def pinned (c : Child α) : Pins := .ofLocation c.place

/-- A box that a child may be spread to. It is moved along an axis only if none of the two sides of
that axis is pinned, or up and down if the child stands beside its parent and has a left or a right
side. A child that is pinned at several sides inside its parent keeps its own box. -/
structure KeepsPins (c : Child α) (box : Rect α) : Prop where
  size : box.size = c.bounds.size
  x : box.x ≠ c.bounds.x → c.pinned.left = false ∧ c.pinned.right = false
  y : box.y ≠ c.bounds.y → c.pinned.top = false ∧ c.pinned.bottom = false ∨
    c.mode ≠ .inner ∧ (c.place.left.isSome ∨ c.place.right.isSome)
  still : c.mode = .inner → 1 < c.pinned.count → box = c.bounds

theorem keepsPins_bounds (c : Child α) : c.KeepsPins c.bounds :=
  ⟨rfl, fun h => absurd rfl h, fun h => absurd rfl h, fun _ _ => rfl⟩

end Child

namespace Layout

variable {α : Type} {c : Child α} {side : Side}

theorem anchor?_of_inner (h : c.mode = .inner) : anchor? c = c.pinned.single? := by
  rw [anchor?, if_pos h, Child.pinned, Child.place]
  cases c.location <;> rfl

theorem anchor?_of_not_inner (h : c.mode ≠ .inner) : anchor? c = c.place.primarySide := by
  rw [anchor?, if_neg h, Child.place]
  cases c.location <;> rfl

/-- Along the side by which a child is grouped it is free to move. -/
theorem keepsPins_placedAlong (h : anchor? c = some side) (position : α) :
    c.KeepsPins (c.bounds.placedAlong side position) := by
  have hsize := Rect.size_placedAlong c.bounds side position
  by_cases hmode : c.mode = .inner
  · rw [anchor?_of_inner hmode] at h
    have hfree := Pins.free_of_single? h
    have hsingle : ¬ 1 < c.pinned.count := by
      intro hcount
      rw [Pins.single?_eq_none_of_count hcount] at h
      cases h
    cases side with
    | left | right =>
      exact ⟨hsize, fun hx => absurd rfl hx, fun _ => .inl hfree, fun _ hc => absurd hc hsingle⟩
    | top | bottom =>
      exact ⟨hsize, fun _ => hfree, fun hy => absurd rfl hy, fun _ hc => absurd hc hsingle⟩
  · rw [anchor?_of_not_inner hmode] at h
    have hfree := Location.free_of_primarySide h
    cases side with
    | left | right =>
      exact ⟨hsize, fun hx => absurd rfl hx, fun _ => .inr ⟨hmode, hfree⟩,
        fun hc => absurd hc hmode⟩
    | top | bottom =>
      obtain ⟨hleft, hright⟩ := hfree
      refine ⟨hsize, fun _ => ?_, fun hy => absurd rfl hy, fun hc => absurd hc hmode⟩
      simp [Child.pinned, Pins.ofLocation, Sides.map, hleft, hright]

/-! ## All children -/

section Writes

variable [Scalar α] {parent : Rect α} {children : List (Child α)}

/-- **Spreading respects pins.** It gives every child a box, and what it gives under a key is the
box of a child with that key, moved only along axes on which no side of the child is pinned; a child
beside its parent, at its left or its right side, is moved up and down whatever is pinned. -/
theorem distribute_keepsPins (children : List (Child α)) (parent : Rect α) (choice : Choice α) :
    ∃ boxes, (distribute children parent choice).result = .ok boxes ∧
      (∀ c ∈ children, boxes.contains c.key = true) ∧
      ∀ key box, boxes.get? key = some box → ∃ c ∈ children, c.key = key ∧ c.KeepsPins box := by
  refine ⟨_, result_distribute parent children choice, fun c hc => ?_, fun key box hbox => ?_⟩
  · have hown : (Table.ofList (children.map fun c => (c.key, c.bounds))).contains c.key = true := by
      rw [Table.ofList, Table.contains_insertAll, Bool.or_eq_true, List.any_eq_true]
      exact .inr ⟨_, List.mem_map_of_mem hc, beq_self_eq_true _⟩
    rw [Table.contains_insertAll, hown, Bool.true_or]
  · rcases Table.mem_of_get?_insertAll hbox with hwritten | hown
    · obtain ⟨c, hc, side, position, hanchor, heq⟩ := exists_placedAlong_of_mem_writes hwritten
      obtain ⟨rfl, rfl⟩ := Prod.mk.inj heq
      exact ⟨c, hc, rfl, keepsPins_placedAlong hanchor position⟩
    · rcases Table.mem_of_get?_insertAll hown with hmem | hempty
      · obtain ⟨c, hc, heq⟩ := List.mem_map.1 hmem
        obtain ⟨rfl, rfl⟩ := Prod.mk.inj heq
        exact ⟨c, hc, rfl, c.keepsPins_bounds⟩
      · cases hempty

end Writes

/-! ## Examples -/

def topLeftCorner : Location := { Location.free with top := some .zero, left := some .zero }

def leftAndRight : Location := { Location.free with left := some .zero, right := some .zero }

def belowTopEdge : Location := { Location.free with top := some .zero, left := some (.exactly 2) }

/-- Children beside their parent, all at its left side: one that is pinned at the top, one at a
corner, and one at both ends of an axis. -/
def pinnedBeside : List (Child Rat) :=
  [sibling "flush" .outer belowTopEdge ⟨60, 60⟩, sibling "corner" .outer topLeftCorner ⟨60, 20⟩,
    sibling "across" .outer leftAndRight ⟨60, 20⟩]

/-- Beside the parent pins do not keep a child from being moved, neither at the top nor at a corner
nor at both ends of an axis. -/
theorem distribute_movesPinned :
    (distribute pinnedBeside ⟨100, 100, 200, 200⟩ (.given .standard)).result.toOption.map
        (·.entries) =
      some [((.outer, "flush"), ⟨5, 125, 60, 60⟩), ((.outer, "corner"), ⟨5, 210, 60, 20⟩),
        ((.outer, "across"), ⟨5, 255, 60, 20⟩)] ∧
      ∀ c ∈ pinnedBeside, c.bounds.y = 5 ∧ (c.pinned.top = true ∨ 1 < c.pinned.count) := by
  decide +kernel

/-- Children inside their parent: one at a corner, one that stretches, and two at the left. -/
def pinnedInside : List (Child Rat) :=
  [sibling "corner" .inner topLeftCorner ⟨60, 20⟩, sibling "across" .inner leftAndRight ⟨60, 20⟩,
    sibling "a" .inner pinnedLeft ⟨30, 20⟩, sibling "b" .inner pinnedLeft ⟨30, 40⟩]

theorem distribute_keepsPins_corner :
    ∃ boxes, (distribute pinnedInside ⟨50, 40, 300, 200⟩ (.given .standard)).result = .ok boxes ∧
      boxes.get? (.inner, "corner") = some ⟨5, 5, 60, 20⟩ := by
  obtain ⟨boxes, hresult, hall, hkeeps⟩ :=
    distribute_keepsPins pinnedInside ⟨50, 40, 300, 200⟩ (.given .standard)
  have hcorner : ∀ c ∈ pinnedInside, c.key = (.inner, "corner") →
      c.mode = .inner ∧ 1 < c.pinned.count ∧ c.bounds = ⟨5, 5, 60, 20⟩ := by decide +kernel
  obtain ⟨box, hbox⟩ := Option.isSome_iff_exists.1
    (hall (sibling "corner" .inner topLeftCorner ⟨60, 20⟩) (by decide +kernel))
  obtain ⟨c, hc, hkey, hpins⟩ := hkeeps _ box hbox
  obtain ⟨hmode, hcount, hbounds⟩ := hcorner c hc hkey
  refine ⟨boxes, hresult, ?_⟩
  rw [← hbounds, ← hpins.still hmode hcount]
  exact hbox

end Layout

end LayoutGrammar
