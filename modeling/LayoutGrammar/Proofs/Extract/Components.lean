import LayoutGrammar.Proofs.Extract.Offences
import LayoutGrammar.Proofs.Pattern

/-!
# What children contribute

A child gives its owner one component and nothing else. The components of a pattern at a placement
are those that the children there give (`components_ownPattern`), and a child that carries a
definition gives the id of that definition and its own location. What else stands in such a child
does not matter: maps that differ only there read as one and the same pattern
(`ownPattern_of_sameOutside`).
-/

namespace LayoutGrammar

namespace Extract

section Source

variable {ν : Type} (source : Source ν)

/-- The component that a child gives, under its name. -/
def entryOf? (child : Value × Slot ν) : Option (String × Component) :=
  (componentOf? source child).map (child.1.text, ·)

/-- The components that the children at a placement give, in order. -/
def componentsAt (placement : Placement) (data : ν) : List (String × Component) :=
  (childrenAt source placement data).filterMap (entryOf? source)

variable {source}

theorem entryOf?_of_defines {child : Value × Slot ν} {n : ν} (hslot : child.2 = .node n)
    (hn : Defines source n) :
    entryOf? source child =
      some (child.1.text, ⟨inlineId child.1.text, locationOf source (source.entries n)⟩) := by
  obtain ⟨key, slot⟩ := child
  obtain rfl : slot = .node n := hslot
  have htarget : targetOf source key.text (source.entries n) = inlineId key.text := if_pos hn
  rw [← htarget]
  rfl

/-- Children leave alone whatever does not depend on the components. -/
theorem part_withChildren {β : Type} {part : Pattern → β}
    (h : ∀ p placement f, part (Pattern.mapComponents p placement f) = part p)
    (placement : Placement) (p : Pattern) (slot : Slot ν) :
    part (withChildren source placement p slot) = part p := by
  refine List.foldlRecOn (motive := fun q => part q = part p) _ _ rfl fun q hq child _ => ?_
  unfold withChild
  split
  · rw [h, hq]
  · exact hq

/-- Beside the components, an entry writes a field, if its key is free. -/
theorem part_withEntry {β : Type} (part : Pattern → β)
    (h : ∀ p placement f, part (Pattern.mapComponents p placement f) = part p) {p : Pattern}
    {e : Value × Slot ν}
    (hfield : isStructural e.1 = false → part (setField p e.1 (source.value e.2)) = part p) :
    part (withEntry source p e) = part p := by
  unfold withEntry
  split
  · exact part_withChildren h _ p e.2
  split
  · rfl
  · next hfree => exact hfield (Bool.eq_false_iff.2 hfree)

/-! ## Components of a pattern -/

/-- Steps that each write some components at a placement write all of them one after the other. -/
theorem components_foldl {α : Type} {f : Pattern → α → Pattern}
    {written : α → List (String × Component)} {placement : Placement}
    (h : ∀ p a, (f p a).components placement =
      (·.insertAll (written a)) <$> p.components placement) (items : List α) (p : Pattern) :
    (items.foldl f p).components placement =
      (·.insertAll (items.flatMap written)) <$> p.components placement := by
  induction items generalizing p with
  | nil => exact (id_map _).symm
  | cons a rest ih =>
    rw [List.foldl_cons, ih, h, List.flatMap_cons, ← comp_map]
    simp only [Function.comp_def, Table.insertAll_append]

theorem components_withChild (q placement : Placement) (p : Pattern) (child : Value × Slot ν) :
    (withChild source q p child).components placement =
      (·.insertAll (if q = placement then (entryOf? source child).toList else [])) <$>
        p.components placement := by
  have hnothing : (·.insertAll []) <$> p.components placement = p.components placement := id_map _
  unfold withChild entryOf?
  cases componentOf? source child with
  | none => simp [hnothing]
  | some c =>
    dsimp only
    rw [Pattern.components_mapComponents]
    by_cases hq : q = placement
    · rw [if_pos hq, if_pos hq]
      rfl
    · rw [if_neg hq, if_neg hq, hnothing]

theorem components_setField (placement : Placement) (p : Pattern) (key value : Value) :
    (setField p key value).components placement = p.components placement := by
  unfold setField
  split
  · cases placement <;> rfl
  · split <;> cases placement <;> rfl

theorem components_hoisted (placement : Placement) (definition : List (Value × Value)) :
    (hoisted definition).components placement = Pattern.blank.components placement := by
  have hstep : ∀ isArray p e,
      (setHoisted isArray p e).components placement = p.components placement := by
    intro isArray p e
    unfold setHoisted
    split
    · split
      · cases placement <;> rfl
      · rfl
    · exact components_setField placement p e.1 e.2
  unfold hoisted
  exact List.foldlRecOn (motive := fun p : Pattern => p.components placement = _) definition _ rfl
    fun p hp e _ => (hstep _ p e).trans hp

theorem components_withEntry (placement : Placement) (p : Pattern) (e : Value × Slot ν) :
    (withEntry source p e).components placement =
      (·.insertAll ((if placementOf? e.1 = some placement then childrenOf source e.2
        else []).filterMap (entryOf? source))) <$> p.components placement := by
  have hnothing : (·.insertAll []) <$> p.components placement = p.components placement := id_map _
  unfold withEntry
  cases placementOf? e.1 with
  | some q =>
    dsimp only [withChildren]
    rw [components_foldl (components_withChild q placement)]
    by_cases hq : q = placement
    · simp [hq, List.filterMap_eq_flatMap_toList]
    · have hnone : (childrenOf source e.2).flatMap
          (fun child => if q = placement then (entryOf? source child).toList else []) = [] :=
        List.flatMap_eq_nil_iff.2 fun child _ => if_neg hq
      rw [hnone, if_neg fun heq => hq (Option.some.inj heq)]
      rfl
  | none =>
    have hne : ¬ (none : Option Placement) = some placement := nofun
    rw [if_neg hne, List.filterMap_nil, hnothing]
    dsimp only
    split
    · rfl
    · exact components_setField placement p e.1 (source.value e.2)

theorem components_ownPattern {placement : Placement} (h : placement.isKnown = true) (data : ν) :
    (ownPattern source data).components placement =
      .ok (.ofList (componentsAt source placement data)) := by
  have hitem : ∀ p raw, (withItem p raw).components placement = p.components placement := by
    intro p raw
    unfold withItem
    split
    · cases placement <;> rfl
    · rfl
  have hparents : ∀ p : Pattern, ∀ parents,
      Pattern.components { p with parents } placement = p.components placement := by
    intro p parents
    cases placement <;> rfl
  rw [ownPattern, hparents]
  unfold ownFields
  dsimp only
  rw [hitem, components_foldl (components_withEntry placement), components_hoisted]
  have hblank : Pattern.blank.components placement = .ok ∅ := by
    cases placement with
    | other _ => cases h
    | inner | outer => rfl
  rw [hblank, componentsAt, childrenAt, List.filterMap_flatMap]
  rfl

/-! ## What stands within inline children -/

variable (source) in
/-- Two children that are equal, or both carry a definition and agree in name and location. -/
def SameChild (a b : Value × Slot ν) : Prop :=
  a = b ∨ a.1 = b.1 ∧ ∃ m n, a.2 = .node m ∧ b.2 = .node n ∧ Defines source m ∧ Defines source n ∧
    locationOf source (source.entries m) = locationOf source (source.entries n)

variable (source) in
/-- Two entries that are equal, or list children that are the same in this way one by one. -/
def SameEntry (a b : Value × Slot ν) : Prop :=
  a = b ∨ a.1 = b.1 ∧ (∃ placement, placementOf? a.1 = some placement) ∧
    ∃ m n, a.2 = .node m ∧ b.2 = .node n ∧
      List.Forall₂ (SameChild source) (source.entries m) (source.entries n)

variable (source) in
/-- Two maps that differ at most within children that carry a definition. -/
def SameOutside (m n : ν) : Prop :=
  List.Forall₂ (SameEntry source) (source.entries m) (source.entries n)

/-- Steps over items that do the same one by one do the same together. -/
theorem foldl_congr_of_forall₂ {α β : Type} {f : β → α → β} {R : α → α → Prop} {xs ys : List α}
    (h : List.Forall₂ R xs ys) (hR : ∀ x y, R x y → ∀ b, f b x = f b y) (b : β) :
    xs.foldl f b = ys.foldl f b := by
  induction h generalizing b with
  | nil => rfl
  | cons hhead _ ih => rw [List.foldl_cons, List.foldl_cons, hR _ _ hhead, ih]

theorem withChild_of_sameChild {a b : Value × Slot ν} (h : SameChild source a b)
    (placement : Placement) (p : Pattern) :
    withChild source placement p a = withChild source placement p b := by
  rcases h with rfl | ⟨hname, m, n, hm, hn, hdefm, hdefn, hlocation⟩
  · rfl
  · have hcomponent : componentOf? source a = componentOf? source b := by
      have htarget : ∀ k, Defines source k → ∀ name,
          targetOf source name (source.entries k) = inlineId name := fun k hk name => if_pos hk
      unfold componentOf?
      rw [hm, hn]
      dsimp only
      rw [htarget m hdefm, htarget n hdefn, hname, hlocation]
    unfold withChild
    rw [hcomponent, hname]

theorem withEntry_of_sameEntry {a b : Value × Slot ν} (h : SameEntry source a b) (p : Pattern) :
    withEntry source p a = withEntry source p b := by
  rcases h with rfl | ⟨hkey, ⟨placement, hplacement⟩, m, n, hm, hn, hchildren⟩
  · rfl
  · unfold withEntry
    rw [← hkey, hplacement, hm, hn]
    exact foldl_congr_of_forall₂ hchildren
      (fun x y hxy p => withChild_of_sameChild hxy placement p) p

/-- Apart from the lists of components, such maps have the same fields. -/
theorem field?_of_sameEntries {xs ys : List (Value × Slot ν)}
    (h : List.Forall₂ (SameEntry source) xs ys) {name : String}
    (hname : placementOf? (.str name) = none) : Slot.field? name xs = Slot.field? name ys := by
  have hskip : ∀ key (slot : Slot ν) rest placement, placementOf? key = some placement →
      Slot.field? name ((key, slot) :: rest) = Slot.field? name rest := by
    intro key slot rest placement hkey
    cases key with
    | str s =>
      refine if_neg ?_
      rintro rfl
      rw [hname] at hkey
      cases hkey
    | _ => rfl
  induction h with
  | nil => rfl
  | @cons a b as bs hhead hrest ih =>
    rcases hhead with rfl | ⟨hkey, ⟨placement, hplacement⟩, -⟩
    · obtain ⟨key, slot⟩ := a
      cases key with
      | str s =>
        rw [Slot.field?, Slot.field?, ih]
      | _ => exact ih
    · obtain ⟨key, slot⟩ := a
      obtain ⟨key', slot'⟩ := b
      obtain rfl : key = key' := hkey
      rw [hskip key slot as placement hplacement, hskip key slot' bs placement hplacement, ih]

/-- **What stands within the children that carry a definition does not matter to the pattern.** -/
theorem ownPattern_of_sameOutside {m n : ν} (h : SameOutside source m n) :
    ownPattern source m = ownPattern source n := by
  have hdefinition : Slot.field? "pattern_definition" (source.entries m) = _ :=
    field?_of_sameEntries h rfl
  have hitem : Slot.field? "item_pattern" (source.entries m) = _ := field?_of_sameEntries h rfl
  have hextends : Slot.field? "extends" (source.entries m) = _ := field?_of_sameEntries h rfl
  have hparents : ownParents source m = ownParents source n := by
    rw [ownParents, ownParents, Slot.fieldValue, hextends]
    rfl
  have hfields : ownFields source m = ownFields source n := by
    have hhoisted : definitionOf source (source.entries m) =
        definitionOf source (source.entries n) := by
      unfold definitionOf
      rw [hdefinition]
    unfold ownFields Slot.fieldValue
    dsimp only
    rw [hhoisted, hitem,
      foldl_congr_of_forall₂ h fun x y hxy p => withEntry_of_sameEntry hxy p]
  rw [ownPattern, ownPattern, hfields, hparents]

end Source

end Extract

end LayoutGrammar
