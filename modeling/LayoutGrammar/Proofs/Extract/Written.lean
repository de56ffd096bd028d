import LayoutGrammar.Pattern.Data
import LayoutGrammar.Pattern.Extract
import LayoutGrammar.Proofs.Constraint.Location
import LayoutGrammar.Proofs.Tree.Fields

/-!
# How a pattern is written

A pattern is written as one flat map, in which its fields, its free properties and its components
stand side by side. As long as no property has the name of a field (`Separable`), no two of them
share a key (`toValue_of_separable`). `reread` is what tokens and arrays let through of a pattern,
and a printable pattern is let through as a whole (`reread_of_printable`).
-/

namespace LayoutGrammar

open Extract

/-! ## What survives being written -/

/-- A component as it reads once it is written. -/
def Component.reread (c : Component) : Component := { c with location := c.location.reread }

namespace Pattern

/-- The names that stand for something other than a free property. -/
def fieldNames : List String := "kind" :: "size" :: structuralKeys

/-- Written as one map, the parts of a pattern do not get in each other's way: its size is a text
or missing, and no property has the name of a field. -/
structure Separable (p : Pattern) : Prop where
  size : p.size = .null ∨ ∃ s, p.size = .str s
  keys : ∀ name ∈ fieldNames, ∀ e ∈ p.properties.entries, e.1 ≠ .str name

/-- A pattern that a written map can express: moreover, its offsets are such that tokens denote
them, and only an array has an item pattern. -/
structure Printable (p : Pattern) : Prop extends p.Separable where
  offsets : ∀ l ∈ p.locations, ∀ side o, l.get side = some o → o.WellFormed
  item : p.itemPattern.isSome = true → p.isArray = true

/-- A pattern as it reads once it is written. -/
def reread (p : Pattern) : Pattern :=
  { p with
    inner := p.inner.mapValues Component.reread
    outer := p.outer.mapValues Component.reread
    itemPattern := if p.isArray then p.itemPattern else none }

theorem reread_of_printable {p : Pattern} (h : p.Printable) : p.reread = p := by
  have hcomponents : ∀ cs : Table String Component, (∀ c ∈ cs.values, c.location ∈ p.locations) →
      cs.mapValues Component.reread = cs := by
    intro cs hcs
    refine Table.mapValues_id fun e he => ?_
    have hl := hcs e.2 (List.mem_map.2 ⟨e, he, rfl⟩)
    rw [Component.reread, Location.reread_of_wellFormed (h.offsets _ hl)]
  have hinner : p.inner.mapValues Component.reread = p.inner := hcomponents _ fun c hc =>
    List.mem_append_left _ (List.mem_map.2 ⟨c, hc, rfl⟩)
  have houter : p.outer.mapValues Component.reread = p.outer := hcomponents _ fun c hc =>
    List.mem_append_right _ (List.mem_map.2 ⟨c, hc, rfl⟩)
  have hitem : (if p.isArray then p.itemPattern else none) = p.itemPattern := by
    split
    · rfl
    · next hkind =>
      cases hp : p.itemPattern with
      | none => rfl
      | some item => exact absurd (h.item (by rw [hp]; rfl)) hkind
  rw [reread, hinner, houter, hitem]

/-! ## The written map -/

/-- The kind as an entry, if there is one. -/
def kindEntry (p : Pattern) : List (Value × Value) :=
  if p.kind.isGiven then [(.str "kind", p.kind)] else []

/-- The size as an entry, if there is one. -/
def sizeEntry (p : Pattern) : List (Value × Value) :=
  if p.size.isGiven then [(.str "size", p.size)] else []

/-- The item pattern as an entry, if there is one. -/
def itemEntry (p : Pattern) : List (Value × Value) :=
  p.itemPattern.elim [] fun item => [(.str "item_pattern", .str item)]

/-- The parents as an entry, if there are any. -/
def parentsEntry (p : Pattern) : List (Value × Value) :=
  if p.parents.isEmpty then [] else [(.str "extends", .list (p.parents.map .str))]

theorem dataEntries_eq (p : Pattern) :
    p.dataEntries = p.kindEntry ++ p.sizeEntry ++ p.properties.entries ++ p.itemEntry ++
      componentsEntry .inner p.inner ++ componentsEntry .outer p.outer ++ p.parentsEntry := rfl

/-- An optional entry contributes its key at most once. -/
theorem keys_optional_sublist {c : Prop} [Decidable c] (k v : Value) :
    ((if c then [(k, v)] else []).map (·.1)).Sublist [k] := by
  split
  · exact List.Sublist.refl _
  · exact List.nil_sublist _

theorem keys_componentsEntry_sublist (placement : Placement) (cs : Table String Component) :
    ((componentsEntry placement cs).map (·.1)).Sublist [.str placement.name] := by
  unfold componentsEntry
  split
  · exact List.nil_sublist _
  · exact List.Sublist.refl _

theorem keys_itemEntry_sublist (p : Pattern) :
    (p.itemEntry.map (·.1)).Sublist [.str "item_pattern"] := by
  unfold itemEntry
  cases p.itemPattern with
  | none => exact List.nil_sublist _
  | some item => exact List.Sublist.refl _

theorem keys_parentsEntry_sublist (p : Pattern) :
    (p.parentsEntry.map (·.1)).Sublist [.str "extends"] := by
  unfold parentsEntry
  split
  · exact List.nil_sublist _
  · exact List.Sublist.refl _

/-- The keys of a written pattern stand in this order, each of them at most once. -/
theorem keys_sublist (p : Pattern) :
    (p.dataEntries.map (·.1)).Sublist
      (["kind", "size"].map .str ++ p.properties.keys ++
        ["item_pattern", "inner", "outer", "extends"].map .str) := by
  have hkind : (p.kindEntry.map (·.1)).Sublist [.str "kind"] := keys_optional_sublist _ _
  have hsize : (p.sizeEntry.map (·.1)).Sublist [.str "size"] := keys_optional_sublist _ _
  have hinner := keys_componentsEntry_sublist .inner p.inner
  have houter := keys_componentsEntry_sublist .outer p.outer
  have hnames : ["kind", "size"].map Value.str ++ p.properties.keys ++
      ["item_pattern", "inner", "outer", "extends"].map Value.str =
      [.str "kind"] ++ [.str "size"] ++ p.properties.keys ++ [.str "item_pattern"] ++
        [.str "inner"] ++ [.str "outer"] ++ [.str "extends"] := by simp
  rw [hnames, dataEntries_eq]
  simp only [List.map_append]
  exact ((((((hkind.append hsize).append (List.Sublist.refl _)).append
    p.keys_itemEntry_sublist).append hinner).append houter).append p.keys_parentsEntry_sublist)

/-- An entry of a written pattern is a property, or a map of components, or one of a fixed name. -/
theorem mem_dataEntries {p : Pattern} {e : Value × Value} (h : e ∈ p.dataEntries) :
    e ∈ p.properties.entries ∨
      (∃ placement ∈ [Placement.inner, .outer], ∃ cs, e ∈ componentsEntry placement cs) ∨
      ∃ name ∈ ["kind", "size", "item_pattern", "extends"], e.1 = .str name := by
  have hnamed : ∀ {name : String} {entries : List (Value × Value)},
      (entries.map (·.1)).Sublist [.str name] → e ∈ entries → e.1 = .str name := fun hkeys he =>
    List.mem_singleton.1 (hkeys.subset (List.mem_map_of_mem he))
  simp only [dataEntries_eq, List.mem_append] at h
  rcases h with (((((h | h) | h) | h) | h) | h) | h
  · exact .inr (.inr ⟨"kind", by decide, hnamed (keys_optional_sublist _ _) h⟩)
  · exact .inr (.inr ⟨"size", by decide, hnamed (keys_optional_sublist _ _) h⟩)
  · exact .inl h
  · exact .inr (.inr ⟨"item_pattern", by decide, hnamed p.keys_itemEntry_sublist h⟩)
  · exact .inr (.inl ⟨.inner, by decide, p.inner, h⟩)
  · exact .inr (.inl ⟨.outer, by decide, p.outer, h⟩)
  · exact .inr (.inr ⟨"extends", by decide, hnamed p.keys_parentsEntry_sublist h⟩)

theorem key_of_mem_componentsEntry {placement : Placement} {cs : Table String Component}
    {e : Value × Value} (h : e ∈ componentsEntry placement cs) : e.1 = .str placement.name :=
  List.mem_singleton.1 ((keys_componentsEntry_sublist placement cs).subset (List.mem_map_of_mem h))

theorem distinctKeys_dataEntries {p : Pattern} (h : p.Separable) : DistinctKeys p.dataEntries := by
  have hprops : p.properties.keys.Pairwise fun a b => (a == b) = false :=
    List.pairwise_map.2 p.properties.distinct
  have hne : ∀ name ∈ ["kind", "size"] ++ ["item_pattern", "inner", "outer", "extends"],
      ∀ k ∈ p.properties.keys, k ≠ .str name := by
    intro name hname k hk
    obtain ⟨e, he, rfl⟩ := List.mem_map.1 hk
    have hfield : name ∈ fieldNames := by
      revert name
      decide
    exact h.keys name hfield e he
  exact List.pairwise_map.1
    ((Value.pairwise_around_names (by decide) hprops hne).sublist p.keys_sublist)

theorem toValue_of_separable {p : Pattern} (h : p.Separable) : p.toValue = .map p.dataEntries := by
  have hd : DistinctKeys ([] ++ p.dataEntries) := distinctKeys_dataEntries h
  rw [toValue, Value.ofEntries, foldl_putEntry hd, List.nil_append]

end Pattern

end LayoutGrammar
