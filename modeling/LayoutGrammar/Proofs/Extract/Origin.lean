import LayoutGrammar.Proofs.Extract.Walk
import LayoutGrammar.Proofs.Tree.Fields

/-!
# Where the parts of a pattern come from

A pattern that was read is gathered from the blank one by few kinds of steps, and
`ownFields_induction` is the induction over them. It gives the form that the parts of every
extracted pattern have (`extracted_of_run`), and that a property with a structural name stems from
the definition, never from the map itself (`mem_definition_of_structural`).
-/

namespace LayoutGrammar

open Extract

namespace Extract

section Source

variable {ν : Type} {source : Source ν}

/-- What holds of the blank pattern and is kept when a field, an item pattern or a component is set
holds of all that a map gives. A field comes from the definition or has no structural name. -/
theorem ownFields_induction {Q : Pattern → Prop} {data : ν} (hblank : Q .blank)
    (hfield : ∀ p (e : Value × Value),
      e ∈ definitionOf source (source.entries data) ∨ isStructural e.1 = false →
        Q p → Q (setField p e.1 e.2))
    (hitem : ∀ p item, Q p → Q { p with itemPattern := item })
    (hcomponent : ∀ p placement child c, componentOf? source child = some c → Q p →
      Q (p.mapComponents placement (·.insert child.1.text c))) : Q (ownFields source data) := by
  have hchildren : ∀ p placement slot, Q p → Q (withChildren source placement p slot) := by
    intro p placement slot hp
    refine List.foldlRecOn _ _ hp fun p hp child _ => ?_
    unfold withChild
    split
    · next c hc => exact hcomponent p placement child c hc hp
    · exact hp
  have hhoisted : Q (hoisted (definitionOf source (source.entries data))) := by
    refine List.foldlRecOn _ _ hblank fun p hp e he => ?_
    unfold setHoisted
    split
    · split
      · exact hitem p _ hp
      · exact hp
    · exact hfield p e (.inl he) hp
  have hentries : Q ((source.entries data).foldl (withEntry source)
      (hoisted (definitionOf source (source.entries data)))) := by
    refine List.foldlRecOn _ _ hhoisted fun p hp e _ => ?_
    unfold withEntry
    split
    · next placement _ => exact hchildren p placement e.2 hp
    · split
      · exact hp
      · next h => exact hfield p (e.1, source.value e.2) (.inr (Bool.eq_false_iff.2 h)) hp
  unfold ownFields withItem
  dsimp only
  split
  · exact hitem _ _ hentries
  · exact hentries

/-- A property with a structural name stems from the definition. -/
theorem mem_definition_of_structural {data : ν} {e : Value × Value}
    (he : e ∈ (ownFields source data).properties.entries) (hkey : isStructural e.1 = true) :
    e ∈ definitionOf source (source.entries data) := by
  obtain ⟨name, hname, hk⟩ := isStructural_iff.1 hkey
  refine ownFields_induction (Q := fun p => ∀ e ∈ p.properties.entries, e.1 = .str name →
    e ∈ definitionOf source (source.entries data)) ?_ ?_ ?_ ?_ e he hk
  · exact fun _ h => nomatch h
  · intro p entry hentry hp e he hk
    unfold setField at he
    split at he
    · exact hp e he hk
    split at he
    · exact hp e he hk
    · rcases Value.mem_putEntry_str he hk with he | rfl
      · exact hp e he hk
      · refine hentry.resolve_right fun hfree => ?_
        rw [isStructural_iff.2 ⟨name, hname, hk⟩] at hfree
        cases hfree
  · exact fun _ _ hp => hp
  · intro p placement child c _ hp
    cases placement <;> exact hp

end Source

end Extract

/-! ## What extracted patterns are like -/

/-- What the parts of an extracted pattern are like: the size is a text or missing, no property is
called like the kind or the size, and no offset ends below its start. -/
structure Pattern.Extracted (p : Pattern) : Prop where
  size : p.size = .null ∨ ∃ s, p.size = .str s
  keys : ∀ name ∈ ["kind", "size"], ∀ e ∈ p.properties.entries, e.1 ≠ .str name
  offsets : ∀ l ∈ p.locations, ∀ side o, l.get side = some o → o.Ordered

namespace Extract

theorem extracted_blank : Pattern.blank.Extracted :=
  ⟨.inl rfl, fun _ _ _ h => (nomatch h), fun _ h => nomatch h⟩

theorem extracted_setField {p : Pattern} (h : p.Extracted) (key value : Value) :
    (setField p key value).Extracted := by
  unfold setField
  split
  · exact ⟨h.size, h.keys, h.offsets⟩
  · next hkind =>
    split
    · refine ⟨?_, h.keys, h.offsets⟩
      cases textOf? value with
      | none => exact .inl rfl
      | some s => exact .inr ⟨s, rfl⟩
    · next hsize =>
      refine ⟨h.size, fun name hname e he hk => ?_, h.offsets⟩
      rcases Value.mem_putEntry_str he hk with he | rfl
      · exact h.keys name hname e he hk
      · rcases List.mem_pair.1 hname with rfl | rfl
        · exact hkind (isText_iff.2 hk)
        · exact hsize (isText_iff.2 hk)

/-- Components with ordered offsets keep all offsets ordered. -/
theorem extracted_mapComponents {p : Pattern} (h : p.Extracted) (placement : Placement)
    (name : String) {c : Component} (hc : ∀ side o, c.location.get side = some o → o.Ordered) :
    (p.mapComponents placement (·.insert name c)).Extracted := by
  have hinsert : ∀ cs : Table String Component, ∀ l ∈ (cs.insert name c).values.map (·.location),
      l ∈ cs.values.map (·.location) ∨ l = c.location := by
    intro cs l hl
    simp only [Table.values, List.map_map, List.mem_map] at hl ⊢
    obtain ⟨e, he, rfl⟩ := hl
    rcases mem_putEntry he with he | ⟨he, -⟩
    · exact .inl ⟨e, he, rfl⟩
    · exact .inr (congrArg Component.location he)
  refine ⟨?_, ?_, fun l hl side o ho => ?_⟩
  · cases placement <;> exact h.size
  · cases placement <;> exact h.keys
  · have hl : l ∈ p.locations ∨ l = c.location := by
      cases placement with
      | inner =>
        rcases List.mem_append.1 hl with hl | hl
        · exact (hinsert _ l hl).imp_left (List.mem_append_left _)
        · exact .inl (List.mem_append_right _ hl)
      | outer =>
        rcases List.mem_append.1 hl with hl | hl
        · exact .inl (List.mem_append_left _ hl)
        · exact (hinsert _ l hl).imp_left (List.mem_append_right _)
      | other _ => exact .inl hl
    rcases hl with hl | rfl
    · exact h.offsets l hl side o ho
    · exact hc side o ho

section Source

variable {ν : Type} {source : Source ν}

theorem ordered_of_componentOf? {child : Value × Slot ν} {c : Component}
    (h : componentOf? source child = some c) {side : Side} {o : Offset}
    (ho : c.location.get side = some o) : o.Ordered := by
  unfold componentOf? at h
  split at h
  · obtain rfl := Option.some.inj h
    cases side <;> cases ho
  · cases h
  · cases h
  · obtain rfl := Option.some.inj h
    exact Location.ordered_of_lenient ho

theorem extracted_of_reads {data : ν} {p : Pattern} (h : Reads source data p) : p.Extracted := by
  obtain ⟨parents, -, rfl⟩ := h
  have hown : (ownFields source data).Extracted := by
    refine ownFields_induction (Q := Pattern.Extracted) extracted_blank ?_ ?_ ?_
    · exact fun p e _ hp => extracted_setField hp e.1 e.2
    · exact fun p item hp => ⟨hp.size, hp.keys, hp.offsets⟩
    · exact fun p placement child c hc hp =>
        extracted_mapComponents hp placement _ fun _ _ => ordered_of_componentOf? hc
  exact ⟨hown.size, hown.keys, hown.offsets⟩

/-- Every pattern of an extracted dictionary has parts of this form. -/
theorem extracted_of_run {depth : Nat} {root : Slot ν} {d : Dictionary}
    (h : (run source depth root).result = .ok d) : ∀ e ∈ d.entries, e.2.Extracted :=
  forall_of_run extracted_blank (fun _ _ => extracted_of_reads) h

end Source

end Extract

end LayoutGrammar
