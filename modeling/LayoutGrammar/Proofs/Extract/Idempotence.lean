import LayoutGrammar.Proofs.Extract.Origin
import LayoutGrammar.Proofs.Extract.RoundTrip
import LayoutGrammar.Proofs.Tree.Alike

/-!
# Extracting what was extracted

An extracted dictionary that is written and extracted once more comes out the same exactly when all
its patterns are `Rereadable`: no property has a structural name, no offset is negative, and only
arrays have item patterns (`reextract_iff_rereadable`). Extraction itself promises none of the
three: a definition may put all of them into a pattern.

Written, a property with a structural name is taken for what the name stands for. The only one that
can come back as a property is `pattern_definition`, and what it holds is then less deep than before
(`not_alike_of_structural`).
-/

namespace LayoutGrammar

open Extract

/-! ## Rereadable patterns -/

/-- What reading a written pattern back needs and extraction does not promise. -/
structure Pattern.Rereadable (p : Pattern) : Prop where
  keys : ∀ e ∈ p.properties.entries, isStructural e.1 = false
  offsets : ∀ l ∈ p.locations, ∀ side o, l.get side = some o → 0 ≤ o.min
  item : p.itemPattern.isSome = true → p.isArray = true

/-- All patterns of a dictionary are rereadable. -/
def Dictionary.Rereadable (d : Dictionary) : Prop := ∀ e ∈ d.entries, e.2.Rereadable

namespace Pattern

variable {p q : Pattern}

theorem Extracted.separable (hp : p.Extracted)
    (hkeys : ∀ e ∈ p.properties.entries, isStructural e.1 = false) : p.Separable := by
  refine ⟨hp.size, fun name hname e he hk => ?_⟩
  have hsplit : name ∈ ["kind", "size"] ∨ name ∈ structuralKeys := List.mem_append.1 hname
  rcases hsplit with hname | hname
  · exact hp.keys name hname e he hk
  · have hstructural := isStructural_iff.2 ⟨name, hname, hk⟩
    rw [hkeys e he] at hstructural
    cases hstructural

theorem Extracted.printable (hp : p.Extracted) (h : p.Rereadable) : p.Printable where
  toSeparable := hp.separable h.keys
  offsets := fun l hl side o ho => ⟨h.offsets l hl side o ho, hp.offsets l hl side o ho⟩
  item := h.item

/-! ## Other differences -/

theorem sameComponents_reread {cs : Table String Component}
    (h : sameComponents cs (cs.mapValues Component.reread) = true) :
    ∀ c ∈ cs.values, ∀ side o, c.location.get side = some o → 0 ≤ o.min := by
  intro c hc side o ho
  obtain ⟨e, he, rfl⟩ := List.mem_map.1 hc
  rw [sameComponents, Bool.and_eq_true, List.all_eq_true] at h
  have hsame := h.2 e he
  rw [beq_iff_eq, Table.get?_mapValues, Table.get?_eq_some_iff.2 he, Option.map_some] at hsame
  have hlocation : e.2.location.reread = e.2.location :=
    congrArg Component.location (Option.some.inj hsame)
  rw [← hlocation, Location.reread, Sides.get_map, Option.map_eq_some_iff] at ho
  obtain ⟨o', -, rfl⟩ := ho
  exact (Location.wellFormed_rereadOffset o').1

/-- What tokens and arrays let through differs from what they do not. -/
theorem rereadable_of_alike_reread (hkeys : ∀ e ∈ p.properties.entries, isStructural e.1 = false)
    (h : p.alike p.reread = true) : p.Rereadable := by
  unfold alike at h
  simp only [Bool.and_eq_true, and_assoc] at h
  obtain ⟨-, -, -, hinner, houter, -, hitem⟩ := h
  refine ⟨hkeys, fun l hl side o ho => ?_, fun hsome => ?_⟩
  · rcases List.mem_append.1 hl with hl | hl
    · obtain ⟨c, hc, rfl⟩ := List.mem_map.1 hl
      exact sameComponents_reread hinner c hc side o ho
    · obtain ⟨c, hc, rfl⟩ := List.mem_map.1 hl
      exact sameComponents_reread houter c hc side o ho
  · have hreread : p.reread.itemPattern = if p.isArray then p.itemPattern else none := rfl
    rw [hreread, beq_iff_eq] at hitem
    cases harray : p.isArray with
    | true => rfl
    | false =>
      rw [harray] at hitem
      rw [hitem] at hsome
      cases hsome

/-! ## Properties with structural names -/

/-- The entries of the map that a pattern is written as. -/
def written (p : Pattern) : List (Value × Value) :=
  p.dataEntries.foldl (fun m e => putEntry e.1 e.2 m) []

/-- Only a property is written under the name of a definition. -/
theorem mem_properties_of_written {v : Value} (h : (.str "pattern_definition", v) ∈ p.written) :
    (.str "pattern_definition", v) ∈ p.properties.entries := by
  have hdata : (.str "pattern_definition", v) ∈ p.dataEntries :=
    (Value.mem_of_mem_foldl_putEntry h rfl).resolve_left (fun h => nomatch h)
  rcases mem_dataEntries hdata with h | ⟨placement, hplacement, cs, h⟩ | ⟨name, hname, h⟩
  · exact h
  · have hkey := Value.str.inj (key_of_mem_componentsEntry h)
    rcases List.mem_pair.1 hplacement with rfl | rfl
    · exact absurd hkey (by decide)
    · exact absurd hkey (by decide)
  · obtain rfl := Value.str.inj h
    exact absurd hname (by decide)

/-- A definition in a plain tree holds an entry of the map under its name. -/
theorem definition_of_mem {entries : List (Value × Value)} {e : Value × Value}
    (h : e ∈ definitionOf .tree (Value.slots entries)) :
    ∃ definition, (.str "pattern_definition", .map definition) ∈ entries ∧ e ∈ definition := by
  unfold definitionOf at h
  rw [Value.field?_slots] at h
  cases hfield : Value.field? "pattern_definition" entries with
  | none =>
    rw [hfield] at h
    cases h
  | some v =>
    rw [hfield] at h
    cases v with
    | map definition =>
      refine ⟨definition, Value.mem_of_field? hfield, ?_⟩
      obtain ⟨slot, hslot, rfl⟩ := List.mem_map.1 h
      obtain ⟨e, he, rfl⟩ := List.mem_map.1 hslot
      rwa [Value.value_slot]
    | _ => cases h

/-- A pattern that has a property with a structural name never reads back as itself. -/
theorem not_alike_of_structural (hq : Reads .tree p.written q) {e : Value × Value}
    (he : e ∈ p.properties.entries) (hkey : isStructural e.1 = true) : p.alike q = false := by
  rw [← Bool.not_eq_true]
  intro hsame
  unfold alike at hsame
  simp only [Bool.and_eq_true, and_assoc] at hsame
  obtain ⟨-, -, hproperties, -⟩ := hsame
  obtain ⟨parents, -, rfl⟩ := hq
  -- Under a structural name, all that `q` holds stems from the definition `p` was written with.
  have hstems : ∀ {name : String} {v : Value}, isStructural (.str name) = true →
      (.str name, v) ∈ p.properties.entries → ∃ definition v',
        (.str "pattern_definition", .map definition) ∈ p.properties.entries ∧
          (.str name, v') ∈ definition ∧ v.alike v' = true := by
    intro name v hname hv
    obtain ⟨v', hv', halike⟩ := Value.exists_entry_of_alike hproperties hv
    obtain ⟨definition, hdefinition, hmem⟩ :=
      definition_of_mem (mem_definition_of_structural hv' hname)
    exact ⟨definition, v', mem_properties_of_written hdefinition, hmem, halike⟩
  obtain ⟨name, hname, hk⟩ := isStructural_iff.1 hkey
  obtain ⟨k, v⟩ := e
  obtain rfl : k = .str name := hk
  obtain ⟨definition, -, hdefinition, -, -⟩ := hstems hkey he
  -- The definition would have to hold a value that is as deep as itself.
  obtain ⟨definition', v', hdefinition', hmem, halike⟩ := hstems rfl hdefinition
  have hunique := Value.field?_of_mem p.properties.distinct hdefinition
  rw [Value.field?_of_mem p.properties.distinct hdefinition'] at hunique
  obtain rfl := Value.map.inj (Option.some.inj hunique)
  have hbelow := Value.le_heightEntries hmem
  have habove := Value.height_le_of_alike halike
  rw [Value.height] at habove
  exact absurd (Nat.le_trans habove hbelow) (Nat.not_succ_le_self _)

end Pattern

/-! ## Whole dictionaries -/

theorem Dictionary.alike_pattern {d d' : Dictionary} (h : d.alike d' = true) {e : String × Pattern}
    (he : e ∈ d.entries) : ∃ q, d'.get? e.1 = some q ∧ e.2.alike q = true := by
  rw [Dictionary.alike, Bool.and_eq_true, List.all_eq_true] at h
  have hany := h.2 e he
  rw [Option.any_eq_true] at hany
  exact hany

/-- Every pattern of a written dictionary that is extracted is found under its id. -/
theorem get?_of_extract_toValue {d d' : Dictionary} (h : (extract d.toValue).result = .ok d')
    {e : String × Pattern} (he : e ∈ d.entries) :
    ∃ q, Reads .tree e.2.written q ∧ d'.get? e.1 = some q := by
  rw [extract, result_run, topEntries_toValue, ok_bind] at h
  have hmem : (Value.str e.1, Slot.node e.2.written) ∈
      d.entries.map fun e => (Value.str e.1, e.2.toValue.slot) :=
    List.mem_map.2 ⟨e, he, rfl⟩
  exact get?_of_foldlM_enterTop h hmem

/-- **Extraction is idempotent on rereadable dictionaries and on no others.** If all patterns of an
extracted dictionary are rereadable, then extracting what it is written as gives it back. If one of
them is not, then whatever comes back is a different dictionary. -/
theorem reextract_iff_rereadable {tree : Value} {d : Dictionary}
    (h : (extract tree).result = .ok d) :
    (d.Rereadable → (extract d.toValue).result = .ok d) ∧
      (¬ d.Rereadable → ∀ d', (extract d.toValue).result = .ok d' → d.alike d' = false) := by
  have hextracted : ∀ e ∈ d.entries, e.2.Extracted := extracted_of_run h
  constructor
  · intro hreread
    rw [result_extract_toValue fun e he => (hextracted e he).separable (hreread e he).keys,
      Table.mapValues_id fun e he =>
        Pattern.reread_of_printable ((hextracted e he).printable (hreread e he))]
  · intro hnot d' hd'
    rw [← Bool.not_eq_true]
    intro hsame
    by_cases hnamed : ∃ e ∈ d.entries, ∃ x ∈ e.2.properties.entries, isStructural x.1 = true
    · obtain ⟨e, he, x, hx, hkey⟩ := hnamed
      obtain ⟨q, hq, hget⟩ := get?_of_extract_toValue hd' he
      obtain ⟨q', hget', halike⟩ := Dictionary.alike_pattern hsame he
      rw [hget] at hget'
      obtain rfl := Option.some.inj hget'
      rw [Pattern.not_alike_of_structural hq hx hkey] at halike
      cases halike
    · have hkeys : ∀ e ∈ d.entries, ∀ x ∈ e.2.properties.entries, isStructural x.1 = false :=
        fun e he x hx => Bool.eq_false_iff.2 fun hkey => hnamed ⟨e, he, x, hx, hkey⟩
      refine hnot fun e he => Pattern.rereadable_of_alike_reread (hkeys e he) ?_
      rw [result_extract_toValue fun e he => (hextracted e he).separable (hkeys e he)] at hd'
      obtain rfl := Except.ok.inj hd'
      obtain ⟨q, hq, halike⟩ := Dictionary.alike_pattern hsame he
      rw [Table.get?_mapValues, Table.get?_eq_some_iff.2 he] at hq
      obtain rfl := Option.some.inj hq
      exact halike

/-- A definition that holds a structural name. -/
def hoistedInner : Value :=
  .map [(.str "p", .map [(.str "pattern_definition", .map [(.str "inner", .int 5)])])]

/-- The dictionary of `hoistedInner`: the name has become a property. -/
def hoistedInnerPatterns : Dictionary :=
  Table.insert ∅ "p" { Pattern.blank with properties := Table.insert ∅ (.str "inner") (.int 5) }

theorem reextract_hoistedInner :
    (extract hoistedInner).result = .ok hoistedInnerPatterns ∧ ¬ hoistedInnerPatterns.Rereadable ∧
      (extract hoistedInnerPatterns.toValue).result = .ok (Table.insert ∅ "p" .blank) ∧
        hoistedInnerPatterns.alike (Table.insert ∅ "p" .blank) = false := by
  have hextract : (extract hoistedInner).result = .ok hoistedInnerPatterns := rfl
  have hagain : (extract hoistedInnerPatterns.toValue).result =
      .ok (Table.insert ∅ "p" .blank) := rfl
  have hnot : ¬ hoistedInnerPatterns.Rereadable := by
    intro h
    have hkey := (h _ List.mem_cons_self).keys _ List.mem_cons_self
    revert hkey
    decide
  exact ⟨hextract, hnot, hagain, (reextract_iff_rereadable hextract).2 hnot _ hagain⟩

end LayoutGrammar
