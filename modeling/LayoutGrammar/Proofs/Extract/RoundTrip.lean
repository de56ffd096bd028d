import LayoutGrammar.Proofs.Extract.Walk
import LayoutGrammar.Proofs.Extract.Written
import LayoutGrammar.Proofs.Pattern

/-!
# Written dictionaries read back

The map that a separable pattern is written as defines no further patterns
(`definedBy_dataEntries`) and reads as what tokens and arrays let through (`ownFields_dataEntries`).
Entry by entry this gives what a written dictionary is extracted as (`result_extract_toValue`), and
for a printable one the round trip `extract_toValue`: whatever its patterns are called and whatever
they point at.
-/

namespace LayoutGrammar

open Extract Pattern

/-! ## Properties -/

/-- A key that names no field is the key of a free property. -/
theorem withEntry_property {p : Pattern} {e : Value × Value}
    (h : ∀ name ∈ fieldNames, e.1 ≠ .str name) :
    withEntry .tree p (e.1, e.2.slot) = { p with properties := p.properties.insert e.1 e.2 } := by
  have htext : ∀ name ∈ fieldNames, isText name e.1 = false := fun name hname =>
    Bool.eq_false_iff.2 (mt isText_iff.1 (h name hname))
  have hstructural : isStructural e.1 = false := by
    refine Bool.eq_false_iff.2 (mt isStructural_iff.1 ?_)
    rintro ⟨name, hname, hk⟩
    exact h name (List.mem_cons_of_mem _ (List.mem_cons_of_mem _ hname)) hk
  have hplacement : placementOf? e.1 = none := by
    rw [placementOf?, htext "inner" (by decide), htext "outer" (by decide)]
    rfl
  rw [withEntry_of_free hplacement hstructural, setField, htext "kind" (by decide),
    htext "size" (by decide), Value.value_slot]
  rfl

theorem foldl_withEntry_properties {entries : List (Value × Value)}
    (h : ∀ e ∈ entries, ∀ name ∈ fieldNames, e.1 ≠ .str name) (p : Pattern) :
    (Value.slots entries).foldl (withEntry .tree) p =
      { p with properties := p.properties.insertAll entries } := by
  induction entries generalizing p with
  | nil => rfl
  | cons e rest ih =>
    rw [Value.slots, List.map_cons, List.foldl_cons, withEntry_property (h e List.mem_cons_self)]
    exact ih (fun e he => h e (List.mem_cons_of_mem _ he)) _

/-! ## Components -/

/-- A written component reads back without defining anything. -/
theorem componentOf?_toValue (name : String) (c : Component) :
    componentOf? .tree (.str name, c.toValue.slot) = some c.reread := by
  have htarget : ∀ rest, Value.field? "pattern_definition" rest = none →
      targetOf .tree name (Value.slots ((.str "pattern", .str c.pattern) :: rest)) = c.pattern := by
    intro rest hrest
    have hdefinition : Slot.field? "pattern_definition"
        (Value.slots ((.str "pattern", .str c.pattern) :: rest)) = none := by
      rw [Value.field?_slots, Value.field?_cons_str, if_neg (by decide), hrest]
      rfl
    rw [targetOf, hdefinition, Value.fieldValue_slots Value.value_slot, Value.field?_cons_str,
      if_pos rfl]
    rfl
  have hlocation : ∀ rest,
      locationOf .tree (Value.slots ((.str "pattern", .str c.pattern) :: rest)) =
        Location.lenient ((Value.field? "location" rest).getD .null) := by
    intro rest
    rw [locationOf, Value.fieldValue_slots Value.innerParts_slot, Value.field?_cons_str,
      if_neg (by decide)]
  change some (Component.mk (targetOf .tree name (Value.slots _))
    (locationOf .tree (Value.slots _))) = _
  rw [Component.reread]
  split
  · next hfree =>
    rw [htarget [] rfl, hlocation, Location.isFree_iff.1 hfree]
    rfl
  · rw [htarget _ rfl, hlocation, Value.field?_cons_str, if_pos rfl, Option.getD_some,
      Location.lenient_toValue]

theorem defined_toValue (name : String) (c : Component) :
    defined .tree (.str name, c.toValue.slot) = [] := by
  let rest := if c.location.isFree then [] else [(Value.str "location", c.location.toValue)]
  have hnone : Slot.field? "pattern_definition"
      (Value.slots ((.str "pattern", .str c.pattern) :: rest)) = none := by
    rw [Value.field?_slots, Value.field?_cons_str, if_neg (by decide)]
    dsimp only [rest]
    split <;> rfl
  change (if (Slot.field? "pattern_definition" (Value.slots (_ :: rest))).isSome then _ else _) = _
  rw [hnone]
  rfl

/-- The slots of the children of a written `inner` or `outer` map. -/
theorem slots_components (cs : List (String × Component)) :
    Value.slots (cs.map fun e => (.str e.1, e.2.toValue)) =
      cs.map fun e => (.str e.1, e.2.toValue.slot) := by
  rw [Value.slots, List.map_map]
  rfl

theorem definedIn_components (cs : Table String Component) :
    definedIn .tree (.node (cs.entries.map fun e => (.str e.1, e.2.toValue))) = [] := by
  change (Value.slots _).flatMap (defined .tree) = []
  rw [slots_components, List.flatMap_eq_nil_iff]
  intro child hchild
  obtain ⟨e, -, rfl⟩ := List.mem_map.1 hchild
  exact defined_toValue e.1 e.2

theorem foldl_withChild (placement : Placement) (cs : List (String × Component)) (p : Pattern) :
    (cs.map fun e => (Value.str e.1, e.2.toValue.slot)).foldl (withChild .tree placement) p =
      p.mapComponents placement (·.insertAll (cs.map fun e => (e.1, e.2.reread))) := by
  induction cs generalizing p with
  | nil => cases placement <;> rfl
  | cons e rest ih =>
    rw [List.map_cons, List.foldl_cons, ih, withChild, componentOf?_toValue,
      Pattern.mapComponents_mapComponents]
    rfl

/-! ## Entries of a written pattern -/

section Entries

variable (p q : Pattern)

theorem isGiven_eq_false {v : Value} (h : ¬ v.isGiven = true) : v = .null := by
  cases v <;> first | rfl | exact absurd rfl h

theorem foldl_kindEntry :
    (Value.slots p.kindEntry).foldl (withEntry .tree) .blank =
      { Pattern.blank with kind := p.kind } := by
  unfold kindEntry
  split
  · change withEntry .tree .blank (.str "kind", p.kind.slot) = _
    rw [withEntry_of_free rfl rfl, Value.value_slot]
    rfl
  · next h =>
    rw [isGiven_eq_false h]
    rfl

variable {q} in
theorem foldl_sizeEntry (hq : q.size = .null) (hsize : p.size = .null ∨ ∃ s, p.size = .str s) :
    (Value.slots p.sizeEntry).foldl (withEntry .tree) q = { q with size := p.size } := by
  unfold sizeEntry
  rcases hsize with hsize | ⟨s, hsize⟩
  · have hsame : { q with size := p.size } = q := by rw [hsize, ← hq]
    rw [hsame, hsize]
    rfl
  · rw [hsize]
    change withEntry .tree q (.str "size", .leaf (.str s)) = _
    rw [withEntry_of_free rfl rfl]
    rfl

theorem foldl_itemEntry : (Value.slots p.itemEntry).foldl (withEntry .tree) q = q := by
  unfold itemEntry
  cases p.itemPattern with
  | none => rfl
  | some item =>
    change withEntry .tree q (.str "item_pattern", .leaf (.str item)) = q
    exact withEntry_of_structural rfl rfl q _

theorem foldl_parentsEntry : (Value.slots p.parentsEntry).foldl (withEntry .tree) q = q := by
  unfold parentsEntry
  split
  · rfl
  · change withEntry .tree q (.str "extends", .leaf (.list (p.parents.map .str))) = q
    exact withEntry_of_structural rfl rfl q _

theorem foldl_componentsEntry {placement : Placement}
    (hknown : placementOf? (.str placement.name) = some placement) (cs : Table String Component) :
    (Value.slots (componentsEntry placement cs)).foldl (withEntry .tree) q =
      q.mapComponents placement (·.insertAll (cs.mapValues Component.reread).entries) := by
  unfold componentsEntry
  split
  · next hempty =>
    rw [Table.isEmpty, List.isEmpty_iff] at hempty
    rw [Table.entries_mapValues, hempty]
    cases placement <;> rfl
  · rw [Value.slots, List.map_cons, List.map_nil, List.foldl_cons, List.foldl_nil, withEntry,
      hknown]
    exact (congrArg (List.foldl (withChild .tree placement) q) (slots_components cs.entries)).trans
      (foldl_withChild placement cs.entries q)

theorem field?_itemEntry_of_ne {name : String} (h : "item_pattern" ≠ name) :
    Value.field? name p.itemEntry = none := by
  unfold itemEntry
  cases p.itemPattern with
  | none => rfl
  | some item => exact if_neg h

theorem field?_componentsEntry_of_ne {name : String} {placement : Placement}
    (h : placement.name ≠ name) (cs : Table String Component) :
    Value.field? name (componentsEntry placement cs) = none := by
  unfold componentsEntry
  split
  · rfl
  · exact if_neg h

theorem field?_parentsEntry_of_ne {name : String} (h : "extends" ≠ name) :
    Value.field? name p.parentsEntry = none := by
  unfold parentsEntry
  split
  · rfl
  · exact if_neg h

end Entries

/-! ## Whole patterns -/

section Written

variable {p : Pattern} (h : p.Separable)

include h

/-- Entry by entry, a written pattern gives all but what the walk takes from elsewhere. -/
theorem foldl_dataEntries :
    (Value.slots p.dataEntries).foldl (withEntry .tree) .blank =
      { p with
        inner := p.inner.mapValues Component.reread
        outer := p.outer.mapValues Component.reread
        parents := []
        itemPattern := none } := by
  have hprops : ∀ e ∈ p.properties.entries, ∀ name ∈ fieldNames, e.1 ≠ .str name :=
    fun e he name hname => h.keys name hname e he
  have hall : ∀ {α : Type} [BEq α] {β : Type} (t : Table α β), Table.insertAll ∅ t.entries = t :=
    fun t => Table.ofList_entries t
  rw [dataEntries_eq]
  simp only [Value.slots_append, List.foldl_append]
  rw [foldl_kindEntry, foldl_sizeEntry p rfl h.size, foldl_withEntry_properties hprops,
    foldl_itemEntry, foldl_componentsEntry _ rfl, foldl_componentsEntry _ rfl, foldl_parentsEntry]
  simp only [mapComponents, blank, hall]

theorem field?_dataEntries {name : String} (hname : name ∈ structuralKeys) :
    Value.field? name p.dataEntries =
      (((Value.field? name p.itemEntry).or (Value.field? name (componentsEntry .inner p.inner))).or
        (Value.field? name (componentsEntry .outer p.outer))).or
          (Value.field? name p.parentsEntry) := by
  have hkind : Value.field? name p.kindEntry = none := by
    unfold kindEntry
    split
    · rw [Value.field?_cons_str, if_neg (by rintro rfl; revert hname; decide)]
      rfl
    · rfl
  have hsize : Value.field? name p.sizeEntry = none := by
    unfold sizeEntry
    split
    · rw [Value.field?_cons_str, if_neg (by rintro rfl; revert hname; decide)]
      rfl
    · rfl
  have hprops : Value.field? name p.properties.entries = none := Value.field?_eq_none
    (h.keys name (List.mem_cons_of_mem _ (List.mem_cons_of_mem _ hname)))
  rw [dataEntries_eq]
  simp only [Value.field?_append, hkind, hsize, hprops, Option.none_or]

theorem field?_definition_dataEntries : Value.field? "pattern_definition" p.dataEntries = none := by
  rw [field?_dataEntries h (by decide), field?_itemEntry_of_ne p (by decide),
    field?_componentsEntry_of_ne (by decide), field?_componentsEntry_of_ne (by decide),
    field?_parentsEntry_of_ne p (by decide)]
  rfl

theorem field?_item_dataEntries :
    Value.field? "item_pattern" p.dataEntries = p.itemPattern.map .str := by
  rw [field?_dataEntries h (by decide), field?_componentsEntry_of_ne (by decide),
    field?_componentsEntry_of_ne (by decide), field?_parentsEntry_of_ne p (by decide)]
  simp only [Option.or_none]
  unfold itemEntry
  cases p.itemPattern <;> rfl

theorem field?_extends_dataEntries :
    Value.field? "extends" p.dataEntries =
      if p.parents.isEmpty then none else some (.list (p.parents.map .str)) := by
  rw [field?_dataEntries h (by decide), field?_itemEntry_of_ne p (by decide),
    field?_componentsEntry_of_ne (by decide), field?_componentsEntry_of_ne (by decide)]
  simp only [Option.none_or]
  unfold parentsEntry
  split <;> rfl

/-- All that a written pattern gives by itself. -/
theorem ownFields_dataEntries :
    ownFields .tree p.dataEntries = { p.reread with parents := [] } := by
  have hdefinition : definitionOf .tree (Value.slots p.dataEntries) = [] := by
    rw [definitionOf, Value.field?_slots, field?_definition_dataEntries h]
    rfl
  have hitem : Slot.fieldValue Source.tree.value "item_pattern" (Value.slots p.dataEntries) =
      (p.itemPattern.map Value.str).getD .null := by
    rw [Value.fieldValue_slots Value.value_slot, field?_item_dataEntries h]
  change withItem ((Value.slots p.dataEntries).foldl (withEntry .tree)
    (hoisted (definitionOf .tree (Value.slots p.dataEntries))))
    (Slot.fieldValue Source.tree.value "item_pattern" (Value.slots p.dataEntries)) = _
  rw [hdefinition, hitem]
  change withItem ((Value.slots p.dataEntries).foldl (withEntry .tree) .blank) _ = _
  rw [foldl_dataEntries h, withItem, reread]
  change (if p.isArray && true then _ else _) = _
  rw [Bool.and_true]
  split
  · cases p.itemPattern <;> rfl
  · rfl

theorem ownParents_dataEntries : ownParents .tree p.dataEntries = .ok p.parents := by
  change (Parents.ofValue
    (Slot.fieldValue Source.tree.parts "extends" (Value.slots p.dataEntries))).result = _
  rw [Value.fieldValue_slots Value.parts_slot, field?_extends_dataEntries h]
  split
  · next hempty =>
    rw [List.isEmpty_iff] at hempty
    rw [hempty]
    rfl
  · have htexts : (p.parents.map Value.str).map Value.text = p.parents := by
      rw [List.map_map]
      exact List.map_id _
    change Except.ok ((p.parents.map Value.str).map Value.text) = _
    rw [htexts]

end Written

/-- Only a map of components can define patterns, and a written component defines none. -/
theorem definedAt_dataEntries {p : Pattern} (h : p.Separable) {e : Value × Value}
    (he : e ∈ p.dataEntries) : definedAt .tree (e.1, e.2.slot) = [] := by
  have hplain : placementOf? e.1 = none → definedAt .tree (e.1, e.2.slot) = [] := by
    intro hkey
    unfold definedAt
    rw [hkey]
  rcases mem_dataEntries he with he | ⟨placement, -, cs, he⟩ | ⟨name, hname, hkey⟩
  · have hinner := h.keys "inner" (by decide) e he
    have houter := h.keys "outer" (by decide) e he
    refine hplain ?_
    rw [placementOf?, if_neg (mt isText_iff.1 hinner), if_neg (mt isText_iff.1 houter)]
  · unfold componentsEntry at he
    split at he
    · cases he
    · obtain rfl := List.mem_singleton.1 he
      unfold definedAt
      split
      · exact definedIn_components cs
      · rfl
  · refine hplain ?_
    rw [hkey]
    clear hkey
    revert name
    decide

theorem definedBy_dataEntries {p : Pattern} (h : p.Separable) :
    definedBy .tree p.dataEntries = [] := by
  rw [definedBy, List.flatMap_eq_nil_iff]
  intro entry hentry
  obtain ⟨e, he, rfl⟩ := List.mem_map.1 hentry
  exact definedAt_dataEntries h he

/-! ## Whole dictionaries -/

/-- Entering a written pattern adds it as it reads. -/
theorem enterTop_toValue {p : Pattern} (h : p.Separable) (depth : Nat) {d : Dictionary}
    {id : String} (hnew : d.contains id = false) :
    enterTop .tree (depth + 1) d (.str id, p.toValue.slot) = .ok (d.insert id p.reread) := by
  rw [toValue_of_separable h]
  change (enter .tree (depth + 1) [] id (.node p.dataEntries) d).result = _
  rw [result_enter_node, hnew, definedBy_dataEntries h, ownParents_dataEntries h,
    ownFields_dataEntries h]
  change Except.ok ((d.insert id .blank).insert id p.reread) = _
  rw [Table.insert_insert]

theorem foldlM_enterTop_toValue (depth : Nat) {entries : List (String × Pattern)} {d : Dictionary}
    (h : ∀ e ∈ entries, e.2.Separable) (hdistinct : DistinctKeys (d.entries ++ entries)) :
    (entries.map fun e => (Value.str e.1, e.2.toValue.slot)).foldlM (enterTop .tree (depth + 1)) d =
      .ok (d.insertAll (entries.map fun e => (e.1, e.2.reread))) := by
  induction entries generalizing d with
  | nil => rfl
  | cons e rest ih =>
    have hnew : d.contains e.1 = false := by
      rw [Table.contains_eq_false_iff]
      intro e' he' heq
      have hapart := (List.pairwise_append.1 hdistinct).2.2 e' he' e List.mem_cons_self
      rw [heq, beq_self_eq_true] at hapart
      cases hapart
    have hrest : DistinctKeys ((d.insert e.1 e.2.reread).entries ++ rest) := by
      rw [distinctKeys_iff_nodup] at hdistinct ⊢
      rw [Table.entries_insert_of_new _ fun e' he' =>
        beq_eq_false_iff_ne.2 (Table.contains_eq_false_iff.1 hnew e' he')]
      simpa only [List.map_append, List.map_cons, List.map_nil, List.append_assoc,
        List.cons_append, List.nil_append] using hdistinct
    rw [List.map_cons, List.foldlM_cons, enterTop_toValue (h e List.mem_cons_self) depth hnew,
      ok_bind, ih (fun e he => h e (List.mem_cons_of_mem _ he)) hrest]
    rfl

theorem topEntries_toValue (d : Dictionary) : topEntries .tree d.toValue.slot =
    .ok (d.entries.map fun e => (Value.str e.1, e.2.toValue.slot)) := by
  change Except.ok (Value.slots _) = _
  rw [Value.slots, List.map_map]
  rfl

/-- A written dictionary of separable patterns reads as what tokens and arrays let through. -/
theorem result_extract_toValue {d : Dictionary} (h : ∀ e ∈ d.entries, e.2.Separable) :
    (extract d.toValue).result = .ok (d.mapValues Pattern.reread) := by
  have hdistinct : DistinctKeys ((∅ : Dictionary).entries ++ d.entries) := d.distinct
  rw [extract, result_run, topEntries_toValue, ok_bind,
    foldlM_enterTop_toValue _ h hdistinct, ← Table.entries_mapValues]
  exact congrArg Except.ok (Table.ofList_entries (d.mapValues Pattern.reread))

/-- **A printable dictionary is what it is written as**: reading back its tree succeeds and gives
every pattern with every part of it, in order. Neither what the patterns are called nor what they
point at matters. -/
theorem extract_toValue {d : Dictionary} (h : ∀ e ∈ d.entries, e.2.Printable) :
    (extract d.toValue).result = .ok d := by
  rw [result_extract_toValue fun e he => (h e he).toSeparable,
    Table.mapValues_id fun e he => reread_of_printable (h e he)]

/-- Ids that are keys or look made up, offsets of all forms, an array, and references to nowhere. -/
def oddlyNamed : Dictionary where
  entries := [
    ("patterns", { Pattern.blank with
      kind := .str "cell"
      size := .str "large"
      properties := Table.insert ∅ (.str "note") (.list [.int 1])
      inner := .ofList [
        ("inner", ⟨"x_inline", { Location.free with left := some (.exactly 3) }⟩),
        ("extends", ⟨"nowhere", ⟨some (.atLeast 2), none, some ⟨1, some 4⟩, none⟩⟩)] }),
    ("inner", { Pattern.blank with kind := .str "array", itemPattern := some "nowhere" }),
    ("x_inline", { Pattern.blank with parents := ["patterns", "nowhere"] })]
  distinct := distinctKeys_iff_nodup.2 (by decide)

theorem extract_toValue_oddlyNamed :
    (∀ e ∈ oddlyNamed.entries, e.2.Printable) ∧
      (extract oddlyNamed.toValue).result = .ok oddlyNamed := by
  have hprintable : ∀ e ∈ oddlyNamed.entries, e.2.Printable := by
    intro e he
    simp only [oddlyNamed, List.mem_cons, List.not_mem_nil, or_false] at he
    rcases he with rfl | rfl | rfl
    · refine ⟨⟨.inr ⟨"large", rfl⟩, fun name hname e he hk => ?_⟩, fun l hl side o ho => ?_, nofun⟩
      · obtain rfl := List.mem_singleton.1 he
        obtain rfl := Value.str.inj hk
        exact absurd hname (by decide)
      · have hwell : ∀ e ∈ l.offsets, e.2.WellFormed := by
          clear ho
          revert l
          decide
        exact hwell (side, o) (Location.mem_offsets.2 ho)
    · exact ⟨⟨.inl rfl, fun _ _ e he => nomatch he⟩, fun _ hl => (nomatch hl), fun _ => rfl⟩
    · exact ⟨⟨.inl rfl, fun _ _ e he => nomatch he⟩, fun _ hl => (nomatch hl), nofun⟩
  exact ⟨hprintable, extract_toValue hprintable⟩

end LayoutGrammar
