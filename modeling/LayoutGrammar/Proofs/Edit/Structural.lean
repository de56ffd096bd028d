import LayoutGrammar.Proofs.Edit.Renamed
import LayoutGrammar.Proofs.Extract.Flatten

/-!
# Properties with structural names

A property with a structural name is written beside the structure of that name and read back as
structure. Extraction gives a pattern such a property exactly if the definition of its map has the
key, `item_pattern` apart (`hasProperty_ownPattern`), and the only edits that add one are updates
that set a field of that name (`hasProperty_apply_iff`), which the names with edits of their own
cannot be. Along a session there is none exactly if neither of the two happens
(`structural_session_iff`).
-/

namespace LayoutGrammar

open Extract Logged

/-- A pattern has a property of a name. -/
def Pattern.HasProperty (p : Pattern) (name : String) : Prop := .str name ∈ p.properties.keys

def Dictionary.HasProperty (d : Dictionary) (name : String) : Prop :=
  ∃ e ∈ d.entries, e.2.HasProperty name

theorem not_text_of_structural {name : String} (h : name ∈ structuralKeys) :
    name ≠ "kind" ∧ name ≠ "size" := by
  revert name
  decide

theorem Pattern.not_hasProperty_of_empty {p : Pattern} (h : p.properties = ∅) (name : String) :
    ¬ p.HasProperty name := by
  rw [HasProperty, h]
  exact List.not_mem_nil

/-! ## Extracted properties -/

/-- A fold ends with what one of its steps adds, or with what was there before. -/
theorem foldl_or_iff {σ α : Type} {f : σ → α → σ} {P : σ → Prop} {A : α → Prop}
    (h : ∀ s a, P (f s a) ↔ A a ∨ P s) (s : σ) (items : List α) :
    P (items.foldl f s) ↔ (∃ a ∈ items, A a) ∨ P s := by
  induction items generalizing s with
  | nil => simp
  | cons a rest ih =>
    rw [List.foldl_cons, ih, h, List.exists_mem_cons_iff, ← or_assoc, or_comm (a := A a)]

namespace Extract

variable {name : String}

theorem hasProperty_setField (hname : name ∈ structuralKeys) (p : Pattern) (key value : Value) :
    (setField p key value).HasProperty name ↔ key = .str name ∨ p.HasProperty name := by
  obtain ⟨hkind, hsize⟩ := not_text_of_structural hname
  unfold setField
  split
  · next hkey =>
    rw [isText_iff.1 hkey, Value.str.injEq, or_iff_right (Ne.symm hkind)]
    rfl
  split
  · next hkey =>
    rw [isText_iff.1 hkey, Value.str.injEq, or_iff_right (Ne.symm hsize)]
    rfl
  · exact Value.str_mem_keys_putEntry

theorem hasProperty_hoisted (hname : name ∈ structuralKeys) (definition : List (Value × Value)) :
    (hoisted definition).HasProperty name ↔
      name ≠ "item_pattern" ∧ ∃ e ∈ definition, e.1 = .str name := by
  have hstep : ∀ isArray p (e : Value × Value), (setHoisted isArray p e).HasProperty name ↔
      (name ≠ "item_pattern" ∧ e.1 = .str name) ∨ p.HasProperty name := by
    intro isArray p e
    unfold setHoisted
    split
    · next hitem =>
      have hnot : ¬ (name ≠ "item_pattern" ∧ e.1 = .str name) := by
        rintro ⟨hne, hkey⟩
        rw [isText_iff.1 hitem] at hkey
        exact hne (Value.str.inj hkey).symm
      rw [or_iff_right hnot]
      split <;> rfl
    · next hitem =>
      rw [hasProperty_setField hname]
      refine or_congr_left ⟨fun hkey => ⟨?_, hkey⟩, And.right⟩
      rintro rfl
      exact hitem (isText_iff.2 hkey)
  have hblank := Pattern.blank.not_hasProperty_of_empty rfl name
  unfold hoisted
  rw [foldl_or_iff (P := fun p : Pattern => p.HasProperty name) (hstep _), or_iff_left hblank]
  simp only [exists_and_left, and_left_comm]

section Source

variable {ν : Type} {source : Source ν}

theorem hasProperty_withEntry (hname : name ∈ structuralKeys) (p : Pattern) (e : Value × Slot ν) :
    (withEntry source p e).HasProperty name ↔ p.HasProperty name := by
  refine iff_of_eq (part_withEntry (fun p : Pattern => p.HasProperty name)
    (fun p placement f => ?_) fun hfree => propext ?_)
  · rw [Pattern.HasProperty, Pattern.properties_mapComponents]
    rfl
  · rw [hasProperty_setField hname, or_iff_right]
    intro hkey
    rw [isStructural_iff.2 ⟨name, hname, hkey⟩] at hfree
    cases hfree

variable (source) in
/-- The definition of a map makes a property of a name. -/
def Hoists (name : String) (data : ν) : Prop :=
  name ≠ "item_pattern" ∧ ∃ e ∈ definitionOf source (source.entries data), e.1 = .str name

theorem hasProperty_ownPattern (hname : name ∈ structuralKeys) (data : ν) :
    (ownPattern source data).HasProperty name ↔ Hoists source name data := by
  have hitem : ∀ p raw, (withItem p raw).HasProperty name ↔ p.HasProperty name := by
    intro p raw
    unfold withItem
    split <;> rfl
  rw [Hoists, ← hasProperty_hoisted hname]
  refine (hitem _ _).trans ?_
  refine List.foldlRecOn (motive := fun p : Pattern => p.HasProperty name ↔ _) _ _ Iff.rfl ?_
  exact fun p hp e _ => (hasProperty_withEntry hname p e).trans hp

theorem hasProperty_of_entries {listed : List (String × ν)} {d : Dictionary}
    (hname : name ∈ structuralKeys)
    (h : d.entries = listed.map fun e => (e.1, ownPattern source e.2)) :
    d.HasProperty name ↔ ∃ e ∈ listed, Hoists source name e.2 := by
  rw [Dictionary.HasProperty, h]
  constructor
  · rintro ⟨_, hmem, hkey⟩
    obtain ⟨e, he, rfl⟩ := List.mem_map.1 hmem
    exact ⟨e, he, (hasProperty_ownPattern hname e.2).1 hkey⟩
  · rintro ⟨e, he, hkey⟩
    exact ⟨_, List.mem_map_of_mem he, (hasProperty_ownPattern hname e.2).2 hkey⟩

end Source

end Extract

/-! ## Edits -/

namespace Dictionary

variable {name : String}

theorem hasProperty_updateField {p p' : Pattern} {field : String × Value}
    (hname : name ∈ structuralKeys) (h : updateField p field = .ok p') :
    p'.HasProperty name ↔
      if field.1 = name then field.2.isGiven = true else p.HasProperty name := by
  obtain ⟨hkind, hsize⟩ := not_text_of_structural hname
  unfold updateField at h
  split at h
  · next hfield =>
    rw [← Except.ok.inj h, if_neg (hfield ▸ Ne.symm hkind)]
    rfl
  split at h
  · next hfield =>
    rw [← Except.ok.inj h, if_neg (hfield ▸ Ne.symm hsize)]
    rfl
  split at h
  · cases h
  split at h
  · next hgiven =>
    rw [← Except.ok.inj h]
    refine Value.str_mem_keys_putEntry.trans ?_
    rw [Value.str.injEq]
    split
    · next hfield => simp [hfield, hgiven]
    · next hfield => exact or_iff_right hfield
  · next hmissing =>
    rw [← Except.ok.inj h]
    refine (Value.str_mem_keys_dropEntry p.properties.distinct).trans ?_
    split
    · next hfield => simp [hfield, hmissing]
    · next hfield => exact and_iff_right hfield

/-- Of the fields of one name, the last one counts. -/
theorem hasProperty_updateFields {fields : List (String × Value)} {p p' : Pattern}
    (hname : name ∈ structuralKeys) (h : fields.foldlM updateField p = .ok p') :
    p'.HasProperty name ↔
      (valueAt? name fields.reverse).elim (p.HasProperty name) (·.isGiven = true) := by
  induction fields using List.reverseRecOn generalizing p' with
  | nil =>
    rw [← Except.ok.inj h]
    rfl
  | append_singleton fields field ih =>
    rw [List.foldlM_append] at h
    obtain ⟨q, hq, hstep⟩ := except_bind_ok.1 h
    simp only [List.foldlM_cons, List.foldlM_nil, bind_pure] at hstep
    rw [hasProperty_updateField hname hstep, List.reverse_append, List.reverse_singleton,
      List.singleton_append, valueAt?]
    by_cases hfield : field.1 = name
    · rw [if_pos hfield, if_pos (beq_iff_eq.2 hfield)]
      rfl
    · rw [if_neg hfield, if_neg (mt eq_of_beq hfield), ih hq]

theorem not_separate_of_updateField {p p' : Pattern} {field : String × Value}
    (h : updateField p field = .ok p') : field.1 ∉ separateFields := by
  intro hmem
  obtain ⟨hkind, hsize⟩ : field.1 ≠ "kind" ∧ field.1 ≠ "size" := by
    revert hmem
    generalize field.1 = name
    revert name
    decide
  unfold updateField at h
  rw [if_neg hkind, if_neg hsize, if_pos (List.contains_iff_mem.2 hmem)] at h
  cases h

theorem not_separate_of_updateFields {fields : List (String × Value)} {p p' : Pattern}
    (h : fields.foldlM updateField p = .ok p') : ∀ field ∈ fields, field.1 ∉ separateFields := by
  induction fields generalizing p with
  | nil => exact fun _ hfield => nomatch hfield
  | cons field rest ih =>
    rw [List.foldlM_cons] at h
    obtain ⟨q, hq, hrest⟩ := except_bind_ok.1 h
    exact List.forall_mem_cons.2 ⟨not_separate_of_updateField hq, ih hrest⟩

theorem hasProperty_insert_iff {d : Dictionary} (hd : ¬ d.HasProperty name) (id : String)
    (p : Pattern) : HasProperty (d.insert id p) name ↔ p.HasProperty name := by
  constructor
  · rintro ⟨e, he, hkey⟩
    rcases mem_putEntry he with he | ⟨he, -⟩
    · exact absurd ⟨e, he, hkey⟩ hd
    · rwa [he] at hkey
  · intro hkey
    exact ⟨(id, p), Table.get?_eq_some_iff.1 (Table.get?_insert_self d id p), hkey⟩

end Dictionary

namespace Edit

variable {name : String} {d d' : Dictionary}

/-- An update that gives a pattern a property of a name. -/
def Sets (name : String) (d : Dictionary) : Edit → Prop
  | .update id fields => (∃ d', (d.update id fields).result = .ok d') ∧
      ∃ value, valueAt? name fields.reverse = some value ∧ value.isGiven = true
  | _ => False

theorem Sets.isOk {e : Edit} (h : e.Sets name d) : ∃ d', (e.apply d).result = .ok d' := by
  cases e with
  | update id fields => exact h.1
  | _ => cases h

/-- Names with edits of their own are never set by an update. -/
theorem not_sets_of_separate {e : Edit} (hname : name ∈ Dictionary.separateFields) :
    ¬ e.Sets name d := by
  intro h
  cases e with
  | update id fields =>
    obtain ⟨⟨d', hresult⟩, value, hvalue, -⟩ := h
    obtain ⟨-, p, p', -, hfields, -⟩ := Dictionary.result_update_iff.1 hresult
    have hfield := List.mem_reverse.1 (mem_of_valueAt? hvalue)
    exact Dictionary.not_separate_of_updateFields hfields _ hfield hname
  | _ => cases h

/-- Updates apart, edits take the properties of all patterns from those before. -/
theorem properties_of_apply {e : Edit} (h : (e.apply d).result = .ok d')
    (he : ∀ id fields, e ≠ .update id fields) :
    ∀ x ∈ d'.entries, x.2.properties = ∅ ∨ ∃ y ∈ d.entries, x.2.properties = y.2.properties := by
  let Q (q : Pattern) : Prop := q.properties = ∅ ∨ ∃ y ∈ d.entries, q.properties = y.2.properties
  have hold : ∀ y ∈ d.entries, Q y.2 := fun y hy => .inr ⟨y, hy, rfl⟩
  by_cases hrename : ∃ old raw, e = .rename old raw
  · obtain ⟨old, raw, rfl⟩ := hrename
    obtain ⟨-, new, -, hcase⟩ := Dictionary.result_rename_iff.1 h
    rcases hcase with ⟨-, rfl⟩ | ⟨-, hnew, rfl⟩
    · exact hold
    · intro x hx
      rw [Dictionary.entries_renamed hnew] at hx
      obtain ⟨y, hy, rfl⟩ := List.mem_map.1 hx
      exact .inr ⟨y, hy, rfl⟩
  by_cases hremove : ∃ id, e = .remove id
  · obtain ⟨id, rfl⟩ := hremove
    obtain ⟨-, rfl⟩ := Dictionary.result_remove_iff.1 h
    exact fun x hx => hold x (mem_dropEntry hx)
  rcases written_of_apply h (fun old raw heq => hrename ⟨old, raw, heq⟩)
    (fun id heq => hremove ⟨id, heq⟩) with ⟨id, kind, rfl⟩ | ⟨id, p, p', hp, hchanges, rfl⟩
  · exact forall_of_insert (Q := Q) (.inl rfl) hold
  · have hsame : p'.properties = p.properties := by
      cases hchanges with
      | fields => exact absurd rfl (he _ _)
      | components placement f => exact Pattern.properties_mapComponents p placement f
      | _ => rfl
    exact forall_of_insert (Q := Q) (.inr ⟨_, Table.get?_eq_some_iff.1 hp, hsame⟩) hold

theorem hasProperty_apply_iff {e : Edit} (hname : name ∈ structuralKeys)
    (hd : ¬ d.HasProperty name) (h : (e.apply d).result = .ok d') :
    d'.HasProperty name ↔ e.Sets name d := by
  by_cases hupdate : ∃ id fields, e = .update id fields
  · obtain ⟨id, fields, rfl⟩ := hupdate
    obtain ⟨-, p, p', hp, hfields, rfl⟩ := Dictionary.result_update_iff.1 h
    have hbefore : ¬ p.HasProperty name := fun hkey =>
      hd ⟨(id, p), Table.get?_eq_some_iff.1 hp, hkey⟩
    rw [Dictionary.hasProperty_insert_iff hd, Dictionary.hasProperty_updateFields hname hfields]
    constructor
    · intro hlast
      cases hvalue : valueAt? name fields.reverse with
      | none =>
        rw [hvalue] at hlast
        exact absurd hlast hbefore
      | some value =>
        rw [hvalue] at hlast
        exact ⟨⟨_, h⟩, value, hvalue, hlast⟩
    · rintro ⟨-, value, hvalue, hgiven⟩
      rw [hvalue]
      exact hgiven
  · have hother : ∀ id fields, e ≠ .update id fields := fun id fields heq =>
      hupdate ⟨id, fields, heq⟩
    constructor
    · rintro ⟨x, hx, hkey⟩
      rcases properties_of_apply h hother x hx with hempty | ⟨y, hy, hsame⟩
      · exact absurd hkey (Pattern.not_hasProperty_of_empty hempty name)
      · rw [Pattern.HasProperty, hsame] at hkey
        exact absurd ⟨y, hy, hkey⟩ hd
    · intro hsets
      cases e with
      | update id fields => exact absurd rfl (hother id fields)
      | _ => cases hsets

theorem hasProperty_applyAll_iff (hname : name ∈ structuralKeys) (hd : ¬ d.HasProperty name)
    (edits : List Edit) :
    (∀ n, ¬ (applyAll d (edits.take n)).HasProperty name) ↔
      ∀ (n : Nat) (e : Edit), edits[n]? = some e → ¬ e.Sets name (applyAll d (edits.take n)) :=
  forall_applyAll_iff (fun d => ¬ d.HasProperty name) (Sets name)
    (fun _ _ hd => applyOrKeep_iff (I := fun d => ¬ d.HasProperty name) hd Sets.isOk
      fun _ h => not_congr (hasProperty_apply_iff hname hd h)) hd edits

end Edit

/-- **A structural name is never a property over a session exactly if no definition has it as a key
and no update sets it.** For `item_pattern` neither can happen, and for the other names with edits
of their own the second cannot. -/
theorem structural_session_iff {doc : Document} {d : Dictionary}
    (h : doc.extract.result = .ok d) (edits : List Edit) :
    ∃ entries listed, topEntries doc.source doc.root = .ok entries ∧
      Listing doc.source (topMaps entries) listed ∧
      (∀ name ∈ structuralKeys,
        (∀ n, ¬ (Edit.applyAll d (edits.take n)).HasProperty name) ↔
          (∀ e ∈ listed, ¬ Hoists doc.source name e.2) ∧
            ∀ (n : Nat) (e : Edit), edits[n]? = some e →
              ¬ e.Sets name (Edit.applyAll d (edits.take n))) ∧
      (∀ name ∈ Dictionary.separateFields, ∀ (e : Edit) (d' : Dictionary), ¬ e.Sets name d') ∧
      ∀ n, ¬ (Edit.applyAll d (edits.take n)).HasProperty "item_pattern" := by
  obtain ⟨entries, listed, htop, hlisting, hentries⟩ := Document.entries_of_extract h
  have hseparate : ∀ name ∈ Dictionary.separateFields, ∀ (e : Edit) (d' : Dictionary),
      ¬ e.Sets name d' := fun name hname e d' => Edit.not_sets_of_separate hname
  have hextracted : ∀ name ∈ structuralKeys,
      ¬ d.HasProperty name ↔ ∀ e ∈ listed, ¬ Hoists doc.source name e.2 := by
    intro name hname
    rw [hasProperty_of_entries hname hentries, not_exists]
    exact forall_congr' fun e => not_and
  refine ⟨entries, listed, htop, hlisting, fun name hname => ?_, hseparate, ?_⟩
  · rw [← hextracted name hname]
    constructor
    · intro hall
      have hd : ¬ d.HasProperty name := hall 0
      exact ⟨hd, (Edit.hasProperty_applyAll_iff hname hd edits).1 hall⟩
    · rintro ⟨hd, hfree⟩
      exact (Edit.hasProperty_applyAll_iff hname hd edits).2 hfree
  · have hitem : "item_pattern" ∈ structuralKeys := by decide
    have hd := (hextracted _ hitem).2 fun e _ hhoists => hhoists.1 rfl
    refine (Edit.hasProperty_applyAll_iff hitem hd edits).2 fun n e _ => ?_
    exact hseparate _ (by decide) e _

/-- A document of one pattern whose definition has a key with a structural name. -/
def hoistedLocation : Document :=
  .plain (.map [(.str "p", .map [(.str "pattern_definition",
    .map [(.str "kind", .str "cell"), (.str "location", .str "left:0")])])])

/-- The dictionary of `hoistedLocation`. -/
def hoistedLocationPatterns : Dictionary :=
  Table.insert ∅ "p" { Pattern.blank with
    kind := .str "cell"
    properties := Table.insert ∅ (.str "location") (.str "left:0") }

theorem structural_session_hoistedLocation :
    hoistedLocation.extract.result = .ok hoistedLocationPatterns ∧
      (¬ ∀ n, ¬ (Edit.applyAll hoistedLocationPatterns (List.take n [])).HasProperty "location") ∧
      ¬ ∀ n, ¬ (Edit.applyAll hoistedLocationPatterns
        (List.take n [.update "p" [("pattern", .int 5)]])).HasProperty "pattern" := by
  have hextract : hoistedLocation.extract.result = .ok hoistedLocationPatterns := rfl
  refine ⟨hextract, fun hnone => ?_, fun hnone => ?_⟩
  · obtain ⟨entries, listed, htop, hlisting, hnever, -⟩ := structural_session_iff hextract []
    obtain rfl := Except.ok.inj htop
    obtain rfl := hlisting.unique (.visit .done .done)
    refine ((hnever "location" (by decide)).1 hnone).1 _ List.mem_cons_self ⟨by decide, ?_⟩
    exact ⟨_, List.mem_cons_of_mem _ List.mem_cons_self, rfl⟩
  · obtain ⟨entries, listed, -, -, hnever, -⟩ :=
      structural_session_iff hextract [.update "p" [("pattern", .int 5)]]
    refine ((hnever "pattern" (by decide)).1 hnone).2 0 _ rfl ?_
    exact ⟨⟨_, rfl⟩, .int 5, rfl, rfl⟩

end LayoutGrammar
