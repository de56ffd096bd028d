import LayoutGrammar.Proofs.Extract.Flatten

/-!
# Kinds and item patterns

The kind of a pattern is the one that its map gives, or else that of the definition
(`kind_ownPattern`). An item pattern is looked for twice: in the definition if that calls itself an
array, and then in the map itself if the pattern is one (`itemPattern_ownPattern`). The two kinds
need not agree. Hence arrays are the patterns with item patterns where one is given, except where a
definition `KeepsItem` of a pattern that is no array, or `DropsItem` of one that is
(`item_of_extract`).
-/

namespace LayoutGrammar

open Extract

namespace Extract

/-- Where keys are distinct, a fold whose steps write a part under one name only ends with what
stands under that name. -/
theorem foldl_named {α β σ : Type} {f : σ → Value × α → σ} {name : String} (part : σ → β)
    (write : α → β) (hname : ∀ s a, part (f s (.str name, a)) = write a)
    (hother : ∀ s e, e.1 ≠ .str name → part (f s e) = part s) {entries : List (Value × α)}
    (hd : DistinctKeys entries) (s : σ) :
    part (entries.foldl f s) = ((valueAt? (.str name) entries).map write).getD (part s) := by
  induction entries generalizing s with
  | nil => rfl
  | cons e rest ih =>
    obtain ⟨hhead, hrest⟩ := List.pairwise_cons.1 hd
    rw [List.foldl_cons, ih hrest]
    obtain ⟨key, a⟩ := e
    rw [valueAt?]
    by_cases hkey : key = .str name
    · subst hkey
      have hnone : valueAt? (.str name) rest = none := by
        refine valueAt?_eq_none fun e he => ?_
        rw [Bool.eq_false_iff]
        intro hsame
        have hne := hhead e he
        rw [Value.beq_str_iff.1 hsame, Value.beq_str_iff.2 rfl] at hne
        cases hne
      rw [hnone, if_pos (Value.beq_str_iff.2 rfl), hname]
      rfl
    · rw [if_neg (mt Value.beq_str_iff.1 hkey), hother _ _ hkey]

theorem isSome_textOf? (v : Value) : (textOf? v).isSome = v.isGiven := by
  unfold textOf?
  split
  · next h => rw [h]; rfl
  · next h => rw [Bool.eq_false_iff.2 h]; rfl

theorem isArray_eq (p : Pattern) : p.isArray = isText "array" p.kind := by
  unfold Pattern.isArray
  cases p.kind <;> rfl

/-! ## Definitions -/

theorem kind_setField_of_ne (p : Pattern) {key : Value} (h : key ≠ .str "kind") (value : Value) :
    (setField p key value).kind = p.kind := by
  unfold setField
  rw [if_neg (mt isText_iff.1 h)]
  split <;> rfl

theorem itemPattern_setField (p : Pattern) (key value : Value) :
    (setField p key value).itemPattern = p.itemPattern := by
  unfold setField
  split
  · rfl
  · split <;> rfl

theorem kind_setHoisted_of_ne (isArray : Bool) (p : Pattern) {e : Value × Value}
    (h : e.1 ≠ .str "kind") : (setHoisted isArray p e).kind = p.kind := by
  unfold setHoisted
  split
  · split <;> rfl
  · exact kind_setField_of_ne p h e.2

theorem kind_hoisted {definition : List (Value × Value)} (hd : DistinctKeys definition) :
    (hoisted definition).kind = (Value.field? "kind" definition).getD .null := by
  have hfold := foldl_named Pattern.kind id (fun _ _ => rfl)
    (fun p _ => kind_setHoisted_of_ne ((Value.field? "kind" definition).any (isText "array")) p) hd
    .blank
  rw [Option.map_id, id, ← Value.field?_eq_valueAt?] at hfold
  exact hfold

theorem itemPattern_setHoisted_of_ne (isArray : Bool) (p : Pattern) {e : Value × Value}
    (h : e.1 ≠ .str "item_pattern") : (setHoisted isArray p e).itemPattern = p.itemPattern := by
  unfold setHoisted
  rw [if_neg (mt isText_iff.1 h)]
  exact itemPattern_setField p e.1 e.2

theorem itemPattern_hoisted {definition : List (Value × Value)} (hd : DistinctKeys definition) :
    (hoisted definition).itemPattern =
      if (Value.field? "kind" definition).any (isText "array") then
        textOf? ((Value.field? "item_pattern" definition).getD .null)
      else none := by
  unfold hoisted
  cases (Value.field? "kind" definition).any (isText "array") with
  | true =>
    rw [foldl_named Pattern.itemPattern textOf? (fun _ _ => rfl)
      (fun p _ => itemPattern_setHoisted_of_ne true p) hd, Value.field?_eq_valueAt?]
    cases valueAt? (.str "item_pattern") definition <;> rfl
  | false =>
    refine List.foldlRecOn (motive := fun p : Pattern => p.itemPattern = none) _ _ rfl
      fun p hp e _ => ?_
    by_cases hitem : e.1 = .str "item_pattern"
    · unfold setHoisted
      rw [if_pos (isText_iff.2 hitem)]
      exact hp
    · rw [itemPattern_setHoisted_of_ne false p hitem, hp]

section Source

variable {ν : Type} (source : Source ν)

/-- What the definition of a map gives under a name, null if nothing. -/
def definedField (name : String) (data : ν) : Value :=
  (Value.field? name (definitionOf source (source.entries data))).getD .null

/-- What a map itself gives under a name, null if nothing. -/
def ownField (name : String) (data : ν) : Value :=
  Slot.fieldValue source.value name (source.entries data)

/-- The kind that a map gives, or else the one that its definition gives. -/
def finalKind (data : ν) : Value :=
  ((Slot.field? "kind" (source.entries data)).map source.value).getD
    (definedField source "kind" data)

/-- No key occurs twice in a map or in its definition. -/
structure ProperKeys (data : ν) : Prop where
  own : DistinctKeys (source.entries data)
  definition : DistinctKeys (definitionOf source (source.entries data))

variable {source}

/-! ## Whole maps -/

theorem kind_withEntry_of_ne (p : Pattern) {e : Value × Slot ν} (h : e.1 ≠ .str "kind") :
    (withEntry source p e).kind = p.kind := by
  refine part_withEntry Pattern.kind (fun p placement f => ?_) fun _ => kind_setField_of_ne p h _
  cases placement <;> rfl

theorem itemPattern_withEntry (p : Pattern) (e : Value × Slot ν) :
    (withEntry source p e).itemPattern = p.itemPattern := by
  refine part_withEntry Pattern.itemPattern (fun p placement f => ?_) fun _ =>
    itemPattern_setField p e.1 _
  cases placement <;> rfl

theorem kind_withItem (p : Pattern) (raw : Value) : (withItem p raw).kind = p.kind := by
  unfold withItem
  split <;> rfl

theorem itemPattern_withItem (p : Pattern) (raw : Value) :
    (withItem p raw).itemPattern = p.itemPattern.or (if p.isArray then textOf? raw else none) := by
  unfold withItem
  cases p.isArray <;> cases hitem : p.itemPattern <;> simp [hitem]

theorem kind_foldl_withEntry {data : ν} (h : ProperKeys source data) :
    ((source.entries data).foldl (withEntry source)
      (hoisted (definitionOf source (source.entries data)))).kind = finalKind source data := by
  have hfold := foldl_named Pattern.kind source.value (fun _ _ => rfl)
    (fun p _ => kind_withEntry_of_ne p) h.own (hoisted (definitionOf source (source.entries data)))
  rwa [kind_hoisted h.definition, ← Slot.field?_eq_valueAt?] at hfold

theorem kind_ownPattern {data : ν} (h : ProperKeys source data) :
    (ownPattern source data).kind = finalKind source data :=
  (kind_withItem _ _).trans (kind_foldl_withEntry h)

/-- The definition gives an item pattern if it calls itself an array, and else the map itself gives
one if the pattern is an array. -/
theorem itemPattern_ownPattern {data : ν} (h : ProperKeys source data) :
    (ownPattern source data).itemPattern =
      (if isText "array" (definedField source "kind" data) then
        textOf? (definedField source "item_pattern" data) else none).or
      (if isText "array" (finalKind source data) then
        textOf? (ownField source "item_pattern" data) else none) := by
  let start := hoisted (definitionOf source (source.entries data))
  have hkept : ((source.entries data).foldl (withEntry source) start).itemPattern =
      start.itemPattern :=
    List.foldlRecOn (motive := fun p : Pattern => p.itemPattern = start.itemPattern) _ _ rfl
      fun p hp e _ => (itemPattern_withEntry p e).trans hp
  have hkind : (Value.field? "kind" (definitionOf source (source.entries data))).any
      (isText "array") = isText "array" (definedField source "kind" data) := by
    unfold definedField
    cases Value.field? "kind" (definitionOf source (source.entries data)) <;> rfl
  refine (itemPattern_withItem _ _).trans ?_
  rw [isArray_eq, kind_foldl_withEntry h, hkept, itemPattern_hoisted h.definition, hkind]
  rfl

/-! ## Where the two kinds differ -/

variable (source) in
/-- A definition that calls itself an array gives an item pattern to a pattern that is none. -/
def KeepsItem (data : ν) : Prop :=
  isText "array" (definedField source "kind" data) = true ∧
    (definedField source "item_pattern" data).isGiven = true ∧
    isText "array" (finalKind source data) = false

variable (source) in
/-- A definition that does not call itself an array has the only item pattern of one. -/
def DropsItem (data : ν) : Prop :=
  isText "array" (definedField source "kind" data) = false ∧
    (definedField source "item_pattern" data).isGiven = true ∧
    isText "array" (finalKind source data) = true ∧
    (ownField source "item_pattern" data).isGiven = false

theorem item_iff_iff {data : ν} (h : ProperKeys source data) :
    (((ownPattern source data).itemPattern.isSome = true ↔
        (ownPattern source data).isArray = true ∧
          ((definedField source "item_pattern" data).isGiven = true ∨
            (ownField source "item_pattern" data).isGiven = true)) ↔
      ¬ KeepsItem source data ∧ ¬ DropsItem source data) := by
  have hitem : (ownPattern source data).itemPattern.isSome =
      (isText "array" (definedField source "kind" data) &&
          (definedField source "item_pattern" data).isGiven ||
        isText "array" (finalKind source data) &&
          (ownField source "item_pattern" data).isGiven) := by
    rw [itemPattern_ownPattern h, Option.isSome_or, ← isSome_textOf?, ← isSome_textOf?]
    cases isText "array" (definedField source "kind" data) <;>
      cases isText "array" (finalKind source data) <;> rfl
  rw [hitem, isArray_eq, kind_ownPattern h]
  unfold KeepsItem DropsItem
  generalize isText "array" (definedField source "kind" data) = defined
  generalize isText "array" (finalKind source data) = final
  generalize (definedField source "item_pattern" data).isGiven = inner
  generalize (ownField source "item_pattern" data).isGiven = outer
  revert defined final inner outer
  decide

end Source

end Extract

/-- **The kind of an extracted pattern is the one of its map, or else of its definition, and it has
an item pattern exactly if it is an array and one is given, except where its definition keeps one or
drops one.** -/
theorem item_of_extract {doc : Document} {d : Dictionary} (h : doc.extract.result = .ok d) :
    ∃ entries listed, topEntries doc.source doc.root = .ok entries ∧
      Listing doc.source (topMaps entries) listed ∧
      d.entries = listed.map (fun e => (e.1, ownPattern doc.source e.2)) ∧
      ∀ e ∈ listed, ProperKeys doc.source e.2 →
        (ownPattern doc.source e.2).kind = finalKind doc.source e.2 ∧
        (ownPattern doc.source e.2).itemPattern =
          (if isText "array" (definedField doc.source "kind" e.2) then
            textOf? (definedField doc.source "item_pattern" e.2) else none).or
          (if isText "array" (finalKind doc.source e.2) then
            textOf? (ownField doc.source "item_pattern" e.2) else none) ∧
        (((ownPattern doc.source e.2).itemPattern.isSome = true ↔
            (ownPattern doc.source e.2).isArray = true ∧
              ((definedField doc.source "item_pattern" e.2).isGiven = true ∨
                (ownField doc.source "item_pattern" e.2).isGiven = true)) ↔
          ¬ KeepsItem doc.source e.2 ∧ ¬ DropsItem doc.source e.2) := by
  obtain ⟨entries, listed, htop, hlisting, hentries⟩ := Document.entries_of_extract h
  refine ⟨entries, listed, htop, hlisting, hentries, fun e _ hkeys => ?_⟩
  exact ⟨kind_ownPattern hkeys, itemPattern_ownPattern hkeys, item_iff_iff hkeys⟩

/-- The map of a cell whose definition calls itself an array. -/
def keepsItem : List (Value × Value) :=
  [(.str "pattern_definition", .map [(.str "kind", .str "array"), (.str "item_pattern", .str "q")]),
    (.str "kind", .str "cell")]

/-- The map of an array whose definition names no kind. -/
def dropsItem : List (Value × Value) :=
  [(.str "pattern_definition", .map [(.str "item_pattern", .str "q")]), (.str "kind", .str "array")]

theorem item_of_extract_otherKinds :
    ∃ d p r,
      (extract (.map [(.str "p", .map keepsItem), (.str "r", .map dropsItem)])).result = .ok d ∧
      d.entries = [("p", p), ("r", r)] ∧
      p.kind = .str "cell" ∧ p.itemPattern = some "q" ∧
      r.kind = .str "array" ∧ r.itemPattern = none := by
  let doc : Document := .plain (.map [(.str "p", .map keepsItem), (.str "r", .map dropsItem)])
  have hown : (Value.str "pattern_definition" == .str "kind") = false :=
    Value.str_beq_str_of_ne (by decide)
  have hdefinition : (Value.str "kind" == .str "item_pattern") = false :=
    Value.str_beq_str_of_ne (by decide)
  have hkeeps : ProperKeys .tree keepsItem :=
    ⟨List.pairwise_pair.2 hown, List.pairwise_pair.2 hdefinition⟩
  have hdrops : ProperKeys .tree dropsItem :=
    ⟨List.pairwise_pair.2 hown, List.pairwise_singleton _ _⟩
  obtain ⟨d, hextract⟩ : ∃ d, doc.extract.result = .ok d := ⟨_, rfl⟩
  obtain ⟨entries, listed, htop, hlisting, hentries, hitems⟩ := item_of_extract hextract
  obtain rfl := Except.ok.inj htop
  obtain rfl := hlisting.unique (.visit .done (.visit .done .done))
  obtain ⟨hp, hrest⟩ := List.forall_mem_cons.1 hitems
  obtain ⟨hpkind, hpitem, -⟩ := hp hkeeps
  obtain ⟨hrkind, hritem, -⟩ := hrest _ List.mem_cons_self hdrops
  exact ⟨d, _, _, hextract, hentries, hpkind, hpitem, hrkind, hritem⟩

end LayoutGrammar
