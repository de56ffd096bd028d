import LayoutGrammar.Proofs.Edit.Renamed
import Mathlib.Data.List.Forall2
import Mathlib.Data.List.TakeWhile

/-!
# Renaming as substitution

Renaming changes the ids that patterns point at and nothing else: it is `Pattern.mapReferences` with
the function that puts the new id in place of the old one. What such a change does to a pattern is
settled by what the function does to the ids the pattern points at (`references_mapReferences`,
`mapReferences_eq_self`). So a pattern is left as it is exactly if it does not point at the old id,
and renaming back undoes the change if nothing pointed at the new id before. `Pattern.Substituted`
says field by field what the change is; `rename_substitutes` is the summary.
-/

namespace LayoutGrammar

namespace Text

theorem stripped_of_isBlankText {s : String} (h : isBlankText s = true) : stripped s = "" := by
  have hblank : stripLeft s.toList = [] := List.dropWhile_eq_nil_iff.2 (List.all_eq_true.1 h)
  rw [stripped, strip, hblank]
  rfl

end Text

theorem patternName_str {s : String} (h : Text.stripped s ≠ "") :
    patternName (.str s) = .ok (Text.stripped s) := by
  have hblank : ¬ Text.isBlankText s = true := fun hs => h (Text.stripped_of_isBlankText hs)
  rw [patternName, if_neg hblank]

namespace Pattern

/-! ## Changing what a pattern points at -/

/-- Changes every id that a pattern points at. -/
def mapReferences (f : String → String) (p : Pattern) : Pattern :=
  { p with
    inner := p.inner.mapValues fun c => { c with pattern := f c.pattern }
    outer := p.outer.mapValues fun c => { c with pattern := f c.pattern }
    parents := p.parents.map f
    itemPattern := p.itemPattern.map f }

variable {f g : String → String}

theorem references_mapReferences (f : String → String) (p : Pattern) :
    (p.mapReferences f).references = p.references.map f := by
  have hshown : ∀ t : Table String Component,
      (t.mapValues fun c => { c with pattern := f c.pattern }).values.map (·.pattern) =
        (t.values.map (·.pattern)).map f := by
    intro t
    simp [Table.values, Function.comp_def]
  have hitem : (p.itemPattern.map f).toList = p.itemPattern.toList.map f := by
    cases p.itemPattern <;> rfl
  simp only [references, mapReferences, hshown, hitem, List.map_append]

theorem mapReferences_mapReferences (f g : String → String) (p : Pattern) :
    (p.mapReferences f).mapReferences g = p.mapReferences (g ∘ f) := by
  have htable : ∀ t : Table String Component,
      (t.mapValues fun c => { c with pattern := f c.pattern }).mapValues
          (fun c => { c with pattern := g c.pattern }) =
        t.mapValues fun c => { c with pattern := g (f c.pattern) } := by
    intro t
    apply Table.ext
    simp
  simp only [mapReferences, htable, List.map_map, Option.map_map, Function.comp_def]

/-- A change that leaves alone what a pattern points at leaves the pattern alone. -/
theorem mapReferences_eq_self {p : Pattern} (h : ∀ id ∈ p.references, f id = id) :
    p.mapReferences f = p := by
  simp only [references, List.mem_append] at h
  have htable : ∀ t : Table String Component, (∀ id ∈ t.values.map (·.pattern), f id = id) →
      t.mapValues (fun c => { c with pattern := f c.pattern }) = t := by
    intro t ht
    refine Table.mapValues_id fun e he => ?_
    rw [ht e.2.pattern (List.mem_map_of_mem (List.mem_map_of_mem he))]
  have hinner := htable p.inner fun id hid => h id (.inl (.inl (.inl hid)))
  have houter := htable p.outer fun id hid => h id (.inl (.inl (.inr hid)))
  have hparents : p.parents.map f = p.parents := calc
    p.parents.map f = p.parents.map id :=
      List.map_congr_left fun id hid => h id (.inl (.inr hid))
    _ = p.parents := List.map_id _
  have hitem : p.itemPattern.map f = p.itemPattern := by
    cases hp : p.itemPattern with
    | none => rfl
    | some id => exact congrArg some (h id (.inr (by rw [hp]; exact List.mem_singleton.2 rfl)))
  rw [mapReferences, hinner, houter, hparents, hitem]

end Pattern

namespace Dictionary

variable {old new : String}

/-! ## One pattern -/

theorem renameReferences_eq (old new : String) :
    renameReferences old new = Pattern.mapReferences (substitute old new) := rfl

theorem substitute_ne_old (hne : new ≠ old) (id : String) : substitute old new id ≠ old := by
  by_cases heq : id = old
  · subst heq
    rw [substitute_old]
    exact hne
  · rw [substitute_of_ne heq]
    exact heq

theorem substitute_back {id : String} (hid : id ≠ new) :
    substitute new old (substitute old new id) = id := by
  by_cases heq : id = old
  · subst heq
    rw [substitute_old, substitute_old]
  · rw [substitute_of_ne heq, substitute_of_ne hid]

/-- Nothing points at the old id any more. -/
theorem not_mem_references_renamed (hne : new ≠ old) (p : Pattern) :
    old ∉ (renameReferences old new p).references := by
  rw [renameReferences_eq, Pattern.references_mapReferences, List.mem_map]
  rintro ⟨id, -, hid⟩
  exact substitute_ne_old hne id hid

/-- A pattern changes exactly if it points at the old id. -/
theorem renameReferences_ne_iff (hne : new ≠ old) {p : Pattern} :
    renameReferences old new p ≠ p ↔ old ∈ p.references := by
  constructor
  · intro hchanged
    by_contra hold
    refine hchanged (Pattern.mapReferences_eq_self fun id hid => ?_)
    refine substitute_of_ne ?_
    rintro rfl
    exact hold hid
  · intro hold hsame
    have hgone := not_mem_references_renamed hne p
    rw [hsame] at hgone
    exact hgone hold

/-- Putting the old id back restores a pattern that did not point at the new one. -/
theorem renameReferences_back {p : Pattern} (hfresh : new ∉ p.references) :
    renameReferences new old (renameReferences old new p) = p := by
  rw [renameReferences_eq, renameReferences_eq, Pattern.mapReferences_mapReferences]
  refine Pattern.mapReferences_eq_self fun id hid => ?_
  refine substitute_back ?_
  rintro rfl
  exact hfresh hid

/-- `id'` is what stands for `id` once `new` has taken the place of `old`. -/
def StandsFor (old new id id' : String) : Prop := (id = old ∧ id' = new) ∨ (id ≠ old ∧ id' = id)

theorem standsFor_iff {id id' : String} :
    StandsFor old new id id' ↔ id' = substitute old new id := by
  by_cases heq : id = old
  · subst heq
    simp [StandsFor, substitute_old]
  · simp [StandsFor, substitute_of_ne heq, heq]

theorem standsFor_substitute (old new id : String) :
    StandsFor old new id (substitute old new id) :=
  standsFor_iff.2 rfl

/-- The components of one pattern with `new` in place of `old`: names and locations stay. -/
def SubstitutedComponent (old new : String) (e e' : String × Component) : Prop :=
  e'.1 = e.1 ∧ e'.2.location = e.2.location ∧ StandsFor old new e.2.pattern e'.2.pattern

/-- A pattern with `new` in place of `old`: what it points at is replaced place by place, and
everything else is as it was. -/
structure Substituted (old new : String) (p p' : Pattern) : Prop where
  kind : p'.kind = p.kind
  size : p'.size = p.size
  properties : p'.properties = p.properties
  inner : List.Forall₂ (SubstitutedComponent old new) p.inner.entries p'.inner.entries
  outer : List.Forall₂ (SubstitutedComponent old new) p.outer.entries p'.outer.entries
  parents : List.Forall₂ (StandsFor old new) p.parents p'.parents
  itemPattern : Option.Rel (StandsFor old new) p.itemPattern p'.itemPattern

theorem forall₂_map_of {α β : Type} {R : α → β → Prop} {f : α → β} (h : ∀ a, R a (f a))
    (items : List α) : List.Forall₂ R items (items.map f) := by
  rw [List.forall₂_map_right_iff, List.forall₂_same]
  exact fun a _ => h a

theorem substituted_renameReferences (old new : String) (p : Pattern) :
    Substituted old new p (renameReferences old new p) := by
  have hcomponent : ∀ e : String × Component,
      SubstitutedComponent old new e (e.1, renameComponent old new e.2) :=
    fun e => ⟨rfl, rfl, standsFor_substitute old new e.2.pattern⟩
  refine ⟨rfl, rfl, rfl, forall₂_map_of hcomponent _, forall₂_map_of hcomponent _,
    forall₂_map_of (standsFor_substitute old new) _, ?_⟩
  unfold renameReferences
  cases p.itemPattern with
  | none => exact .none
  | some id => exact .some (standsFor_substitute old new id)

/-! ## Dictionaries -/

variable {d : Dictionary}

theorem mem_referrers_iff {id target : String} :
    id ∈ d.referrers target ↔ ∃ p, d.get? id = some p ∧ target ∈ p.references := by
  simp only [referrers, List.mem_map, List.mem_filter, List.contains_iff_mem]
  constructor
  · rintro ⟨e, ⟨he, hmem⟩, rfl⟩
    exact ⟨e.2, Table.get?_eq_some_iff.2 he, hmem⟩
  · rintro ⟨p, hp, hmem⟩
    exact ⟨(id, p), ⟨Table.get?_eq_some_iff.1 hp, hmem⟩, rfl⟩

theorem contains_renamed_old (hne : new ≠ old) (hnew : d.contains new = false) :
    (d.renamed old new).contains old = false := by
  rw [Table.contains_eq_false_iff, entries_renamed hnew]
  intro e he
  obtain ⟨e', -, rfl⟩ := List.mem_map.1 he
  exact substitute_ne_old hne e'.1

theorem contains_renamed_new (hold : d.contains old = true) (hnew : d.contains new = false) :
    (d.renamed old new).contains new = true := by
  obtain ⟨p, hp⟩ := Option.isSome_iff_exists.1 hold
  refine Table.contains_of_get? ((get?_renamed_iff hnew).2 ⟨old, p, hp, ?_, rfl⟩)
  rw [substitute_old]

/-- The referrers of the old id are the patterns that renaming changes. -/
theorem mem_referrers_iff_changed (hne : new ≠ old) (hnew : d.contains new = false) {id : String} :
    id ∈ d.referrers old ↔ ∃ id' p p', StandsFor old new id id' ∧ d.get? id = some p ∧
      (d.renamed old new).get? id' = some p' ∧ p' ≠ p := by
  rw [mem_referrers_iff]
  constructor
  · rintro ⟨p, hp, hmem⟩
    refine ⟨_, p, _, standsFor_substitute old new id, hp, ?_, (renameReferences_ne_iff hne).2 hmem⟩
    exact (get?_renamed_iff hnew).2 ⟨id, p, hp, rfl, rfl⟩
  · rintro ⟨id', p, p', hstands, hp, hp', hchanged⟩
    have hid : id ≠ new := Table.contains_eq_false_iff.1 hnew _ (Table.get?_eq_some_iff.1 hp)
    rw [standsFor_iff.1 hstands, get?_renamed_substitute hnew hid, hp] at hp'
    obtain rfl := Option.some.inj hp'
    exact ⟨p, hp, (renameReferences_ne_iff hne).1 hchanged⟩

/-- Renaming back restores a dictionary that did not point at the new id. -/
theorem renamed_back (hne : new ≠ old) (hnew : d.contains new = false)
    (hfresh : ∀ e ∈ d.entries, new ∉ e.2.references) :
    (d.renamed old new).renamed new old = d := by
  apply Table.ext
  rw [entries_renamed (contains_renamed_old hne hnew), entries_renamed hnew, List.map_map]
  calc d.entries.map _
      _ = d.entries.map id := List.map_congr_left fun e he => ?_
      _ = d.entries := List.map_id _
  have hid : substitute new old (substitute old new e.1) = e.1 :=
    substitute_back (Table.contains_eq_false_iff.1 hnew e he)
  have hpattern : renameReferences new old (renameReferences old new e.2) = e.2 :=
    renameReferences_back (hfresh e he)
  simp [hid, hpattern]

/-- **Renaming is exactly the substitution of the new id for the old one.** The patterns stay in
their order, each with the new id wherever it pointed at the old one and otherwise as it was;
nothing points at the old id any more, and the patterns that changed are its referrers. If nothing
pointed at the new id, renaming back gives the dictionary that was there before. -/
theorem rename_substitutes {s : String} (hold : d.contains old = true)
    (hname : Text.stripped s = new) (hblank : new ≠ "") (hnew : d.contains new = false) :
    ∃ d', (d.rename old (.str s)).result = .ok d' ∧
      List.Forall₂ (fun e e' => StandsFor old new e.1 e'.1 ∧ Substituted old new e.2 e'.2)
        d.entries d'.entries ∧
      (∀ id, id ∈ d.referrers old ↔ ∃ id' p p', StandsFor old new id id' ∧ d.get? id = some p ∧
        d'.get? id' = some p' ∧ p' ≠ p) ∧
      (∀ e ∈ d'.entries, old ∉ e.2.references) ∧
      ((∀ e ∈ d.entries, new ∉ e.2.references) → Text.stripped old = old → old ≠ "" →
        (d'.rename new (.str old)).result = .ok d) := by
  have hne : new ≠ old := by
    rintro rfl
    rw [hold] at hnew
    cases hnew
  have hraw : patternName (.str s) = .ok new := by
    subst hname
    exact patternName_str hblank
  refine ⟨d.renamed old new, ?_, ?_, ?_, ?_, ?_⟩
  · exact result_rename_iff.2 ⟨hold, new, hraw, .inr ⟨hne, hnew, rfl⟩⟩
  · rw [entries_renamed hnew, List.forall₂_map_right_iff, List.forall₂_same]
    intro e _
    exact ⟨standsFor_substitute old new e.1, substituted_renameReferences old new e.2⟩
  · intro id
    exact mem_referrers_iff_changed hne hnew
  · intro e he
    rw [entries_renamed hnew] at he
    obtain ⟨e', -, rfl⟩ := List.mem_map.1 he
    exact not_mem_references_renamed hne e'.2
  · intro hfresh hstripped hnonempty
    have hback : patternName (.str old) = .ok old := by
      have hkept : Text.stripped old ≠ "" := by rwa [hstripped]
      rw [patternName_str hkept, hstripped]
    refine result_rename_iff.2 ⟨contains_renamed_new hold hnew, old, hback, .inr ⟨hne.symm, ?_, ?_⟩⟩
    · exact contains_renamed_old hne hnew
    · exact (renamed_back hne hnew hfresh).symm

/-- A pattern that is called like its own property, component and parent, between two others. -/
def hub : Dictionary := .ofList
  [("base", .blank),
    ("hub", { Pattern.blank with
      kind := .str "array"
      properties := .ofList [(.str "label", .str "hub")]
      inner := .ofList [("hub", ⟨"hub", .free⟩), ("base", ⟨"base", .free⟩)]
      parents := ["base", "hub"]
      itemPattern := some "hub" }),
    ("top", { Pattern.blank with parents := ["hub"] })]

theorem rename_substitutes_hub :
    hub.contains "hub" = true ∧ Text.stripped " core\t" = "core" ∧ hub.contains "core" = false ∧
      (∀ e ∈ hub.entries, "core" ∉ e.2.references) ∧ Text.stripped "hub" = "hub" ∧
      ∃ d', (hub.rename "hub" (.str " core\t")).result = .ok d' ∧
        (∀ e ∈ d'.entries, "hub" ∉ e.2.references) ∧
        (d'.rename "core" (.str "hub")).result = .ok hub := by
  have hold : hub.contains "hub" = true := by decide
  have hname : Text.stripped " core\t" = "core" := by decide
  have hnew : hub.contains "core" = false := by decide
  have hfresh : ∀ e ∈ hub.entries, "core" ∉ e.2.references := by decide
  have hstripped : Text.stripped "hub" = "hub" := by decide
  obtain ⟨d', hrename, -, -, hgone, hback⟩ := rename_substitutes hold hname (by decide) hnew
  exact ⟨hold, hname, hnew, hfresh, hstripped, d', hrename, hgone,
    hback hfresh hstripped (by decide)⟩

end Dictionary

end LayoutGrammar
