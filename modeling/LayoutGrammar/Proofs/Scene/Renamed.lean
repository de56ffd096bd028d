import LayoutGrammar.Proofs.Edit.Renamed
import LayoutGrammar.Proofs.Layout.Cell
import LayoutGrammar.Proofs.Layout.Spread
import LayoutGrammar.Proofs.Scene.Build

/-!
# Scenes after renaming

What a scene shows of the ids of patterns is which pattern each child came from; nothing is laid out
by it. So every stage of `build` commutes with putting a new id in place of an old one: which
components are shown (`shows_renamed`), where they stand (`children_renamed`), and how they are
spread (`result_distribute_renamed`). Together, the scene of a renamed pattern is the old one with
the new id in it (`build_of_rename`).
-/

namespace LayoutGrammar

open Layout Dictionary

variable {α : Type}

/-- A child that shows `new` if it showed `old`. -/
def Child.renamed (old new : String) (c : Child α) : Child α :=
  { c with pattern := substitute old new c.pattern }

/-- A scene with a new id in place of an old one. -/
def Scene.renamed (old new : String) (s : Scene α) : Scene α :=
  { s with
    pattern := substitute old new s.pattern
    children := s.children.map (Child.renamed old new) }

/-! ## Dictionaries -/

section Patterns

variable {d : Dictionary} {old new : String}

/-- An id has in the renamed dictionary the pattern that it had before, with the new references. -/
@[simp] theorem Pattern.locations_renameReferences (p : Pattern) :
    (renameReferences old new p).locations = p.locations := by
  have hsame : ∀ t : Table String Component,
      (t.mapValues (renameComponent old new)).values.map (·.location) =
        t.values.map (·.location) := by
    intro t
    rw [Table.values, Table.values, Table.entries_mapValues, List.map_map, List.map_map,
      List.map_map]
    rfl
  exact congrArg₂ (· ++ ·) (hsame p.inner) (hsame p.outer)

theorem Pattern.ne_of_not_mem_references {p : Pattern} (h : new ∉ p.references) :
    (∀ e ∈ p.inner.entries, e.2.pattern ≠ new) ∧ ∀ e ∈ p.outer.entries, e.2.pattern ≠ new := by
  have hshown : ∀ {t : Table String Component}, (∀ id ∈ t.values.map (·.pattern), id ≠ new) →
      ∀ e ∈ t.entries, e.2.pattern ≠ new :=
    fun ht e he => ht _ (List.mem_map_of_mem (List.mem_map_of_mem he))
  simp only [references, List.mem_append, not_or] at h
  obtain ⟨⟨⟨hinner, houter⟩, -⟩, -⟩ := h
  exact ⟨hshown fun id hid heq => hinner (heq ▸ hid), hshown fun id hid heq => houter (heq ▸ hid)⟩

end Patterns

namespace Scene

variable [Scalar α] {old new : String}

/-! ## Children -/

namespace Frame

/-- The same frame over the renamed dictionary. -/
def renamed (f : Frame α) (old new : String) : Frame α :=
  { f with patterns := f.patterns.renamed old new }

variable {f : Frame α}

omit [Scalar α] in
theorem shows_renamed (hnew : f.patterns.contains new = false) {component : String × Component}
    (hshown : component.2.pattern ≠ new) :
    (f.renamed old new).shows (component.1, renameComponent old new component.2) =
      f.shows component := by
  change ((f.patterns.renamed old new).get? (substitute old new component.2.pattern)).isSome = _
  rw [get?_renamed_substitute hnew hshown, Option.isSome_map]
  rfl

theorem place_renamed (mode : Placement) (component : String × Component) :
    (f.renamed old new).place mode (component.1, renameComponent old new component.2) =
      Child.renamed old new <$> f.place mode component := by
  unfold Frame.place
  rw [← comp_map]
  rfl

theorem mapM_place_renamed (hnew : f.patterns.contains new = false) (mode : Placement)
    {t : Table String Component} (hshown : ∀ e ∈ t.entries, e.2.pattern ≠ new) :
    ((t.mapValues (renameComponent old new)).entries.filter (f.renamed old new).shows).mapM
        ((f.renamed old new).place mode) =
      List.map (Child.renamed old new) <$> (t.entries.filter f.shows).mapM (f.place mode) := by
  have hfilter : t.entries.filter ((f.renamed old new).shows ∘ fun e =>
      (e.1, renameComponent old new e.2)) = t.entries.filter f.shows :=
    List.filter_congr fun e he => shows_renamed hnew (hshown e he)
  have hplace : (f.renamed old new).place mode ∘ (fun e => (e.1, renameComponent old new e.2)) =
      fun e => Child.renamed old new <$> f.place mode e := funext (place_renamed mode)
  rw [Table.entries_mapValues, List.filter_map, List.mapM_map, hfilter]
  rw [hplace]
  exact mapM_map_result _ _ _

theorem children_renamed (hnew : f.patterns.contains new = false) {p : Pattern}
    (hshown : new ∉ p.references) :
    (f.renamed old new).children (renameReferences old new p) =
      List.map (Child.renamed old new) <$> f.children p := by
  obtain ⟨hinner, houter⟩ := p.ne_of_not_mem_references hshown
  unfold Frame.children
  simp only [renameReferences, mapM_place_renamed hnew _ hinner, mapM_place_renamed hnew _ houter,
    bind_map_left, map_bind, map_pure, List.map_append]

end Frame

/-! ## Spreading -/

/-- Groups whose members show `new` if they showed `old`. -/
def renamedGroups (old new : String) (groups : Groups α) : Groups α :=
  groups.mapValues (List.map (Child.renamed old new))

omit [Scalar α] in
/-- A child joins its group whatever it shows. -/
theorem join_renamed (groups : Groups α) (c : Child α) :
    join (renamedGroups old new groups) (c.renamed old new) =
      renamedGroups old new (join groups c) := by
  have hkey : groupKey? (c.renamed old new) = groupKey? c := rfl
  unfold join
  rw [hkey]
  cases groupKey? c with
  | none => rfl
  | some key =>
    have hmembers : ((renamedGroups old new groups).get? key).getD [] ++ [c.renamed old new] =
        ((groups.get? key).getD [] ++ [c]).map (Child.renamed old new) := by
      rw [renamedGroups, Table.get?_mapValues]
      cases groups.get? key with
      | none => rfl
      | some members => simp
    exact (congrArg (Table.insert _ key) hmembers).trans (Table.mapValues_insert _ _ _ _).symm

omit [Scalar α] in
theorem foldl_join_renamed (groups : Groups α) (children : List (Child α)) :
    (children.map (Child.renamed old new)).foldl join (renamedGroups old new groups) =
      renamedGroups old new (children.foldl join groups) := by
  induction children generalizing groups with
  | nil => rfl
  | cons c rest ih => rw [List.map_cons, List.foldl_cons, join_renamed, ih, List.foldl_cons]

omit [Scalar α] in
theorem gathered_renamed (children : List (Child α)) :
    gathered (children.map (Child.renamed old new)) =
      renamedGroups old new (gathered children) := foldl_join_renamed ∅ children

/-- A group is laid out whatever its members show. -/
theorem groupWrites_renamed (parent : Rect α) (settings : Settings α) (key : GroupKey)
    (ms : List (Child α)) :
    groupWrites parent settings (key, ms.map (Child.renamed old new)) =
      groupWrites parent settings (key, ms) := by
  unfold groupWrites
  rw [List.map_map, List.map_map]
  rfl

theorem result_distribute_renamed (children : List (Child α)) (parent : Rect α)
    (choice : Choice α) :
    (distribute (children.map (Child.renamed old new)) parent choice).result =
      (distribute children parent choice).result := by
  have hboxes : (children.map (Child.renamed old new)).map (fun c => (c.key, c.bounds)) =
      children.map fun c => (c.key, c.bounds) := by
    rw [List.map_map]
    rfl
  rw [result_distribute, result_distribute, hboxes, gathered_renamed, renamedGroups,
    Table.entries_mapValues, List.flatMap_map]
  simp only [groupWrites_renamed]

theorem spread_renamed {f : Frame α} (autoDistribute : Bool) (children : List (Child α)) :
    (f.renamed old new).spread autoDistribute (children.map (Child.renamed old new)) =
      List.map (Child.renamed old new) <$> f.spread autoDistribute children := by
  have hspread : ∀ boxes : Boxes α,
      (children.map (Child.renamed old new)).map (withSpread boxes) =
        (children.map (withSpread boxes)).map (Child.renamed old new) := by
    intro boxes
    rw [List.map_map, List.map_map]
    rfl
  unfold Frame.spread
  cases autoDistribute with
  | false => rfl
  | true =>
    simp only [if_true, map_bind, map_pure, hspread]
    exact congrArg (· >>= _) (result_distribute_renamed children f.parent _)

/-! ## Scenes -/

omit [Scalar α] in
theorem withPosition_renamed (positions : Positions α) (c : Child α) :
    withPosition positions (c.renamed old new) = (withPosition positions c).renamed old new := by
  unfold withPosition
  rw [show (c.renamed old new).key = c.key from rfl]
  cases positions.get? c.key <;> rfl

variable {d : Dictionary}

/-- The scene of a pattern in the renamed dictionary. -/
theorem result_build_renamed (hold : d.contains old = true) (hnew : d.contains new = false)
    (hfresh : ∀ e ∈ d.entries, new ∉ e.2.references) {id : String} (hid : id ≠ new)
    (surface : Size α) (positions : Positions α) (autoDistribute : Bool) (settings : Settings α) :
    (build (d.renamed old new) (substitute old new id) surface positions autoDistribute
        settings).result =
      Scene.renamed old new <$>
        (build d id surface positions autoDistribute settings).result := by
  rw [result_build, result_build, get?_renamed_substitute hnew hid]
  cases hp : d.get? id with
  | none =>
    have hne : id ≠ old := by
      rintro rfl
      rw [Table.contains, hp] at hold
      cases hold
    rw [Option.map_none, substitute_of_ne hne]
    rfl
  | some p =>
    have hshown : new ∉ p.references := hfresh _ (Table.get?_eq_some_iff.1 hp)
    have hpositions : ∀ children : List (Child α),
        (children.map (Child.renamed old new)).map (withPosition positions) =
          (children.map (withPosition positions)).map (Child.renamed old new) := by
      intro children
      rw [List.map_map, List.map_map]
      exact List.map_congr_left fun c _ => withPosition_renamed positions c
    simp only [Option.map_some, result_fitPatternCell, Pattern.locations_renameReferences, map_bind,
      map_pure]
    refine bind_congr fun parent => bind_congr fun cell => ?_
    let frame : Frame α := ⟨d, surface, parent, cell, settings⟩
    -- from here on both sides do the same to children that differ in what they show
    change (frame.renamed old new).children (renameReferences old new p) >>= _ = _
    rw [Frame.children_renamed hnew hshown, bind_map_left]
    refine bind_congr fun placed => ?_
    change (frame.renamed old new).spread autoDistribute _ >>= _ = _
    rw [spread_renamed, bind_map_left]
    refine bind_congr fun children => ?_
    rw [hpositions]
    rfl

/-- **Renaming a pattern does not change any layout**: the scenes of the renamed dictionary are
those of the old one with the new id in place of the old one. -/
theorem build_of_rename (hold : d.contains old = true) (hblank : Text.isBlankText new = false)
    (hstripped : Text.stripped new = new) (hnew : d.contains new = false)
    (hfresh : ∀ e ∈ d.entries, new ∉ e.2.references) :
    ∃ d', (d.rename old (.str new)).result = .ok d' ∧
      ∀ id, id ≠ new → ∀ (surface : Size α) positions autoDistribute settings,
        (build d' (substitute old new id) surface positions autoDistribute settings).result =
          Scene.renamed old new <$>
            (build d id surface positions autoDistribute settings).result := by
  have hne : new ≠ old := by
    rintro rfl
    rw [hold] at hnew
    cases hnew
  have hname : patternName (.str new) = .ok new := by
    rw [patternName, hblank, hstripped]
    rfl
  refine ⟨d.renamed old new, ?_, ?_⟩
  · exact result_rename_iff.2 ⟨hold, new, hname, .inr ⟨hne, hnew, rfl⟩⟩
  · intro id hid surface positions autoDistribute settings
    exact result_build_renamed hold hnew hfresh hid surface positions autoDistribute settings

theorem build_of_rename_panel :
    panel.contains "box" = true ∧ Text.isBlankText "frame" = false ∧
      Text.stripped "frame" = "frame" ∧ panel.contains "frame" = false ∧
      (∀ e ∈ panel.entries, "frame" ∉ e.2.references) ∧
      ∃ d', (panel.rename "box" (.str "frame")).result = .ok d' ∧
        (build d' "panel" ⟨300, 300⟩ ∅ false .standard).result =
          .ok (panelScene.renamed "box" "frame") := by
  have hold : panel.contains "box" = true := by decide
  have hstripped : Text.stripped "frame" = "frame" := by decide
  have hfresh : ∀ e ∈ panel.entries, "frame" ∉ e.2.references := by decide
  obtain ⟨d', hrename, hbuild⟩ :=
    build_of_rename (α := Rat) hold (by decide) hstripped (by decide) hfresh
  refine ⟨hold, by decide, hstripped, by decide, hfresh, d', hrename, ?_⟩
  have hpanel := hbuild "panel" (by decide) ⟨300, 300⟩ ∅ false .standard
  rw [build_panel] at hpanel
  exact hpanel

end Scene

end LayoutGrammar
