import LayoutGrammar.Proofs.Edit.Outcome
import LayoutGrammar.Proofs.Scene.Computed

/-!
# Scenes after a pattern is removed

A component whose pattern was removed is still there and still counts for the size of the cells, but
it no longer becomes a child. All others are placed by their own locations in cells of the same
size, so the scene of another pattern loses the boxes of the removed pattern and keeps everything
else (`build_of_remove`), as long as children are not spread.

A removed pattern takes its failures along: if a scene could not be built because a component of
that pattern has an offset that starts beyond every coordinate, it can be built afterwards. In no
other case does a failing scene fare differently.
-/

namespace LayoutGrammar

open Layout

variable {α : Type}

/-- A scene without the children that show a pattern. -/
def Scene.without (r : String) (s : Scene α) : Scene α :=
  { s with children := s.children.filter (·.pattern ≠ r) }

variable [Scalar α]

namespace Scene

variable {d : Dictionary} {r q : String} {p : Pattern} {cs : List (Child α)}

/-- A component that can be measured only as long as its pattern is missing shows that pattern. -/
theorem exists_of_placeable_erase (h : p.Placeable α (d.erase r)) (h' : ¬ p.Placeable α d) :
    ∃ e ∈ p.placed, e.2.pattern = r ∧ ¬ e.2.location.Measurable α e.1 := by
  by_contra hnone
  refine h' fun e he hshown => ?_
  by_cases hpattern : e.2.pattern = r
  · by_contra hmeasurable
    exact hnone ⟨e, he, hpattern, hmeasurable⟩
  · refine h e he ?_
    rw [Table.contains_erase, hshown]
    simp [Ne.symm hpattern]

/-! ## Children -/

namespace Frame

/-- The same frame over the dictionary without a pattern. -/
def without (r : String) (f : Frame α) : Frame α := { f with patterns := f.patterns.erase r }

variable {f : Frame α}

omit [Scalar α] in
theorem shows_without (component : String × Component) :
    (f.without r).shows component = (decide (component.2.pattern ≠ r) && f.shows component) := by
  unfold shows without
  rw [Table.contains_erase]
  by_cases h : component.2.pattern = r
  · simp [h]
  · simp [h, Ne.symm h]

omit [Scalar α] in
theorem filter_shows_without (entries : List (String × Component)) :
    entries.filter (f.without r).shows =
      (entries.filter f.shows).filter fun e => e.2.pattern ≠ r := by
  rw [List.filter_filter]
  exact List.filter_congr fun e _ => shows_without e

/-- The children that show other patterns are placed as before. -/
theorem children_without (h : f.children p = .ok cs) :
    (f.without r).children p = .ok (cs.filter (·.pattern ≠ r)) := by
  have hplaced : ∀ {mode} {entries : List (String × Component)} {cs : List (Child α)},
      List.Forall₂ (fun e c => f.place mode e = .ok c) (entries.filter f.shows) cs →
      List.Forall₂ (fun e c => (f.without r).place mode e = .ok c)
        (entries.filter (f.without r).shows) (cs.filter (·.pattern ≠ r)) := by
    intro mode entries cs hcs
    rw [filter_shows_without]
    refine List.rel_filter (fun e c hplace => ?_) hcs
    obtain ⟨box, -, rfl⟩ := place_eq_ok_iff.1 hplace
    rfl
  obtain ⟨inner, outer, rfl, hinner, houter⟩ := children_eq_ok_iff.1 h
  exact children_eq_ok_iff.2
    ⟨_, _, List.filter_append _ _, hplaced hinner, hplaced houter⟩

/-- Children that cannot be placed still cannot be, unless that was because of a component of the
pattern that is missing now. -/
theorem children_without_error {cause : Error} (h : f.children p = .error cause) :
    (f.without r).children p = .error cause ∨
      cause = .integerTooLarge ∧ (∃ cs, (f.without r).children p = .ok cs) ∧
        ∃ e ∈ p.placed, e.2.pattern = r ∧ ¬ e.2.location.Measurable α e.1 := by
  obtain ⟨hfails, rfl⟩ := (f.failsUnless_children p).of_error h
  have hplaced := (f.without r).failsUnless_children p
  by_cases hplaceable : p.Placeable α (f.patterns.erase r)
  · exact .inr ⟨rfl, hplaced.ok hplaceable, exists_of_placeable_erase hplaceable hfails⟩
  · exact .inl (hplaced.error hplaceable)

end Frame

/-! ## Scenes -/

omit [Scalar α] in
theorem map_withPosition_filter (positions : Positions α) (cs : List (Child α)) :
    (cs.filter (·.pattern ≠ r)).map (withPosition positions) =
      (cs.map (withPosition positions)).filter (·.pattern ≠ r) := by
  rw [List.filter_map]
  refine congrArg (List.map _) (List.filter_congr fun c _ => ?_)
  unfold withPosition
  rw [Function.comp_apply]
  split <;> rfl

/-- A scene whose children are not spread. -/
theorem result_build_unspread (surface : Size α) (positions : Positions α)
    (settings : Settings α) :
    (build d q surface positions false settings).result =
      (match d.get? q with
      | none => .error (.unknownPattern q)
      | some p => do
        let parent ← Rect.innerArea surface settings.areaRatio
        let cell ← (fitPatternCell p parent.size (.given settings)).result
        (fun placed => ⟨q, surface, parent, cell, placed.map (withPosition positions)⟩) <$>
          Frame.children ⟨d, surface, parent, cell, settings⟩ p) := by
  rw [result_build]
  cases d.get? q with
  | none => rfl
  | some p => rfl

/-- **Removing a pattern only removes its own boxes.** A scene that could not be built still fails
in the same way, unless it failed because a component of the removed pattern cannot be measured. -/
theorem build_of_remove (hr : d.contains r = true) (hq : q ≠ r) :
    ∃ d', (d.remove r).result = .ok d' ∧
      ∀ (surface : Size α) (positions : Positions α) (settings : Settings α),
        (∀ s, (build d q surface positions false settings).result = .ok s →
          (build d' q surface positions false settings).result = .ok (s.without r)) ∧
        ∀ cause, (build d q surface positions false settings).result = .error cause →
          (build d' q surface positions false settings).result = .error cause ∨
            cause = .integerTooLarge ∧
              (∃ s, (build d' q surface positions false settings).result = .ok s) ∧
              ∃ p, d.get? q = some p ∧ ∃ e ∈ p.placed,
                e.2.pattern = r ∧ ¬ e.2.location.Measurable α e.1 := by
  refine ⟨d.erase r, Dictionary.result_remove_iff.2 ⟨hr, rfl⟩, fun surface positions settings => ?_⟩
  have hget : (d.erase r).get? q = d.get? q := by
    rw [Table.get?_erase, if_neg (by simpa using hq.symm)]
  rw [result_build_unspread, result_build_unspread, hget]
  cases hp : d.get? q with
  | none => exact ⟨nofun, fun cause h => .inl h⟩
  | some p =>
    dsimp only
    cases Rect.innerArea surface settings.areaRatio with
    | error _ => exact ⟨nofun, fun cause h => .inl h⟩
    | ok parent =>
      rw [ok_bind, ok_bind]
      cases (fitPatternCell p parent.size (.given settings)).result with
      | error _ => exact ⟨nofun, fun cause h => .inl h⟩
      | ok cell =>
        rw [ok_bind, ok_bind]
        let f : Frame α := ⟨d, surface, parent, cell, settings⟩
        let scene (placed : List (Child α)) : Scene α :=
          ⟨q, surface, parent, cell, placed.map (withPosition positions)⟩
        change (∀ s, scene <$> f.children p = .ok s → scene <$> (f.without r).children p = _) ∧
          ∀ cause, scene <$> f.children p = .error cause →
            scene <$> (f.without r).children p = _ ∨
              _ ∧ (∃ s, scene <$> (f.without r).children p = .ok s) ∧ _
        constructor
        · intro s h
          obtain ⟨placed, hchildren, rfl⟩ := except_map_ok.1 h
          rw [Frame.children_without hchildren]
          have hscene : scene (placed.filter (·.pattern ≠ r)) = (scene placed).without r :=
            congrArg (fun children => (⟨q, surface, parent, cell, children⟩ : Scene α))
              (map_withPosition_filter positions placed)
          exact congrArg Except.ok hscene
        · intro cause h
          rcases Frame.children_without_error (except_map_error.1 h) with h' |
            ⟨hcause, ⟨placed, hplaced⟩, hremoved⟩
          · exact .inl (except_map_error.2 h')
          · refine .inr ⟨hcause, ⟨scene placed, ?_⟩, p, rfl, hremoved⟩
            exact except_map_ok.2 ⟨placed, hplaced, rfl⟩

/-! ## An example -/

/-- A page with a label and a note; the label keeps at most five cells from the left. -/
def labelledPage (low : Int) : Pattern :=
  { Pattern.blank with
    inner := .ofList
      [("label", ⟨"tag", { Location.free with left := some ⟨low, some 5⟩ }⟩),
        ("note", ⟨"box", { Location.free with top := some (.exactly 1) }⟩)] }

/-- That page and the patterns that it shows. -/
def labelled (low : Int) : Dictionary :=
  .ofList [("page", labelledPage low), ("box", .blank), ("tag", .blank)]

theorem build_of_remove_labelled :
    (labelled 1).contains "tag" = true ∧ "page" ≠ "tag" ∧
      ∃ d' s, ((labelled 1).remove "tag").result = .ok d' ∧
        (build (labelled 1) "page" (⟨900, 600⟩ : Size Rat) ∅ false .standard).result = .ok s ∧
        s.children.map (·.name) = ["label", "note"] ∧
        (build d' "page" (⟨900, 600⟩ : Size Rat) ∅ false .standard).result =
          .ok (s.without "tag") := by
  have hr : (labelled 1).contains "tag" = true := by decide
  have hq : "page" ≠ "tag" := by decide
  obtain ⟨d', hremove, hbuild⟩ := build_of_remove (α := Rat) hr hq
  obtain ⟨s, hs, hnames⟩ : ∃ s,
      (build (labelled 1) "page" (⟨900, 600⟩ : Size Rat) ∅ false .standard).result = .ok s ∧
        s.children.map (·.name) = ["label", "note"] := by
    have hscene : ((build (labelled 1) "page" (⟨900, 600⟩ : Size Rat) ∅ false
        .standard).result.map fun s => s.children.map (·.name)).toOption =
          some ["label", "note"] := by decide +kernel
    obtain ⟨s, hs, hnames⟩ := except_map_ok.1 (eq_ok_of_toOption hscene)
    exact ⟨s, hs, hnames.symm⟩
  exact ⟨hr, hq, d', s, hremove, hs, hnames, (hbuild _ _ _).1 s hs⟩

/-- An offset below every double. -/
def farLeft : Int := -(10 ^ 200 * 10 ^ 200)

/-- A label that may stand as far left as that keeps its page from being built until its pattern is
removed. -/
theorem build_labelled_farLeft :
    (build (labelled farLeft) "page" (⟨900, 600⟩ : Size Float) ∅ false .standard).result =
        .error .integerTooLarge ∧
      ∃ s, (build ((labelled farLeft).erase "tag") "page" (⟨900, 600⟩ : Size Float) ∅ false
        .standard).result = .ok s := by
  have hp : (labelled farLeft).get? "page" = some (labelledPage farLeft) := rfl
  have hp' : ((labelled farLeft).erase "tag").get? "page" = some (labelledPage farLeft) := rfl
  have hratio : Scalar.isZero (Settings.standard : Settings Float).areaRatio = false := by
    decide +kernel
  have hwords : InWords (labelledPage farLeft).locations 10 := by
    have hall : ∀ l ∈ (labelledPage farLeft).locations, ∀ side ∈ Side.all, ∀ o ∈ l.get side,
        isWord (o.cells 10) = true := by decide +kernel
    exact fun l hl side o ho => hall l hl side side.mem_all o ho
  constructor
  · refine (failsUnless_build _ _ _ hp hratio hwords).error fun h => ?_
    have hlow := h _ List.mem_cons_self (by decide) _ List.mem_cons_self
    revert hlow
    decide +kernel
  · refine (failsUnless_build _ _ _ hp' hratio hwords).ok ?_
    unfold Pattern.Placeable Location.Measurable
    decide +kernel

end Scene

end LayoutGrammar
