import LayoutGrammar.Proofs.Extract.Origin
import LayoutGrammar.Proofs.Geometry.Double
import LayoutGrammar.Proofs.Layout.Cell
import LayoutGrammar.Proofs.Layout.Measured
import LayoutGrammar.Proofs.Layout.Spread
import LayoutGrammar.Proofs.Scene.Build

/-!
# Scenes that can be computed

Three things can go wrong while a scene of an existing pattern is built: the surface is divided by a
ratio of nothing, an extent does not fit a machine word, or a measured offset starts beyond every
coordinate. Spreading adds nothing to that (`result_distribute`), so a scene can be built exactly if
none of them happens (`failsUnless_build`).

**Building fails for offsets that are too large.** In an extracted dictionary and with doubles, an
offset that starts at zero or above is measured without trouble once it fits a machine word, because
it does not end below its start. Then a scene can be built exactly if all extents fit machine words
and no measured offset starts below every double (`build_iff_of_extract`).
-/

namespace LayoutGrammar

open Layout Scalar

/-- The components of a pattern with where they stand. -/
def Pattern.placed (p : Pattern) : List (Placement × Component) :=
  p.inner.values.map (.inner, ·) ++ p.outer.values.map (.outer, ·)

/-- Every component whose pattern exists has offsets that can be measured. -/
def Pattern.Placeable (α : Type) [Scalar α] (d : Dictionary) (p : Pattern) : Prop :=
  ∀ e ∈ p.placed, d.contains e.2.pattern = true → e.2.location.Measurable α e.1

theorem Pattern.mem_locations_of_placed {p : Pattern} {e : Placement × Component}
    (h : e ∈ p.placed) : e.2.location ∈ p.locations := by
  rcases List.mem_append.1 h with h | h <;> obtain ⟨c, hc, rfl⟩ := List.mem_map.1 h
  · exact List.mem_append_left _ (List.mem_map_of_mem hc)
  · exact List.mem_append_right _ (List.mem_map_of_mem hc)

section

variable {α : Type} [Scalar α]

namespace Scene

/-! ## Children -/

namespace Frame

variable (f : Frame α)

theorem failsUnless_place {mode : Placement} (hmode : mode = .inner ∨ mode = .outer)
    (component : String × Component) :
    FailsUnless .integerTooLarge (component.2.location.Measurable α mode)
      (f.place mode component) :=
  (failsUnless_placeBox _ _ _ _ hmode _ _).map _

theorem failsUnless_children (p : Pattern) :
    FailsUnless .integerTooLarge (p.Placeable α f.patterns) (f.children p) := by
  have hplace : ∀ mode, mode = .inner ∨ mode = .outer → ∀ t : Table String Component,
      FailsUnless .integerTooLarge
        (∀ c ∈ t.values, f.patterns.contains c.pattern = true → c.location.Measurable α mode)
        ((t.entries.filter f.shows).mapM (f.place mode)) := by
    intro mode hmode t
    refine (FailsUnless.mapM fun e _ => f.failsUnless_place hmode e).congr ?_
    simp only [List.mem_filter, Table.values, List.forall_mem_map, and_imp]
    rfl
  refine ((hplace .inner (.inl rfl) p.inner).bind fun inner =>
    (hplace .outer (.inr rfl) p.outer).map (inner ++ ·)).congr ?_
  simp only [Pattern.Placeable, Pattern.placed, List.forall_mem_append, List.forall_mem_map]

theorem exists_spread (autoDistribute : Bool) (children : List (Child α)) :
    ∃ cs, f.spread autoDistribute children = .ok cs := by
  unfold spread
  cases autoDistribute with
  | false => exact ⟨children, rfl⟩
  | true =>
    rw [if_pos rfl, result_distribute]
    exact ⟨_, rfl⟩

end Frame

/-! ## The whole scene -/

variable {d : Dictionary} {id : String} {p : Pattern} {settings : Settings α}
variable (surface : Size α) (positions : Positions α) (autoDistribute : Bool)

theorem innerArea_of_isZero {ratio : α} (hratio : isZero ratio = false) :
    ∃ parent, Rect.innerArea surface ratio = .ok parent := by
  unfold Rect.innerArea
  rw [hratio]
  exact ⟨_, rfl⟩

/-- If all extents fit, a scene can be built exactly if all measured offsets can be. -/
theorem failsUnless_build (hp : d.get? id = some p) (hratio : isZero settings.areaRatio = false)
    (hwords : InWords p.locations settings.headroom) :
    FailsUnless .integerTooLarge (p.Placeable α d)
      (build d id surface positions autoDistribute settings).result := by
  obtain ⟨parent, hparent⟩ := innerArea_of_isZero surface hratio
  obtain ⟨cell, hcell⟩ := (failsUnless_fitPatternCell p parent.size (.given settings)).ok hwords
  have hspread : ∀ (f : Frame α) (placed : List (Child α)),
      FailsUnless Error.integerTooLarge True (f.spread autoDistribute placed) :=
    fun f placed => .of_ok (f.exists_spread autoDistribute placed).choose_spec trivial
  rw [result_build, hp]
  simp only [hparent, hcell, ok_bind]
  exact ((Frame.failsUnless_children _ p).bind fun placed => (hspread _ placed).map _).congr
    (and_iff_left trivial)

theorem build_of_not_inWords (hp : d.get? id = some p)
    (hratio : isZero settings.areaRatio = false)
    (hwords : ¬ InWords p.locations settings.headroom) :
    (build d id surface positions autoDistribute settings).result = .error .extentTooLarge := by
  obtain ⟨parent, hparent⟩ := innerArea_of_isZero surface hratio
  have hcell := (failsUnless_fitPatternCell p parent.size (.given settings)).error hwords
  rw [result_build, hp]
  simp only [hparent, hcell, ok_bind]
  rfl

end Scene

end

/-! ## Doubles -/

theorem Document.extracted {doc : Document} {d : Dictionary} (h : doc.extract.result = .ok d) :
    ∀ e ∈ d.entries, e.2.Extracted := by
  cases doc with
  | plain tree => exact Extract.extracted_of_run h
  | shared heap root => exact Extract.extracted_of_run h

/-- An offset that starts at zero or above and whose cells fit a machine word is no problem. -/
theorem overflows_min_of_cells {o : Offset} {headroom : Int} (ho : o.Ordered)
    (hheadroom : 0 ≤ headroom) (hmin : 0 ≤ o.min) (hcells : isWord (o.cells headroom) = true) :
    overflows Float o.min = false := by
  have hle := min_le_cells ho hheadroom
  have hlt := (isWord_iff.1 hcells).2
  exact overflows_float_of_lt (by omega)

/-- Extracted offsets that fit machine words can be measured unless they start below zero. -/
theorem Pattern.Extracted.placeable_iff {d : Dictionary} {p : Pattern} (hp : p.Extracted)
    {headroom : Int} (hheadroom : 0 ≤ headroom) (hwords : InWords p.locations headroom) :
    p.Placeable Float d ↔ ∀ e ∈ p.placed, d.contains e.2.pattern = true →
      ∀ o ∈ e.2.location.measured e.1, o.min < 0 → overflows Float o.min = false := by
  refine ⟨fun h e he hshown o ho _ => h e he hshown o ho, fun h e he hshown o ho => ?_⟩
  rcases lt_or_ge o.min 0 with hmin | hmin
  · exact h e he hshown o ho hmin
  · obtain ⟨side, hside⟩ := Location.exists_get_of_measured ho
    have hlocation := mem_locations_of_placed he
    have hordered := hp.offsets _ hlocation side o hside
    exact overflows_min_of_cells hordered hheadroom hmin (hwords _ hlocation side o hside)

namespace Scene

variable {doc : Document} {d : Dictionary} {id : String} {p : Pattern}

/-- **Building fails for offsets that are too large**, and only for them: with the standard
settings, a scene of an extracted dictionary can be built exactly if every offset needs a number of
cells that fits a machine word, and no offset that is measured starts below every double. -/
theorem build_iff_of_extract (hd : doc.extract.result = .ok d) (hp : d.get? id = some p)
    (surface : Size Float) (positions : Positions Float) (autoDistribute : Bool) :
    ((∃ s, (build d id surface positions autoDistribute .standard).result = .ok s) ↔
        InWords p.locations 10 ∧ ∀ e ∈ p.placed, d.contains e.2.pattern = true →
          ∀ o ∈ e.2.location.measured e.1, o.min < 0 → overflows Float o.min = false) ∧
      ∀ cause, (build d id surface positions autoDistribute .standard).result = .error cause →
        cause = .extentTooLarge ∨ cause = .integerTooLarge := by
  have hratio : isZero (Settings.standard : Settings Float).areaRatio = false := by
    decide +kernel
  have hextracted : p.Extracted := Document.extracted hd _ (Table.get?_eq_some_iff.1 hp)
  by_cases hwords : InWords p.locations 10
  · have hbuild := failsUnless_build surface positions autoDistribute hp hratio hwords
    have hplaceable := hextracted.placeable_iff (d := d) (by decide) hwords
    refine ⟨hbuild.exists_ok_iff.trans (hplaceable.trans (and_iff_right hwords).symm), ?_⟩
    exact fun cause hcause => .inr (hbuild.of_error hcause).2
  · have hbuild := build_of_not_inWords surface positions autoDistribute hp hratio hwords
    rw [hbuild]
    exact ⟨⟨nofun, fun h => absurd h.1 hwords⟩, fun cause h => .inl (Except.error.inj h).symm⟩

/-- A document with one component that keeps a distance from the left. -/
def distant (left : String) : Document := .plain (.map [
  (.str "page", .map [
    (.str "inner", .map [
      (.str "note", .map [
        (.str "pattern", .str "box"), (.str "location", .map [(.str "left", .str left)])])])]),
  (.str "box", .map [])])

def distantPattern (left : Int) : Pattern :=
  { Pattern.blank with
    inner := .ofList
      [("note", ⟨"box", { Location.free with left := some (.exactly left) }⟩)] }

def distantDictionary (left : Int) : Dictionary :=
  .ofList [("page", distantPattern left), ("box", .blank)]

/-- A scene can be built with a distance of the greatest machine word, and not with one more. -/
theorem build_iff_of_extract_distant :
    ((distant "9223372036854775807").extract.result =
        .ok (distantDictionary 9223372036854775807) ∧
      (distantDictionary 9223372036854775807).get? "page" =
        some (distantPattern 9223372036854775807) ∧
      ∃ s, (build (distantDictionary 9223372036854775807) "page" (⟨900, 600⟩ : Size Float) ∅ true
        .standard).result = .ok s) ∧
    (distant "9223372036854775808").extract.result =
        .ok (distantDictionary 9223372036854775808) ∧
      (distantDictionary 9223372036854775808).get? "page" =
        some (distantPattern 9223372036854775808) ∧
      ¬ ∃ s, (build (distantDictionary 9223372036854775808) "page" (⟨900, 600⟩ : Size Float) ∅ true
        .standard).result = .ok s := by
  have hd : (distant "9223372036854775807").extract.result =
    .ok (distantDictionary 9223372036854775807) := rfl
  have hp : (distantDictionary 9223372036854775807).get? "page" =
    some (distantPattern 9223372036854775807) := rfl
  have hd' : (distant "9223372036854775808").extract.result =
    .ok (distantDictionary 9223372036854775808) := rfl
  have hp' : (distantDictionary 9223372036854775808).get? "page" =
    some (distantPattern 9223372036854775808) := rfl
  refine ⟨⟨hd, hp, ?_⟩, hd', hp', fun h => ?_⟩
  · refine (build_iff_of_extract hd hp ⟨900, 600⟩ ∅ true).1.2 ⟨fun l hl side o ho => ?_, ?_⟩
    · obtain rfl := List.mem_singleton.1 hl
      cases side <;> cases ho
      decide
    · decide +kernel
  · have hwords := ((build_iff_of_extract hd' hp' ⟨900, 600⟩ ∅ true).1.1 h).1
    have hword := hwords _ List.mem_cons_self .left _ rfl
    revert hword
    decide

end Scene

end LayoutGrammar
