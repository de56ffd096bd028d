import LayoutGrammar.Scene.Basic
import LayoutGrammar.Proofs.Logged
import LayoutGrammar.Proofs.Table
import Mathlib.Data.List.Forall2
import Mathlib.Data.List.Nodup

/-!
# What a built scene consists of

Without its trace, `build` is a plain computation (`result_build`): every component whose pattern
exists becomes a child, in order, from its own location alone (`result_placeChildren`), the children
are spread if that is wanted, and known positions are put in at the very end
(`result_build_positions`). Placement and name of a component tell the children of a scene apart
(`nodup_keys_of_build`).
-/

namespace LayoutGrammar

open Layout

namespace Scene

variable {α : Type} [Scalar α]

/-! ## Children -/

/-- The child that a component becomes at a box. -/
def freshChild (mode : Placement) (component : String × Component) (box : Rect α) : Child α where
  name := component.1
  mode := mode
  pattern := component.2.pattern
  location := some component.2.location
  bounds := box
  initial := box
  pins := .ofLocation component.2.location
  draggable := (Pins.ofLocation component.2.location).draggable
  attachment := if mode = .outer then component.2.location.primarySide else none

namespace Frame

variable {f : Frame α} {p : Pattern} {mode : Placement} {component : String × Component}
variable {c : Child α} {cs : List (Child α)}

/-- The pattern of a component exists. -/
def shows (f : Frame α) (component : String × Component) : Bool :=
  f.patterns.contains component.2.pattern

/-- The box of a location at a placement. -/
def box (f : Frame α) (mode : Placement) (l : Location) : Except Error (Rect α) :=
  (placeBox (some l) f.parent (f.settings.childSize mode) mode (some f.cell)
    (if mode = .outer then some f.surface else none) (.given f.settings)).result

/-- The child that a component becomes. -/
def place (f : Frame α) (mode : Placement) (component : String × Component) :
    Except Error (Child α) :=
  freshChild mode component <$> f.box mode component.2.location

/-- The children of a pattern before they are spread. -/
def children (f : Frame α) (p : Pattern) : Except Error (List (Child α)) := do
  let inner ← (p.inner.entries.filter f.shows).mapM (f.place .inner)
  let outer ← (p.outer.entries.filter f.shows).mapM (f.place .outer)
  pure (inner ++ outer)

/-- The children of a pattern, spread if that is wanted. -/
def spread (f : Frame α) (autoDistribute : Bool) (children : List (Child α)) :
    Except Error (List (Child α)) :=
  if autoDistribute then do
    let boxes ← (distribute children f.parent (.given f.settings)).result
    pure (children.map (withSpread boxes))
  else pure children

theorem place_eq_ok_iff :
    f.place mode component = .ok c ↔
      ∃ box, f.box mode component.2.location = .ok box ∧ c = freshChild mode component box :=
  except_map_ok

theorem children_eq_ok_iff :
    f.children p = .ok cs ↔ ∃ inner outer, cs = inner ++ outer ∧
      List.Forall₂ (fun e c => f.place .inner e = .ok c) (p.inner.entries.filter f.shows) inner ∧
      List.Forall₂ (fun e c => f.place .outer e = .ok c)
        (p.outer.entries.filter f.shows) outer := by
  unfold Frame.children
  simp only [except_bind_ok, mapM_eq_ok_iff]
  constructor
  · rintro ⟨inner, hinner, outer, houter, h⟩
    exact ⟨inner, outer, (Except.ok.inj h).symm, hinner, houter⟩
  · rintro ⟨inner, outer, rfl, hinner, houter⟩
    exact ⟨inner, hinner, outer, houter, rfl⟩

/-- A child comes from a component. -/
theorem exists_component (h : f.children p = .ok cs) (hc : c ∈ cs) :
    ∃ mode component, (mode = .inner ∨ mode = .outer) ∧ component.2.location ∈ p.locations ∧
      f.place mode component = .ok c := by
  have hmem : ∀ {mode} {t : Table String Component} {cs},
      List.Forall₂ (fun e c => f.place mode e = .ok c) (t.entries.filter f.shows) cs → c ∈ cs →
      ∃ e, e.2.location ∈ t.values.map (·.location) ∧ f.place mode e = .ok c := by
    intro mode t cs hcs hc
    obtain ⟨i, hi, rfl⟩ := List.getElem_of_mem hc
    have hi' : i < (t.entries.filter f.shows).length := hcs.length_eq ▸ hi
    have hentry := (List.mem_filter.1 (List.getElem_mem hi')).1
    exact ⟨_, List.mem_map_of_mem (List.mem_map_of_mem hentry), hcs.get hi' hi⟩
  obtain ⟨inner, outer, rfl, hinner, houter⟩ := children_eq_ok_iff.1 h
  rcases List.mem_append.1 hc with hc | hc
  · obtain ⟨e, he, hplace⟩ := hmem hinner hc
    exact ⟨.inner, e, .inl rfl, List.mem_append_left _ he, hplace⟩
  · obtain ⟨e, he, hplace⟩ := hmem houter hc
    exact ⟨.outer, e, .inr rfl, List.mem_append_right _ he, hplace⟩

/-- Placement and name tell the children apart. -/
theorem nodup_keys (h : f.children p = .ok cs) : (cs.map Child.key).Nodup := by
  have hkeys : ∀ {mode} {entries : List (String × Component)} {cs},
      List.Forall₂ (fun e c => f.place mode e = .ok c) (entries.filter f.shows) cs →
      cs.map Child.key = ((entries.filter f.shows).map (·.1)).map ((mode, ·)) := by
    intro mode entries cs hcs
    rw [List.map_map, ← List.forall₂_eq_eq_eq, List.forall₂_map_left_iff,
      List.forall₂_map_right_iff]
    refine hcs.flip.imp fun c e hplace => ?_
    obtain ⟨box, -, rfl⟩ := place_eq_ok_iff.1 hplace
    rfl
  have hnodup : ∀ (mode : Placement) (t : Table String Component),
      (((t.entries.filter f.shows).map (·.1)).map ((mode, ·))).Nodup := by
    intro mode t
    have hsub : ((t.entries.filter f.shows).map (·.1)).Sublist (t.entries.map (·.1)) :=
      List.filter_sublist.map _
    have hnames := (distinctKeys_iff_nodup.1 t.distinct).sublist hsub
    exact hnames.map fun _ _ heq => (Prod.mk.inj heq).2
  obtain ⟨inner, outer, rfl, hinner, houter⟩ := children_eq_ok_iff.1 h
  rw [List.map_append, hkeys hinner, hkeys houter]
  refine (hnodup .inner p.inner).append (hnodup .outer p.outer) ?_
  intro key hkey hkey'
  obtain ⟨_, -, rfl⟩ := List.mem_map.1 hkey
  obtain ⟨_, -, heq⟩ := List.mem_map.1 hkey'
  cases (Prod.mk.inj heq).1

theorem keys_of_spread {autoDistribute : Bool} {placed : List (Child α)}
    (h : f.spread autoDistribute placed = .ok cs) :
    cs.map Child.key = placed.map Child.key := by
  unfold spread at h
  split at h
  · obtain ⟨boxes, -, h⟩ := except_bind_ok.1 h
    obtain rfl := Except.ok.inj h
    rw [List.map_map]
    rfl
  · obtain rfl := Except.ok.inj h
    rfl

end Frame

theorem result_placeChild (f : Frame α) (mode : Placement) (component : String × Component) :
    (placeChild f mode component).result =
      if f.shows component then some <$> f.place mode component else pure none := by
  obtain ⟨name, c⟩ := component
  unfold placeChild Frame.shows Frame.place
  cases hshown : f.patterns.contains c.pattern with
  | false =>
    simp [hshown]
    rfl
  | true =>
    by_cases hmode : mode = .outer
    · simp [hshown, hmode, Frame.box, primarySide, freshChild]
      rfl
    · simp [hshown, hmode, Frame.box, freshChild]

/-- Every component whose pattern exists becomes a child, in order. -/
theorem result_placeChildren (f : Frame α) (mode : Placement)
    (entries : List (String × Component)) :
    (placeChildren f mode entries).result = (entries.filter f.shows).mapM (f.place mode) := by
  induction entries with
  | nil => rfl
  | cons e rest ih =>
    rw [placeChildren, Logged.result_bind, result_placeChild, List.filter_cons]
    cases f.shows e with
    | false =>
      simp only [Bool.false_eq_true, if_false, pure_bind, Logged.result_bind, ih]
      exact bind_pure _
    | true =>
      simp only [if_true, Logged.result_bind, ih, List.mapM_cons, bind_map_left]
      rfl

/-! ## The whole scene -/

theorem result_build (d : Dictionary) (id : String) (surface : Size α) (positions : Positions α)
    (autoDistribute : Bool) (settings : Settings α) :
    (build d id surface positions autoDistribute settings).result =
      (match d.get? id with
      | none => .error (.unknownPattern id)
      | some p => do
        let parent ← Rect.innerArea surface settings.areaRatio
        let cell ← (fitPatternCell p parent.size (.given settings)).result
        let frame : Frame α := ⟨d, surface, parent, cell, settings⟩
        let placed ← frame.children p
        let children ← frame.spread autoDistribute placed
        pure ⟨id, surface, parent, cell, children.map (withPosition positions)⟩) := by
  unfold build
  cases d.get? id with
  | none => rfl
  | some p =>
    simp only [Logged.result_bind, Logged.result_ofExcept, result_placeChildren, Frame.children,
      Frame.spread, bind_assoc, pure_bind]
    refine bind_congr fun parent => bind_congr fun cell => bind_congr fun inner =>
      bind_congr fun outer => ?_
    cases autoDistribute with
    | false => rfl
    | true =>
      simp only [if_true, Logged.result_bind, bind_assoc]
      rfl

omit [Scalar α] in
@[simp] theorem map_withPosition_empty (cs : List (Child α)) : cs.map (withPosition ∅) = cs :=
  List.map_id cs

/-- Known positions are put into a scene that is built without any. -/
theorem result_build_positions (d : Dictionary) (id : String) (surface : Size α)
    (positions : Positions α) (autoDistribute : Bool) (settings : Settings α) :
    (build d id surface positions autoDistribute settings).result =
      (fun s => { s with children := s.children.map (withPosition positions) }) <$>
        (build d id surface ∅ autoDistribute settings).result := by
  rw [result_build, result_build]
  cases d.get? id with
  | none => rfl
  | some p => simp only [map_bind, map_pure, map_withPosition_empty]

/-- What went into a scene that was built without positions. -/
theorem build_eq_ok_iff {d : Dictionary} {id : String} {surface : Size α} {autoDistribute : Bool}
    {settings : Settings α} {s : Scene α} :
    (build d id surface ∅ autoDistribute settings).result = .ok s ↔
      s.pattern = id ∧ s.surface = surface ∧ ∃ p placed, d.get? id = some p ∧
        Rect.innerArea surface settings.areaRatio = .ok s.parent ∧
        (fitPatternCell p s.parent.size (.given settings)).result = .ok s.cell ∧
        Frame.children ⟨d, surface, s.parent, s.cell, settings⟩ p = .ok placed ∧
        Frame.spread ⟨d, surface, s.parent, s.cell, settings⟩ autoDistribute placed =
          .ok s.children := by
  rw [result_build]
  cases d.get? id with
  | none => exact ⟨nofun, nofun⟩
  | some p =>
    simp only [except_bind_ok, map_withPosition_empty]
    constructor
    · rintro ⟨parent, hparent, cell, hcell, placed, hplaced, children, hchildren, h⟩
      obtain rfl := Except.ok.inj h
      exact ⟨rfl, rfl, p, placed, rfl, hparent, hcell, hplaced, hchildren⟩
    · rintro ⟨rfl, rfl, _, placed, ⟨⟩, hparent, hcell, hplaced, hchildren⟩
      exact ⟨_, hparent, _, hcell, placed, hplaced, _, hchildren, rfl⟩

theorem nodup_keys_of_build {d : Dictionary} {id : String} {surface : Size α}
    {autoDistribute : Bool} {settings : Settings α} {s : Scene α}
    (h : (build d id surface ∅ autoDistribute settings).result = .ok s) :
    (s.children.map Child.key).Nodup := by
  obtain ⟨-, -, p, placed, -, -, -, hplaced, hchildren⟩ := build_eq_ok_iff.1 h
  rw [Frame.keys_of_spread hchildren]
  exact Frame.nodup_keys hplaced

/-! ## An example -/

/-- A pattern with a child flush with its left side and one above it. -/
def panelPattern : Pattern :=
  { Pattern.blank with
    inner := .ofList
      [("icon", ⟨"box", { Location.free with left := some .zero, top := some ⟨1, some 4⟩ }⟩)]
    outer := .ofList [("title", ⟨"box", { Location.free with top := some .zero }⟩)] }

/-- That pattern and the one that its children show. -/
def panel : Dictionary := .ofList [("panel", panelPattern), ("box", .blank)]

theorem wellFormed_panel {p : Pattern} (hp : panel.get? "panel" = some p) {l : Location}
    (hl : l ∈ p.locations) (side : Side) {o : Offset} (ho : l.get side = some o) :
    o.WellFormed := by
  obtain rfl : panelPattern = p := Option.some.inj hp
  have hall : ∀ l ∈ panelPattern.locations, ∀ side ∈ Side.all, ∀ o ∈ l.get side,
      o.WellFormed := by decide
  exact hall l hl side (by cases side <;> decide) o ho

/-- The scene of that pattern. -/
def panelScene : Scene Rat where
  pattern := "panel"
  surface := ⟨300, 300⟩
  parent := ⟨50, 50, 200, 200⟩
  cell := 25
  children := [
    { name := "icon", mode := .inner, pattern := "box",
      location := some { Location.free with left := some .zero, top := some ⟨1, some 4⟩ },
      bounds := ⟨50, 75, 100, 70⟩, initial := ⟨50, 75, 100, 70⟩,
      pins := ⟨false, false, false, true⟩, draggable := true, attachment := none },
    { name := "title", mode := .outer, pattern := "box",
      location := some { Location.free with top := some .zero },
      bounds := ⟨100, 0, 100, 70⟩, initial := ⟨100, 0, 100, 70⟩,
      pins := ⟨true, false, false, false⟩, draggable := true, attachment := some .top }]

theorem build_panel :
    (build panel "panel" ⟨300, 300⟩ ∅ false .standard).result = .ok panelScene :=
  eq_ok_of_toOption (by decide +kernel)

end Scene

end LayoutGrammar
