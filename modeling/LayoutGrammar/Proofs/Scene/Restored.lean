import LayoutGrammar.Proofs.Scene.Build
import LayoutGrammar.Proofs.Scene.Session
import LayoutGrammar.Proofs.Table

/-!
# Scenes that are built again

Sessions change nothing but where boxes stand (`moved_afterSessions`). Since placement and name tell
the children apart, the remembered places are found again one by one (`get?_positions`), and a scene
that is built again with them is the scene that was left (`build_positions_afterSessions`).
-/

namespace LayoutGrammar

variable {α : Type} [Scalar α]

namespace Child.Moved

variable {c c' : Child α}

omit [Scalar α]

theorem withPosition (positions : Positions α) (c : Child α) :
    c.Moved (Scene.withPosition positions c) := by
  unfold Scene.withPosition
  split
  · exact ⟨_, _, rfl⟩
  · exact refl c

/-- A child that was moved goes where it stands if that place is known. -/
theorem withPosition_eq (h : c.Moved c') {positions : Positions α}
    (hknown : positions.get? c'.key = some (c'.bounds.x, c'.bounds.y)) :
    Scene.withPosition positions c = c' := by
  obtain ⟨x, y, rfl⟩ := h
  unfold Scene.withPosition
  rw [show c.key = Child.key { c with bounds := c.bounds.placedAt x y } from rfl, hknown]
  rfl

end Child.Moved

namespace Scene

variable {s b : Scene α}

omit [Scalar α] in
/-- Where a child stands is found by its key. -/
theorem get?_positions (hkeys : (s.children.map Child.key).Nodup) {c : Child α}
    (hc : c ∈ s.children) : s.positions.get? c.key = some (c.bounds.x, c.bounds.y) := by
  have hdistinct : DistinctKeys (s.children.map fun c => (c.key, (c.bounds.x, c.bounds.y))) := by
    rw [distinctKeys_iff_nodup, List.map_map]
    exact hkeys
  rw [Table.get?_eq_some_iff, positions, Table.entries_ofList hdistinct]
  exact List.mem_map_of_mem hc

omit [Scalar α] in
/-- Children that were moved are the old ones put where they stand. -/
theorem map_withPosition_positions {children : List (Child α)}
    (hkeys : (b.children.map Child.key).Nodup)
    (hmoved : List.Forall₂ Child.Moved b.children children) :
    b.children.map (withPosition (positions { b with children })) = children := by
  have hkeys' : (children.map Child.key).Nodup := by
    rwa [keys_of_forall₂ (fun c c' (h : c.Moved c') => h.key_eq) hmoved]
  rw [← List.forall₂_eq_eq_eq, List.forall₂_map_left_iff, List.forall₂_iff_zip]
  refine ⟨hmoved.length_eq, fun {c c'} hzip => ?_⟩
  have hcc' : c.Moved c' := (List.forall₂_iff_zip.1 hmoved).2 hzip
  exact hcc'.withPosition_eq (get?_positions hkeys' (List.of_mem_zip hzip).2)

/-- **Remembered places restore a scene**: whatever has been dragged, a scene that is built again
with the places where its children stand is the scene that was left. -/
theorem build_positions_afterSessions {d : Dictionary} {id : String} {surface : Size α}
    {before : Positions α} {autoDistribute : Bool} {settings : Settings α}
    (h : (build d id surface before autoDistribute settings).result = .ok s)
    (sessions : List (DragSession α)) :
    (build d id surface (s.afterSessions sessions).positions autoDistribute settings).result =
      .ok (s.afterSessions sessions) := by
  rw [result_build_positions] at h
  obtain ⟨b, hb, rfl⟩ := except_map_ok.1 h
  have hkeys : (b.children.map Child.key).Nodup := nodup_keys_of_build hb
  have hkeys' : ((b.children.map (withPosition before)).map Child.key).Nodup := by
    have hsame : (b.children.map (withPosition before)).map Child.key =
        b.children.map Child.key := by
      rw [List.map_map]
      exact List.map_congr_left fun c _ => (Child.Moved.withPosition before c).key_eq
    rwa [hsame]
  obtain ⟨children, hafter, hmoved⟩ :=
    moved_afterSessions (s := { b with children := b.children.map (withPosition before) }) hkeys'
      sessions
  have hall : List.Forall₂ Child.Moved b.children children := by
    rw [List.forall₂_map_left_iff] at hmoved
    exact hmoved.imp fun c c' h => (Child.Moved.withPosition before c).trans h
  rw [hafter, result_build_positions, hb]
  have hrestored := map_withPosition_positions hkeys hall
  exact congrArg (fun children => Except.ok { b with children }) hrestored

/-- Two drags, of which the second one leads nowhere. -/
def panelDrags : List (DragSession Rat) :=
  [⟨(.inner, "icon"), [.start, .move 90 140]⟩, ⟨(.outer, "title"), [.start, .move 20 280, .stop]⟩]

theorem build_positions_afterSessions_panel :
    (build panel "panel" ⟨300, 300⟩ ∅ false .standard).result = .ok panelScene ∧
      panelScene.afterSessions panelDrags ≠ panelScene ∧
      (build panel "panel" ⟨300, 300⟩ (panelScene.afterSessions panelDrags).positions false
        .standard).result = .ok (panelScene.afterSessions panelDrags) :=
  ⟨build_panel, by decide +kernel, build_positions_afterSessions build_panel panelDrags⟩

end Scene

end LayoutGrammar
