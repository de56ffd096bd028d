import LayoutGrammar.Scene.Session
import LayoutGrammar.Proofs.Geometry.Rect
import LayoutGrammar.Proofs.Logged
import Mathlib.Data.List.Forall2
import Mathlib.Data.List.Nodup

/-!
# What drag sessions change

A gesture changes nothing but its box, and every box it ever has is the one before or a proposed
place made legal (`applyOrKeep_cases`). So what making a place legal keeps, a gesture keeps
(`gesture_induction`), and since a session writes the box of a gesture into one child and leaves the
rest of the scene alone, sessions keep it for every child (`forall₂_afterSessions`). Nothing of this
depends on the coordinates.
-/

namespace LayoutGrammar

variable {α : Type} [Scalar α]

namespace DragLimits

/-- Making a place legal keeps the size of the box. -/
theorem size_of_adjust {c : DragLimits α} {current box : Rect α} {x y : α}
    (h : c.adjust current x y = .ok box) : box.size = current.size := by
  obtain ⟨mode, parent, surface, pins, initial, attachment⟩ := c
  cases mode with
  | inner =>
    obtain rfl := Except.ok.inj h
    rfl
  | outer =>
    obtain ⟨x', y', hpush⟩ := Rect.exists_pushOut
      (freeze ⟨.outer, parent, surface, pins, initial, attachment⟩ current x y) parent surface
      (attachment.bind Side.ofName?)
    rw [← Except.ok.inj h, hpush]
    rfl
  | other name => cases h

end DragLimits

/-- Following the pointer ends at a proposed place that was made legal, or where it began. -/
theorem Layout.followPointer_cases {x y : α} {current box : Rect α} {c : DragLimits α}
    {siblings : List (Rect α)} (h : (followPointer x y current c siblings).result = .ok box) :
    box = current ∨ ∃ x' y', c.adjust current x' y' = .ok box := by
  simp only [followPointer, adjustProposal, result_traced, Logged.result_bind,
    Logged.result_ofExcept, Logged.result_pure, except_bind_ok] at h
  obtain ⟨full, hfull, onlyx, honlyx, onlyy, honlyy, hbox⟩ := h
  have hfound := Except.ok.inj hbox
  cases hfind : [full, onlyx, onlyy].find? (c.admits siblings) with
  | none =>
    rw [hfind] at hfound
    exact .inl hfound.symm
  | some found =>
    rw [hfind, Option.getD_some] at hfound
    subst hfound
    have hmem := List.mem_of_find?_eq_some hfind
    simp only [List.mem_cons, List.not_mem_nil, or_false] at hmem
    rcases hmem with rfl | rfl | rfl
    · exact .inr ⟨_, _, hfull⟩
    · exact .inr ⟨_, _, honlyx⟩
    · exact .inr ⟨_, _, honlyy⟩

namespace GestureStep

/-- A step can change whether the child is dragged and where its box stands, nothing else. -/
theorem applyOrKeep_cases (g : Gesture α) (step : GestureStep α) :
    ∃ bounds isDragging, applyOrKeep g step = { g with bounds, isDragging } ∧
      (bounds = g.bounds ∨ ∃ x y, g.constraints.adjust g.bounds x y = .ok bounds) := by
  unfold applyOrKeep
  cases hstep : (step.apply g).result with
  | error cause => exact ⟨g.bounds, g.isDragging, rfl, .inl rfl⟩
  | ok g' =>
    cases step with
    | start =>
      simp only [apply, Gesture.start, result_traced] at hstep
      split at hstep <;> obtain rfl := Except.ok.inj hstep
      · exact ⟨_, _, rfl, .inl rfl⟩
      · exact ⟨_, _, rfl, .inl rfl⟩
    | stop =>
      obtain rfl := Except.ok.inj hstep
      exact ⟨_, _, rfl, .inl rfl⟩
    | move x y =>
      simp only [apply, Gesture.move, result_traced] at hstep
      split at hstep
      · rw [Logged.result_bind, except_bind_ok] at hstep
        obtain ⟨bounds, hfollow, hg'⟩ := hstep
        obtain rfl := Except.ok.inj hg'
        exact ⟨bounds, _, rfl, Layout.followPointer_cases hfollow⟩
      · obtain rfl := Except.ok.inj hstep
        exact ⟨_, _, rfl, .inl rfl⟩

/-- What holds of the box of a gesture at its start, and of every proposed place that is made legal
from a box of which it holds, holds after any steps. -/
theorem gesture_induction {I : Rect α → Prop} {g : Gesture α}
    (hadjust : ∀ current x y box, I current → g.constraints.adjust current x y = .ok box → I box)
    (hstart : I g.bounds) (steps : List (GestureStep α)) :
    I (steps.foldl applyOrKeep g).bounds := by
  induction steps generalizing g with
  | nil => exact hstart
  | cons step rest ih =>
    obtain ⟨bounds, isDragging, hstep, hbounds⟩ := applyOrKeep_cases g step
    rw [List.foldl_cons, hstep]
    refine ih hadjust ?_
    rcases hbounds with rfl | ⟨x, y, hbox⟩
    · exact hstart
    · exact hadjust _ x y _ hstart hbox

end GestureStep

namespace Scene

variable {s s' : Scene α}

/-- What restricts a child of a scene while it is dragged. -/
def limitsFor (s : Scene α) (c : Child α) : DragLimits α where
  mode := c.mode
  parent := s.parent
  surface := s.surface
  pins := c.pins
  initial := c.initial
  attachment := c.attachment.map Side.name

omit [Scalar α] in
theorem of_child_eq_ok {key : ChildKey} {c : Child α} (h : s.child key = .ok c) :
    c ∈ s.children ∧ c.key = key := by
  unfold child at h
  split at h
  · next found hfind =>
    obtain rfl := Except.ok.inj h
    have hkey : decide (found.key = key) = true := by simpa using List.find?_some hfind
    exact ⟨List.mem_of_find?_eq_some hfind, of_decide_eq_true hkey⟩
  · cases h

omit [Scalar α] in
theorem gestureFor_eq_ok_iff {key : ChildKey} {g : Gesture α} :
    s.gestureFor key = .ok g ↔ ∃ c, s.child key = .ok c ∧
      g = .idle c.bounds (s.limitsFor c) ((s.siblings key).map (·.bounds)) := by
  unfold gestureFor
  rw [except_bind_ok]
  exact exists_congr fun c => and_congr_right fun _ => ok_eq_ok_iff

/-- A session puts the box at which a gesture ends into the child that the gesture is for. -/
theorem afterSession_eq_ok_iff {session : DragSession α} :
    s.afterSession session = .ok s' ↔
      ∃ c g, s.child session.key = .ok c ∧ s.gestureFor session.key = .ok g ∧
        s' = { s with
          children := s.children.map fun b =>
            if b.key = session.key then
              { b with bounds := (session.steps.foldl GestureStep.applyOrKeep g).bounds }
            else b } := by
  unfold afterSession commit
  simp only [except_bind_ok]
  constructor
  · rintro ⟨g, hg, c, hc, h⟩
    exact ⟨c, g, hc, hg, (Except.ok.inj h).symm⟩
  · rintro ⟨c, g, hc, hg, rfl⟩
    exact ⟨g, hg, c, hc, rfl⟩

/-- What every session that succeeds keeps holds after any sessions. -/
theorem afterSessions_induction {I : Scene α → Prop}
    (hstep : ∀ s session s', I s → s.afterSession session = .ok s' → I s') (hs : I s)
    (sessions : List (DragSession α)) : I (s.afterSessions sessions) := by
  unfold afterSessions
  induction sessions generalizing s with
  | nil => exact hs
  | cons session rest ih =>
    rw [List.foldl_cons]
    refine ih ?_
    split
    · next s' h => exact hstep s session s' hs h
    · exact hs

omit [Scalar α] in
theorem keys_of_forall₂ {R : Child α → Child α → Prop} (hkey : ∀ c c', R c c' → c'.key = c.key)
    {cs cs' : List (Child α)} (h : List.Forall₂ R cs cs') :
    cs'.map Child.key = cs.map Child.key := by
  rw [eq_comm, ← List.forall₂_eq_eq_eq, List.forall₂_map_left_iff, List.forall₂_map_right_iff]
  exact h.imp fun c c' hc => (hkey c c' hc).symm

/-- **Sessions keep what making places legal keeps**: a relation between the children of a scene and
what becomes of them that no legal move of a child breaks holds after any sessions, which change
nothing but the boxes. -/
theorem forall₂_afterSessions {R : Child α → Child α → Prop}
    (hkeys : (s.children.map Child.key).Nodup) (hkey : ∀ c c', R c c' → c'.key = c.key)
    (hadjust : ∀ c c' x y box, R c c' → (s.limitsFor c').adjust c'.bounds x y = .ok box →
      R c { c' with bounds := box })
    (hs : ∀ c ∈ s.children, R c c) (sessions : List (DragSession α)) :
    ∃ children, s.afterSessions sessions = { s with children } ∧
      List.Forall₂ R s.children children := by
  refine afterSessions_induction
    (I := fun s' => ∃ children, s' = { s with children } ∧ List.Forall₂ R s.children children) ?_
    ⟨s.children, rfl, List.forall₂_same.2 hs⟩ sessions
  rintro _ session s' ⟨children, rfl, hR⟩ h
  obtain ⟨c', g, hc', hg, rfl⟩ := afterSession_eq_ok_iff.1 h
  obtain ⟨hmem, hc'key⟩ := of_child_eq_ok hc'
  refine ⟨_, rfl, ?_⟩
  have hkeys' : (children.map Child.key).Nodup := by rwa [keys_of_forall₂ hkey hR]
  have hgesture : ∀ c, R c c' →
      R c { c' with bounds := (session.steps.foldl GestureStep.applyOrKeep g).bounds } := by
    obtain ⟨dragged, hdragged, rfl⟩ := gestureFor_eq_ok_iff.1 hg
    obtain rfl : c' = dragged := Except.ok.inj (hc'.symm.trans hdragged)
    intro c hc
    exact GestureStep.gesture_induction (I := fun box => R c { c' with bounds := box })
      (fun current x y box hcurrent hbox =>
        hadjust c { c' with bounds := current } x y box hcurrent hbox) hc session.steps
  -- distinct keys single out the child that the session is for
  rw [List.forall₂_map_right_iff, List.forall₂_iff_zip]
  refine ⟨hR.length_eq, fun {c b} hzip => ?_⟩
  have hcb : R c b := (List.forall₂_iff_zip.1 hR).2 hzip
  split
  · next hbkey =>
    obtain rfl : b = c' := List.inj_on_of_nodup_map hkeys' (List.of_mem_zip hzip).2 hmem
      (hbkey.trans hc'key.symm)
    exact hgesture c hcb
  · exact hcb

end Scene

/-! ## Moved children -/

/-- The same child with its box at another place. -/
def Child.Moved (c c' : Child α) : Prop :=
  ∃ x y, c' = { c with bounds := c.bounds.placedAt x y }

namespace Child.Moved

variable {c c' c'' : Child α}

omit [Scalar α]

theorem refl (c : Child α) : c.Moved c := ⟨c.bounds.x, c.bounds.y, rfl⟩

theorem trans (h : c.Moved c') (h' : c'.Moved c'') : c.Moved c'' := by
  obtain ⟨_, _, rfl⟩ := h
  obtain ⟨x, y, rfl⟩ := h'
  exact ⟨x, y, rfl⟩

theorem key_eq (h : c.Moved c') : c'.key = c.key := by
  obtain ⟨x, y, rfl⟩ := h
  rfl

theorem of_size_eq {box : Rect α} (h : box.size = c.bounds.size) :
    c.Moved { c with bounds := box } :=
  ⟨box.x, box.y, by rw [← Rect.eq_placedAt h]⟩

end Child.Moved

/-- Sessions change nothing but where boxes stand. -/
theorem Scene.moved_afterSessions {s : Scene α} (hkeys : (s.children.map Child.key).Nodup)
    (sessions : List (DragSession α)) :
    ∃ children, s.afterSessions sessions = { s with children } ∧
      List.Forall₂ Child.Moved s.children children := by
  refine forall₂_afterSessions hkeys (fun c c' h => h.key_eq) ?_ (fun c _ => .refl c) sessions
  intro c c' x y box hmoved hbox
  exact hmoved.trans (.of_size_eq (DragLimits.size_of_adjust hbox))

end LayoutGrammar
