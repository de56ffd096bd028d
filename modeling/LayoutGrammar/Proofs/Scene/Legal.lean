import LayoutGrammar.Proofs.Scene.Drag
import Mathlib.Data.List.Nodup
import Mathlib.Data.List.Pairwise

/-!
# Scenes that stay legal

A scene is legal if its keys are distinct, no two of its children overlap, and every child stands
where its placement allows. A gesture starts legal in such a scene, since its siblings are all
children but one, and committing the box at which it ends keeps the scene legal
(`exists_session`). By induction this goes on for any number of sessions (`legal_afterSessions`).
-/

namespace LayoutGrammar

namespace Scene

/-- Distinct keys, boxes apart from each other, and every box where its placement allows. -/
structure Legal (s : Scene Rat) : Prop where
  keys : (s.children.map Child.key).Nodup
  apart : s.children.Pairwise fun a b => a.bounds.collides b.bounds = false
  placed : ∀ c ∈ s.children, c.mode.Allows s.parent s.surface c.bounds

/-- Carries out a session of which each step has to succeed. -/
def performSession (s : Scene Rat) (session : DragSession Rat) : Except Error (Scene Rat) := do
  let g ← s.gestureFor session.key
  let g ← GestureStep.run g session.steps
  s.commit session.key g.bounds

/-- The scene with the box of one child replaced. -/
def withBox (s : Scene Rat) (key : ChildKey) (bounds : Rect Rat) : Scene Rat :=
  { s with children := s.children.map fun c => if c.key = key then { c with bounds } else c }

/-- What stays of a child wherever it is dragged. -/
def fixedPart (c : Child Rat) : ChildKey × Size Rat × Rect Rat := (c.key, c.bounds.size, c.initial)

variable {s : Scene Rat}

theorem exists_child {key : ChildKey} (h : key ∈ s.children.map Child.key) :
    ∃ c ∈ s.children, c.key = key ∧ s.child key = .ok c := by
  obtain ⟨c₀, hc₀, hkey₀⟩ := List.mem_map.1 h
  have hsome : (s.children.find? (·.key = key)).isSome = true :=
    List.find?_isSome.2 ⟨c₀, hc₀, decide_eq_true hkey₀⟩
  obtain ⟨c, hc⟩ := Option.isSome_iff_exists.1 hsome
  have hkey : decide (c.key = key) = true := by simpa using List.find?_some hc
  refine ⟨c, List.mem_of_find?_eq_some hc, of_decide_eq_true hkey, ?_⟩
  rw [child, hc]

theorem child_eq_error {key : ChildKey} (h : key ∉ s.children.map Child.key) :
    s.child key = .error (.unknownComponent s.pattern key.1.name key.2) := by
  have hnone : s.children.find? (·.key = key) = none := by
    rw [List.find?_eq_none]
    intro c hc hkey
    exact h (List.mem_map.2 ⟨c, hc, of_decide_eq_true hkey⟩)
  rw [child, hnone]

theorem Legal.apart_of_ne (h : s.Legal) {a b : Child Rat} (ha : a ∈ s.children)
    (hb : b ∈ s.children) (hne : a.key ≠ b.key) : a.bounds.collides b.bounds = false := by
  have hsymm : Std.Symm fun a b : Child Rat => a.bounds.collides b.bounds = false :=
    ⟨fun a b hab => by rwa [Rect.collides_comm]⟩
  exact h.apart.forall ha hb fun heq => hne (congrArg Child.key heq)

/-! ## One session -/

/-- A gesture for a child of a legal scene starts legal. -/
theorem exists_gestureFor (h : s.Legal) {c : Child Rat} (hc : c ∈ s.children)
    (hchild : s.child c.key = .ok c) :
    ∃ g, s.gestureFor c.key = .ok g ∧ g.Legal ∧ g.bounds = c.bounds ∧
      g.siblings = (s.siblings c.key).map (·.bounds) ∧
      ∀ box, g.constraints.Allows box → c.mode.Allows s.parent s.surface box := by
  let limits : DragLimits Rat :=
    { mode := c.mode
      parent := s.parent
      surface := s.surface
      pins := c.pins
      initial := c.initial
      attachment := c.attachment.map Side.name }
  refine ⟨.idle c.bounds limits ((s.siblings c.key).map (·.bounds)), ?_, ⟨?_, ?_⟩, rfl, rfl,
    fun box hbox => hbox⟩
  · rw [gestureFor, hchild]
    rfl
  · exact h.placed c hc
  · intro other hother
    obtain ⟨b, hb, rfl⟩ := List.mem_map.1 hother
    obtain ⟨hmem, hne⟩ := List.mem_filter.1 hb
    exact h.apart_of_ne hc hmem fun heq => of_decide_eq_true hne heq.symm

/-- A box that is allowed and apart from all siblings keeps the scene legal. -/
theorem Legal.withBox (h : s.Legal) {c : Child Rat} {box : Rect Rat}
    (hplace : c.mode.Allows s.parent s.surface box)
    (hapart : ∀ other ∈ s.siblings c.key, box.collides other.bounds = false) :
    (s.withBox c.key box).Legal := by
  have hsibling : ∀ b ∈ s.children, b.key ≠ c.key → box.collides b.bounds = false := by
    intro b hb hne
    exact hapart b (List.mem_filter.2 ⟨hb, decide_eq_true hne⟩)
  refine ⟨?_, ?_, ?_⟩
  · have hkeys : (s.withBox c.key box).children.map Child.key = s.children.map Child.key := by
      rw [Scene.withBox, List.map_map]
      refine List.map_congr_left fun b _ => ?_
      rw [Function.comp_apply]
      split <;> rfl
    rw [hkeys]
    exact h.keys
  · have hdistinct : s.children.Pairwise fun a b => a.key ≠ b.key := List.pairwise_map.1 h.keys
    -- of two children at most one has the key, so at most one of the two boxes is new
    refine List.pairwise_map.2 ((hdistinct.and h.apart).imp_of_mem ?_)
    rintro a b ha hb ⟨hne, hab⟩
    by_cases hkey : a.key = c.key
    · rw [if_pos hkey, if_neg fun heq => hne (hkey.trans heq.symm)]
      exact hsibling b hb fun heq => hne (hkey.trans heq.symm)
    · rw [if_neg hkey]
      by_cases hkey' : b.key = c.key
      · rw [if_pos hkey', Rect.collides_comm]
        exact hsibling a ha hkey
      · rwa [if_neg hkey']
  · intro b' hb'
    obtain ⟨b, hb, rfl⟩ := List.mem_map.1 hb'
    split
    · next hkey =>
      have hmode : b.mode = c.mode := congrArg Prod.fst hkey
      change b.mode.Allows s.parent s.surface box
      rwa [hmode]
    · exact h.placed b hb

theorem fixedPart_withBox (h : s.Legal) {c : Child Rat} (hc : c ∈ s.children) (x y : Rat) :
    (s.withBox c.key (c.bounds.placedAt x y)).children.map fixedPart =
      s.children.map fixedPart := by
  rw [withBox, List.map_map]
  refine List.map_congr_left fun b hb => ?_
  rw [Function.comp_apply]
  split
  · next hkey =>
    obtain rfl := List.inj_on_of_nodup_map h.keys hb hc hkey
    rfl
  · rfl

/-- **A session with a child of a legal scene succeeds, keeps the scene legal and moves no more than
a corner.** -/
theorem exists_session (h : s.Legal) {session : DragSession Rat}
    (hkey : session.key ∈ s.children.map Child.key) :
    ∃ s', s.performSession session = .ok s' ∧ s.afterSession session = .ok s' ∧ s'.Legal ∧
      s'.parent = s.parent ∧ s'.surface = s.surface ∧
      s'.children.map fixedPart = s.children.map fixedPart := by
  obtain ⟨key, steps⟩ := session
  obtain ⟨c, hc, rfl, hchild⟩ := exists_child hkey
  obtain ⟨g, hg, hlegal, hbounds, hsiblings, hallows⟩ := exists_gestureFor h hc hchild
  obtain ⟨g', hrun, hfold, hlegal', x, y, isDragging, rfl⟩ := GestureStep.exists_run hlegal steps
  have hcommit : s.commit c.key (g.bounds.placedAt x y) =
      .ok (s.withBox c.key (c.bounds.placedAt x y)) := by
    rw [commit, hchild, hbounds]
    rfl
  have hplace := hlegal'.place
  have hapart := hlegal'.apart
  refine ⟨_, ?_, ?_, h.withBox ?_ ?_, rfl, rfl, fixedPart_withBox h hc x y⟩
  · rw [performSession, hg, ok_bind, hrun, ok_bind, hcommit]
  · rw [afterSession, hg, ok_bind, hfold, hcommit]
  · rw [← hbounds]
    exact hallows _ hplace
  · intro other hother
    rw [← hbounds]
    refine hapart other.bounds ?_
    rw [hsiblings]
    exact List.mem_map.2 ⟨other, hother, rfl⟩

/-! ## Many sessions -/

/-- **Dragging keeps a scene legal**, moves boxes without changing anything else about the children,
and never fails on a child that exists. -/
theorem legal_afterSessions (h : s.Legal) (sessions : List (DragSession Rat)) :
    (s.afterSessions sessions).Legal ∧ (s.afterSessions sessions).parent = s.parent ∧
      (s.afterSessions sessions).surface = s.surface ∧
      (s.afterSessions sessions).children.map fixedPart = s.children.map fixedPart ∧
      ((∀ session ∈ sessions, session.key ∈ s.children.map Child.key) →
        sessions.foldlM performSession s = .ok (s.afterSessions sessions)) := by
  induction sessions generalizing s with
  | nil => exact ⟨h, rfl, rfl, rfl, fun _ => rfl⟩
  | cons session rest ih =>
    by_cases hkey : session.key ∈ s.children.map Child.key
    · obtain ⟨s₁, hperform, hafter, hlegal, hparent, hsurface, hfixed⟩ := exists_session h hkey
      have hfirst : s.afterSessions (session :: rest) = s₁.afterSessions rest := by
        rw [afterSessions, List.foldl_cons, hafter]
        rfl
      have hkeys : s₁.children.map Child.key = s.children.map Child.key := by
        have hmap := congrArg (List.map Prod.fst) hfixed
        rwa [List.map_map, List.map_map] at hmap
      obtain ⟨hlegal', hparent', hsurface', hfixed', hperform'⟩ := ih hlegal
      rw [hfirst]
      refine ⟨hlegal', hparent'.trans hparent, hsurface'.trans hsurface, hfixed'.trans hfixed,
        fun hall => ?_⟩
      rw [List.foldlM_cons, hperform, ok_bind]
      refine hperform' fun later hlater => ?_
      rw [hkeys]
      exact hall later (List.mem_cons_of_mem _ hlater)
    · have hskip : s.afterSessions (session :: rest) = s.afterSessions rest := by
        have hmissing : s.afterSession session =
            .error (.unknownComponent s.pattern session.key.1.name session.key.2) := by
          rw [afterSession, gestureFor, child_eq_error hkey]
          rfl
        rw [afterSessions, List.foldl_cons, hmissing]
        rfl
      obtain ⟨hlegal', hparent', hsurface', hfixed', -⟩ := ih h
      rw [hskip]
      exact ⟨hlegal', hparent', hsurface', hfixed',
        fun hall => absurd (hall session List.mem_cons_self) hkey⟩

/-- A child inside its parent and one to the left of it. -/
def insideAndBeside : Scene Rat where
  pattern := "p"
  surface := ⟨300, 200⟩
  parent := ⟨50, 30, 200, 140⟩
  cell := 10
  children := [
    { name := "a", mode := .inner, pattern := "a", location := none, bounds := ⟨60, 40, 20, 20⟩,
      initial := ⟨60, 40, 20, 20⟩, pins := .ofLocation .free, draggable := true,
      attachment := none },
    { name := "b", mode := .outer, pattern := "b", location := none, bounds := ⟨0, 90, 40, 20⟩,
      initial := ⟨0, 90, 40, 20⟩, pins := .ofLocation .free, draggable := true,
      attachment := some .left }]

theorem legal_insideAndBeside : insideAndBeside.Legal := by
  refine ⟨by decide, by decide +kernel, ?_⟩
  intro c hc
  rcases List.mem_pair.1 hc with rfl | rfl
  · exact ⟨by decide +kernel, by decide +kernel, by decide +kernel, by decide +kernel⟩
  · exact ⟨⟨by decide +kernel, by decide +kernel, by decide +kernel, by decide +kernel⟩,
      by decide +kernel⟩

theorem legal_afterSessions_insideAndBeside :
    insideAndBeside.Legal ∧ ∃ s', insideAndBeside.performSession
        ⟨(.inner, "a"), [.move 0 0, .start, .move 100 100, .move 1000 50, .stop]⟩ = .ok s' ∧
      s'.Legal := by
  obtain ⟨hlegal, -, -, -, hperform⟩ := legal_afterSessions legal_insideAndBeside
    [⟨(.inner, "a"), [.move 0 0, .start, .move 100 100, .move 1000 50, .stop]⟩]
  have hall := hperform (by decide)
  rw [List.foldlM_cons, except_bind_ok] at hall
  obtain ⟨s', hs', heq⟩ := hall
  have hsame : s' = _ := Except.ok.inj heq
  exact ⟨legal_insideAndBeside, s', hs', hsame ▸ hlegal⟩

end Scene

end LayoutGrammar
