import LayoutGrammar.Extends.Path
import LayoutGrammar.Proofs.Extends.Graph

/-!
# The search for a path

The depth-first search is sound and complete on every graph. Each trail that it keeps is a path from
the start along places that it has met (`Trail`), so what it returns is a path (`isPath_of_path?`).
Each place that it has met either still waits on the stack or has all its targets met
(`Explored`), so when nothing waits the goal is out of reach (`path?_eq_none_iff`).
-/

namespace LayoutGrammar.Extends

open Extends.Graph Relation

variable {g : Graph} {start goal : String}

theorem mem_marked_or_fresh {marked l : List String} {a : String} (h : a ∈ l) :
    a ∈ marked ∨ a ∈ fresh marked l := by
  induction l generalizing marked with
  | nil => cases h
  | cons b rest ih =>
    unfold fresh
    rcases List.mem_cons.1 h with rfl | h
    · split
      · next hm => exact .inl hm
      · exact .inr List.mem_cons_self
    · split
      · exact ih h
      · rcases @ih (b :: marked) h with hm | hf
        · rcases List.mem_cons.1 hm with rfl | hm
          · exact .inr List.mem_cons_self
          · exact .inl hm
        · exact .inr (List.mem_cons_of_mem _ hf)

/-! ## Soundness -/

/-- A trail of the search, latest place first: it leads back to the start along met places. -/
structure Trail (g : Graph) (start : String) (met trail : List String) : Prop where
  last : trail.getLast? = some start
  chain : trail.IsChain fun a b => g.Edge b a
  nodup : trail.Nodup
  met : ∀ a ∈ trail, a ∈ met

theorem Trail.mono {met met' trail : List String} (h : Trail g start met trail)
    (hmet : ∀ a ∈ met, a ∈ met') : Trail g start met' trail :=
  ⟨h.last, h.chain, h.nodup, fun a ha => hmet a (h.met a ha)⟩

/-- A trail goes on by an edge to a place that was not met. -/
theorem Trail.cons {met trail : List String} {node next : String}
    (h : Trail g start met (node :: trail)) (hedge : g.Edge node next) (hnew : next ∉ met) :
    Trail g start (next :: met) (next :: node :: trail) where
  last := h.last
  chain := List.isChain_cons_cons.2 ⟨hedge, h.chain⟩
  nodup := List.nodup_cons.2 ⟨fun hmem => hnew (h.met next hmem), h.nodup⟩
  met := fun a ha => (List.mem_cons.1 ha).elim (fun heq => heq ▸ List.mem_cons_self)
    fun ha => List.mem_cons_of_mem _ (h.met a ha)

theorem Trail.isPath {met trail : List String} {node : String}
    (h : Trail g start met (node :: trail)) : g.IsPath start node (node :: trail).reverse where
  head := by rw [List.head?_reverse, h.last]
  last := by rw [List.getLast?_reverse, List.head?_cons]
  chain := List.isChain_reverse.2 h.chain
  nodup := List.nodup_reverse.2 h.nodup

/-- The trails of the stack go on to the fresh targets of the place on top. -/
theorem trails_step {met : List String} {node : String} {trail : List String}
    {stack : List (String × List String)}
    (h : ∀ e ∈ (node, trail) :: stack, Trail g start met (e.1 :: e.2)) :
    ∀ e ∈ (fresh met (g.targets node)).reverse.map (·, node :: trail) ++ stack,
      Trail g start (fresh met (g.targets node) ++ met) (e.1 :: e.2) := by
  intro e he
  rcases List.mem_append.1 he with he | he
  · obtain ⟨next, hnext, rfl⟩ := List.mem_map.1 he
    have hmem := List.mem_reverse.1 hnext
    obtain ⟨hedge, hnew⟩ := mem_of_mem_fresh hmem
    refine ((h _ List.mem_cons_self).cons hedge hnew).mono fun a ha => ?_
    rcases List.mem_cons.1 ha with rfl | ha
    · exact List.mem_append_left _ hmem
    · exact List.mem_append_right _ ha
  · exact (h e (List.mem_cons_of_mem _ he)).mono fun a ha => List.mem_append_right _ ha

theorem isPath_of_search {met : List String} {stack : List (String × List String)}
    {path : List String} (h : search g goal met stack = some path)
    (hstack : ∀ e ∈ stack, Trail g start met (e.1 :: e.2)) : g.IsPath start goal path := by
  fun_induction search g goal met stack with
  | case1 => cases h
  | case2 met node trail stack new hgoal =>
    obtain rfl := Option.some.inj h
    obtain ⟨hedge, hnew⟩ := mem_of_mem_fresh hgoal
    exact ((hstack _ List.mem_cons_self).cons hedge hnew).isPath
  | case3 met node trail stack new hgoal ih => exact ih h (trails_step hstack)

/-- What the search returns is a path from the start to the goal. -/
theorem isPath_of_path? {path : List String} (h : path? g start goal = some path) :
    g.IsPath start goal path := by
  unfold path? at h
  split at h
  · next heq =>
    obtain rfl := Option.some.inj h
    exact ⟨rfl, congrArg some heq, List.isChain_singleton _, List.nodup_singleton _⟩
  · refine isPath_of_search h fun e he => ?_
    obtain rfl := List.mem_singleton.1 he
    exact ⟨rfl, List.isChain_singleton _, List.nodup_singleton _, fun a ha => ha⟩

/-! ## Completeness -/

/-- Every met place waits on the stack or has all its targets met. -/
def Explored (g : Graph) (met : List String) (stack : List (String × List String)) : Prop :=
  ∀ a ∈ met, a ∈ stack.map (·.1) ∨ ∀ b, g.Edge a b → b ∈ met

theorem Explored.step {met : List String} {node : String} {trail : List String}
    {stack : List (String × List String)} (h : Explored g met ((node, trail) :: stack)) :
    Explored g (fresh met (g.targets node) ++ met)
      ((fresh met (g.targets node)).reverse.map (·, node :: trail) ++ stack) := by
  intro a ha
  rw [List.map_append, List.mem_append]
  rcases List.mem_append.1 ha with ha | ha
  · refine .inl (.inl ?_)
    rw [List.map_map]
    exact List.mem_map.2 ⟨a, List.mem_reverse.2 ha, rfl⟩
  · rcases h a ha with hstack | hall
    · rcases List.mem_cons.1 hstack with rfl | hstack
      · refine .inr fun b hb => ?_
        exact List.mem_append.2 (mem_marked_or_fresh hb).symm
      · exact .inl (.inr hstack)
    · exact .inr fun b hb => List.mem_append_right _ (hall b hb)

theorem not_reaches_of_search {met : List String} {stack : List (String × List String)}
    (h : search g goal met stack = none) (hgoal : goal ∉ met) (hexplored : Explored g met stack) :
    ∀ a ∈ met, ¬ ReflTransGen g.Edge a goal := by
  fun_induction search g goal met stack with
  | case1 met =>
    intro a ha hreach
    refine hgoal (mem_of_reaches (fun b hb => ?_) ha hreach)
    exact (hexplored b hb).resolve_left List.not_mem_nil
  | case2 => cases h
  | case3 met node trail stack new hnew ih =>
    intro a ha
    refine ih h (fun hmem => ?_) hexplored.step a (List.mem_append_right _ ha)
    exact (List.mem_append.1 hmem).elim hnew hgoal

/-- The search fails exactly if the goal is out of reach. -/
theorem path?_eq_none_iff : path? g start goal = none ↔ ¬ ReflTransGen g.Edge start goal := by
  constructor
  · intro h
    unfold path? at h
    split at h
    · cases h
    · next hne =>
      refine not_reaches_of_search h ?_ ?_ start (List.mem_singleton.2 rfl)
      · exact fun hmem => hne (List.mem_singleton.1 hmem).symm
      · exact fun a ha => .inl ha
  · intro h
    cases hpath : path? g start goal with
    | none => rfl
    | some path => exact absurd (isPath_of_path? hpath).reaches h

end LayoutGrammar.Extends
