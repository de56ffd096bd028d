import LayoutGrammar.Extends.Remaining

/-!
# Paths of extends edges

A depth-first search for a path between two places. The search keeps the trails that it still has
to continue, newest first, and the places it has met; a trail is a place with the places before it.
`ancestors` searches breadth first instead and lists what it meets.
-/

namespace LayoutGrammar.Extends

/-- The entries of a list that are not marked, each once, in order. -/
def fresh (marked : List String) : List String → List String
  | [] => []
  | a :: rest => if a ∈ marked then fresh marked rest else a :: fresh (a :: marked) rest

theorem mem_of_mem_fresh {marked : List String} {a : String} {l : List String}
    (h : a ∈ fresh marked l) : a ∈ l ∧ a ∉ marked := by
  fun_induction fresh marked l with
  | case1 => cases h
  | case2 marked b rest hb ih =>
    have := ih h
    exact ⟨List.mem_cons_of_mem _ this.1, this.2⟩
  | case3 marked b rest hb ih =>
    rcases List.mem_cons.1 h with rfl | h
    · exact ⟨List.mem_cons_self, hb⟩
    · have := ih h
      exact ⟨List.mem_cons_of_mem _ this.1, fun hm => this.2 (List.mem_cons_of_mem _ hm)⟩

/-- Continues the newest trail by every fresh target of its end, or returns the path if the goal is
one of them. -/
def search (g : Graph) (goal : String) (met : List String) :
    List (String × List String) → Option (List String)
  | [] => none
  | (node, trail) :: stack =>
    let new := fresh met (g.targets node)
    if goal ∈ new then some (goal :: node :: trail).reverse
    else search g goal (new ++ met) (new.reverse.map (·, node :: trail) ++ stack)
termination_by stack => (remaining g.places met, stack.length)
decreasing_by
  cases h : fresh met (g.targets node) with
  | nil => exact Prod.Lex.right _ (by simp)
  | cons a rest =>
    rw [← h]
    have hmem : a ∈ fresh met (g.targets node) := by rw [h]; exact List.mem_cons_self
    have ha := mem_of_mem_fresh hmem
    exact Prod.Lex.left _ _ (remaining_append_lt (Graph.mem_places_of_edge ha.1) hmem ha.2)

/-- A path from one place to another along edges, if there is one. -/
def path? (g : Graph) (start goal : String) : Option (List String) :=
  if start = goal then some [start] else search g goal [start] [(start, [])]

/-- The places of a queue and all that can be reached from them, without those seen before; nearer
places come first. -/
def nearest (g : Graph) (seen : List String) : List String → List String
  | [] => []
  | node :: queue =>
    if node ∈ seen then nearest g seen queue
    else node :: nearest g (node :: seen) (queue ++ g.targets node)
termination_by queue => (remaining g.keys seen, queue.length)
decreasing_by
  · exact Prod.Lex.right _ (by simp)
  · rename_i hseen
    by_cases hk : node ∈ g.keys
    · exact Prod.Lex.left _ _ (remaining_cons_lt hk hseen)
    · rw [Graph.targets_of_not_mem_keys hk, List.append_nil]
      rcases Nat.lt_or_ge (remaining g.keys (node :: seen)) (remaining g.keys seen) with h | h
      · exact Prod.Lex.left _ _ h
      · rw [Nat.le_antisymm (remaining_cons_le _ _ _) h]
        exact Prod.Lex.right _ (by simp)

/-- All that a pattern extends, directly or not, nearest first. -/
def ancestors (g : Graph) (id : String) : List String := nearest g [id] (g.targets id)

end LayoutGrammar.Extends
