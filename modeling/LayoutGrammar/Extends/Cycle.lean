import LayoutGrammar.Extends.Remaining

/-!
# Cycles of extends edges

A depth-first walk over all nodes that keeps the path it stands on and the places it has left for
good. Meeting a place of the path closes a cycle; a place left for good lies on none.
-/

namespace LayoutGrammar.Extends

/-- The cycle that an edge back to a place of the path closes; the path is given from its end. -/
def closeCycle (path : List String) (place : String) : List String :=
  place :: (path.takeWhile (· != place)).reverse ++ [place]

/-- Walks down from each place of a list in turn. The result is a cycle, as an error, or all the
places that lie on none. -/
def walk (g : Graph) (path left : List String) : List String → Except (List String) (List String)
  | [] => .ok left
  | place :: rest =>
    if place ∈ path then .error (closeCycle path place)
    else if place ∈ left then walk g path left rest
    else
      match walk g (place :: path) left (g.targets place) with
      | .error cycle => .error cycle
      | .ok left' => walk g path (place :: left') rest
termination_by places => (remaining g.keys path, places.length)
decreasing_by
  · exact Prod.Lex.right _ (by simp)
  · rename_i hpath _
    by_cases hk : place ∈ g.keys
    · exact Prod.Lex.left _ _ (remaining_cons_lt hk hpath)
    · rw [Graph.targets_of_not_mem_keys hk]
      rcases Nat.lt_or_ge (remaining g.keys (place :: path)) (remaining g.keys path) with h | h
      · exact Prod.Lex.left _ _ h
      · rw [Nat.le_antisymm (remaining_cons_le _ _ _) h]
        exact Prod.Lex.right _ (by simp)
  · exact Prod.Lex.right _ (by simp)

/-- Some cycle of the graph, its first place repeated at the end. -/
def cycle? (g : Graph) : Option (List String) :=
  match walk g [] [] g.keys with
  | .error cycle => some cycle
  | .ok _ => none

end LayoutGrammar.Extends
