import LayoutGrammar.Pattern.Basic

/-!
# The graph of extends edges

An extends graph lists the targets of each of its nodes in order; a target need not be a node of its
own. `Graph.Edge` is the relation that the searches of the other modules walk along.
-/

namespace LayoutGrammar.Extends

/-- The targets of each node. -/
abbrev Graph := Table String (List String)

namespace Graph

/-- The targets of a node; a node without an entry has none. -/
def targets (g : Graph) (node : String) : List String := (g.get? node).getD []

/-- There is an edge from one node to the other. -/
def Edge (g : Graph) (source target : String) : Prop := target ∈ g.targets source

instance (g : Graph) (source target : String) : Decidable (g.Edge source target) :=
  inferInstanceAs (Decidable (target ∈ g.targets source))

/-- Every node and every target, possibly more than once. -/
def places (g : Graph) : List String := g.entries.flatMap fun e => e.1 :: e.2

/-- The extends graph of a dictionary. -/
def ofDictionary (d : Dictionary) : Graph := d.mapValues (·.parents)

/-- The graph with one edge more, at the end of its source's list. -/
def addEdge (g : Graph) (source target : String) : Graph :=
  g.insert source (g.targets source ++ [target])

/-- A node that has targets has an entry. -/
theorem contains_of_edge {g : Graph} {source target : String} (h : g.Edge source target) :
    g.contains source = true := by
  unfold Edge targets at h
  unfold Table.contains
  cases hg : g.get? source with
  | none => simp [hg] at h
  | some _ => rfl

end Graph

end LayoutGrammar.Extends
