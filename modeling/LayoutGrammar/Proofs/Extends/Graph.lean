import LayoutGrammar.Extends.Graph
import LayoutGrammar.Proofs.Table
import Mathlib.Data.List.Chain
import Mathlib.Data.List.Nodup
import Mathlib.Logic.Relation

/-!
# Reachability in extends graphs

What a place reaches is given by the closure of `Graph.Edge`. A path and a cycle are lists of places
along edges that repeat no place (`Graph.IsPath`, `Graph.IsCycle`), and the graph is `Acyclic` if
nothing reaches itself. `transGen_addEdge_iff` says what one more edge makes reachable. A `Dag` is
acyclic and repeats no target.
-/

namespace LayoutGrammar.Extends.Graph

open Relation

variable {g : Graph}

/-- Places along edges from one place to another, none of them twice. -/
structure IsPath (g : Graph) (start goal : String) (path : List String) : Prop where
  head : path.head? = some start
  last : path.getLast? = some goal
  chain : path.IsChain g.Edge
  nodup : path.Nodup

/-- Places along edges back to the first one, no other place twice. -/
structure IsCycle (g : Graph) (cycle : List String) : Prop where
  closed : ∃ place rest, cycle = place :: rest ++ [place] ∧ (place :: rest).Nodup
  chain : cycle.IsChain g.Edge

/-- No place reaches itself. -/
def Acyclic (g : Graph) : Prop := ∀ place, ¬ TransGen g.Edge place place

theorem IsPath.reaches {start goal : String} {path : List String} (h : g.IsPath start goal path) :
    ReflTransGen g.Edge start goal := by
  obtain ⟨hhead, hlast, hchain, -⟩ := h
  cases path with
  | nil => cases hhead
  | cons a rest =>
    obtain rfl := Option.some.inj hhead
    refine List.relationReflTransGen_of_exists_isChain_cons rest hchain ?_
    rw [List.getLast?_eq_some_getLast (List.cons_ne_nil a rest)] at hlast
    exact Option.some.inj hlast

theorem IsCycle.reaches {cycle : List String} (h : g.IsCycle cycle) :
    ∃ place, TransGen g.Edge place place := by
  obtain ⟨⟨place, rest, rfl, -⟩, hchain⟩ := h
  refine ⟨place, ?_⟩
  cases rest with
  | nil => exact .single (List.isChain_cons_cons.1 hchain).1
  | cons next rest =>
    obtain ⟨hedge, hchain⟩ := List.isChain_cons_cons.1 hchain
    refine .head' hedge (List.relationReflTransGen_of_exists_isChain_cons _ hchain ?_)
    change ((next :: rest) ++ [place]).getLast _ = place
    exact List.getLast_concat

/-- Places that lead nowhere else are not left. -/
theorem mem_of_reaches {places : List String} (hclosed : ∀ a ∈ places, ∀ b, g.Edge a b → b ∈ places)
    {a b : String} (ha : a ∈ places) (h : ReflTransGen g.Edge a b) : b ∈ places := by
  induction h with
  | refl => exact ha
  | tail _ hbc ih => exact hclosed _ ih _ hbc

/-! ## One more edge -/

theorem targets_insert (g : Graph) (node : String) (ts : List String) (place : String) :
    targets (g.insert node ts) place = if node = place then ts else g.targets place := by
  rw [targets, Table.get?_insert]
  by_cases h : node = place
  · rw [if_pos h, if_pos (beq_iff_eq.2 h)]
    rfl
  · rw [if_neg h, if_neg (mt beq_iff_eq.1 h)]
    rfl

theorem edge_addEdge_iff {source target a b : String} :
    (g.addEdge source target).Edge a b ↔ g.Edge a b ∨ a = source ∧ b = target := by
  rw [Edge, addEdge, targets_insert]
  split
  · next h =>
    subst h
    rw [List.mem_append, List.mem_singleton]
    exact or_congr Iff.rfl (and_iff_right rfl).symm
  · next h =>
    exact ⟨.inl, fun hab => hab.resolve_right fun hab => h hab.1.symm⟩

/-- What the graph with one more edge reaches either needs no new edge, or reaches the source of it
and goes on from its target. -/
theorem transGen_addEdge_iff {source target a b : String} :
    TransGen (g.addEdge source target).Edge a b ↔
      TransGen g.Edge a b ∨ ReflTransGen g.Edge a source ∧ ReflTransGen g.Edge target b := by
  have hmono : ∀ x y, g.Edge x y → (g.addEdge source target).Edge x y :=
    fun x y hxy => edge_addEdge_iff.2 (.inl hxy)
  constructor
  · intro h
    induction h with
    | single hab =>
      rcases edge_addEdge_iff.1 hab with hab | ⟨rfl, rfl⟩
      · exact .inl (.single hab)
      · exact .inr ⟨.refl, .refl⟩
    | tail _ hbc ih =>
      rcases edge_addEdge_iff.1 hbc with hbc | ⟨rfl, rfl⟩
      · exact ih.imp (·.tail hbc) fun h => ⟨h.1, h.2.tail hbc⟩
      · exact .inr ⟨ih.elim TransGen.to_reflTransGen And.left, .refl⟩
  · rintro (h | ⟨hsource, htarget⟩)
    · exact TransGen.mono hmono _ _ h
    · have hnew : (g.addEdge source target).Edge source target :=
        edge_addEdge_iff.2 (.inr ⟨rfl, rfl⟩)
      exact TransGen.trans_right (ReflTransGen.mono hmono _ _ hsource)
        (TransGen.head' hnew (ReflTransGen.mono hmono _ _ htarget))

/-- An edge closes a cycle exactly if its target reaches its source. -/
theorem acyclic_addEdge_iff (h : g.Acyclic) {source target : String} :
    (g.addEdge source target).Acyclic ↔ ¬ ReflTransGen g.Edge target source := by
  constructor
  · intro hacyclic hback
    exact hacyclic source (transGen_addEdge_iff.2 (.inr ⟨.refl, hback⟩))
  · intro hback place hcycle
    rcases transGen_addEdge_iff.1 hcycle with hcycle | ⟨hsource, htarget⟩
    · exact h place hcycle
    · exact hback (htarget.trans hsource)

/-! ## Acyclic graphs without repetitions -/

/-- What is asked of extends edges apart from the existence of their targets: there is no cycle, no
place is a target of its own, and none lists a target twice. -/
structure Dag (g : Graph) : Prop where
  acyclic : g.Acyclic
  loopless : ∀ place, ¬ g.Edge place place
  nodup : ∀ place, (g.targets place).Nodup

theorem dag_iff : g.Dag ↔ g.Acyclic ∧ ∀ place, (g.targets place).Nodup :=
  ⟨fun h => ⟨h.acyclic, h.nodup⟩,
    fun h => ⟨h.1, fun place hedge => h.1 place (.single hedge), h.2⟩⟩

/-- Leaving targets out does no harm. -/
theorem Dag.of_sublist {g' : Graph} (h : g.Dag)
    (hsub : ∀ place, (g'.targets place).Sublist (g.targets place)) : g'.Dag := by
  refine dag_iff.2 ⟨fun place hcycle => ?_, fun place => (h.nodup place).sublist (hsub place)⟩
  have hmono : ∀ a b, g'.Edge a b → g.Edge a b := fun a b hab => (hsub a).subset hab
  exact h.acyclic place (TransGen.mono hmono _ _ hcycle)

end LayoutGrammar.Extends.Graph
