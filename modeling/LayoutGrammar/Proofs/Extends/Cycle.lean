import LayoutGrammar.Extends.Cycle
import LayoutGrammar.Proofs.Extends.Graph

/-!
# The search for a cycle

The depth-first walk is sound and complete on every graph. The path that it stands on leads along
edges to the places it is about to visit (`Standing`), so a place of the path that is met again
closes a cycle (`isCycle_of_walk`). The places that it has left for good lead nowhere else and lie
on no cycle (`Settled`), so when it has left them all the graph is acyclic (`cycle?_eq_none_iff`).
-/

namespace LayoutGrammar.Extends

open Extends.Graph Relation

variable {g : Graph}

/-! ## Soundness -/

/-- The walk stands on a path, given from its end, from which an edge leads to each of the places
that it is about to visit. -/
structure Standing (g : Graph) (path places : List String) : Prop where
  chain : path.IsChain fun a b => g.Edge b a
  nodup : path.Nodup
  next : ∀ place ∈ places, ∀ a ∈ path.head?, g.Edge a place

theorem Standing.tail {path rest : List String} {place : String}
    (h : Standing g path (place :: rest)) : Standing g path rest :=
  ⟨h.chain, h.nodup, fun a ha => h.next a (List.mem_cons_of_mem _ ha)⟩

/-- The walk goes down to a place that is not on its path. -/
theorem Standing.down {path rest : List String} {place : String}
    (h : Standing g path (place :: rest)) (hnew : place ∉ path) :
    Standing g (place :: path) (g.targets place) where
  chain := by
    cases path with
    | nil => exact List.isChain_singleton _
    | cons a path => exact List.isChain_cons_cons.2 ⟨h.next place List.mem_cons_self a rfl, h.chain⟩
  nodup := List.nodup_cons.2 ⟨hnew, h.nodup⟩
  next := fun target htarget a ha => Option.some.inj ha ▸ htarget

/-- A place of the path that is met again closes a cycle. -/
theorem Standing.isCycle {path rest : List String} {place : String}
    (h : Standing g path (place :: rest)) (hmem : place ∈ path) :
    g.IsCycle (closeCycle path place) := by
  obtain ⟨front, back, rfl, hfront⟩ := List.eq_append_cons_of_mem hmem
  have hcycle : closeCycle (front ++ place :: back) place = place :: front.reverse ++ [place] := by
    have htake : (front ++ place :: back).takeWhile (· != place) = front := by
      have hother : ∀ a ∈ front, (a != place) = true := fun a ha =>
        bne_iff_ne.2 fun heq => hfront (heq ▸ ha)
      rw [List.takeWhile_append_of_pos hother, List.takeWhile_cons_of_neg (by simp),
        List.append_nil]
    rw [closeCycle, htake]
  have hback : (front ++ [place]).IsChain fun a b => g.Edge b a := by
    have hchain := h.chain
    rw [List.append_cons] at hchain
    exact hchain.left_of_append
  refine ⟨⟨place, front.reverse, hcycle, ?_⟩, ?_⟩
  · rw [List.nodup_cons, List.mem_reverse, List.nodup_reverse]
    exact ⟨hfront, (List.nodup_append.1 h.nodup).1⟩
  · have hreverse : place :: front.reverse ++ [place] = (place :: (front ++ [place])).reverse := by
      simp
    rw [hcycle, hreverse, List.isChain_reverse]
    have hnext := h.next place List.mem_cons_self
    cases front with
    | nil => exact List.isChain_cons_cons.2 ⟨hnext place rfl, hback⟩
    | cons a front => exact List.isChain_cons_cons.2 ⟨hnext a rfl, hback⟩

theorem isCycle_of_walk {path left places cycle : List String}
    (h : walk g path left places = .error cycle) (hstanding : Standing g path places) :
    g.IsCycle cycle := by
  fun_induction walk g path left places with
  | case1 => cases h
  | case2 path left place rest hmem =>
    obtain rfl := Except.error.inj h
    exact hstanding.isCycle hmem
  | case3 path left place rest _ _ ih => exact ih h hstanding.tail
  | case4 path left place rest hnew _ cycle' hdown ih =>
    obtain rfl := Except.error.inj h
    exact ih hdown (hstanding.down hnew)
  | case5 path left place rest hnew _ left' hdown ihdown ih => exact ih h hstanding.tail

/-- What the search returns is a cycle. -/
theorem isCycle_of_cycle? {cycle : List String} (h : cycle? g = some cycle) : g.IsCycle cycle := by
  rw [cycle?] at h
  cases hwalk : walk g [] [] g.keys with
  | error found =>
    rw [hwalk] at h
    obtain rfl := Option.some.inj h
    exact isCycle_of_walk hwalk ⟨List.isChain_nil, List.nodup_nil, fun _ _ _ ha => nomatch ha⟩
  | ok left =>
    rw [hwalk] at h
    cases h

/-! ## Completeness -/

/-- Places that have been left for good: they lead nowhere else, and none of them reaches itself. -/
structure Settled (g : Graph) (left : List String) : Prop where
  closed : ∀ a ∈ left, ∀ b, g.Edge a b → b ∈ left
  acyclic : ∀ a ∈ left, ¬ TransGen g.Edge a a

/-- A place can be left for good once all its targets have been. -/
theorem Settled.cons {left : List String} {place : String} (h : Settled g left)
    (htargets : ∀ target, g.Edge place target → target ∈ left) : Settled g (place :: left) where
  closed := by
    intro a ha b hb
    rcases List.mem_cons.1 ha with rfl | ha
    · exact List.mem_cons_of_mem _ (htargets b hb)
    · exact List.mem_cons_of_mem _ (h.closed a ha b hb)
  acyclic := by
    intro a ha hcycle
    rcases List.mem_cons.1 ha with rfl | ha
    · obtain ⟨b, hb, hback⟩ := TransGen.head'_iff.1 hcycle
      exact h.acyclic a (mem_of_reaches h.closed (htargets b hb) hback) hcycle
    · exact h.acyclic a ha hcycle

/-- A walk that finds no cycle leaves all its places for good. -/
theorem settled_of_walk {path left places left' : List String}
    (h : walk g path left places = .ok left') (hsettled : Settled g left) :
    Settled g left' ∧ (∀ a ∈ left, a ∈ left') ∧ ∀ place ∈ places, place ∈ left' := by
  fun_induction walk g path left places generalizing left' with
  | case1 path left =>
    obtain rfl := Except.ok.inj h
    exact ⟨hsettled, fun a ha => ha, fun _ hp => nomatch hp⟩
  | case2 => cases h
  | case3 path left place rest _ hleft ih =>
    obtain ⟨hdone, hkept, hrest⟩ := ih h hsettled
    refine ⟨hdone, hkept, fun a ha => ?_⟩
    rcases List.mem_cons.1 ha with rfl | ha
    · exact hkept a hleft
    · exact hrest a ha
  | case4 => cases h
  | case5 path left place rest _ _ below hdown ihdown ih =>
    obtain ⟨hbelow, hkept, htargets⟩ := ihdown hdown hsettled
    obtain ⟨hdone, hkept', hrest⟩ := ih h (hbelow.cons htargets)
    refine ⟨hdone, fun a ha => hkept' a (List.mem_cons_of_mem _ (hkept a ha)), fun a ha => ?_⟩
    rcases List.mem_cons.1 ha with rfl | ha
    · exact hkept' a List.mem_cons_self
    · exact hrest a ha

/-- The search fails exactly on acyclic graphs. -/
theorem cycle?_eq_none_iff : cycle? g = none ↔ g.Acyclic := by
  constructor
  · intro h place hcycle
    rw [cycle?] at h
    cases hwalk : walk g [] [] g.keys with
    | error found =>
      rw [hwalk] at h
      cases h
    | ok left =>
      have hnone : Settled g [] := ⟨fun _ ha => (nomatch ha), fun _ ha => nomatch ha⟩
      obtain ⟨hsettled, -, hkeys⟩ := settled_of_walk hwalk hnone
      obtain ⟨target, hedge, -⟩ := TransGen.head'_iff.1 hcycle
      have hkey := Table.contains_eq_true_iff.1 (contains_of_edge hedge)
      exact hsettled.acyclic place (hkeys place hkey) hcycle
  · intro h
    cases hcycle : cycle? g with
    | none => rfl
    | some cycle =>
      obtain ⟨place, hreach⟩ := (isCycle_of_cycle? hcycle).reaches
      exact absurd hreach (h place)

end LayoutGrammar.Extends
