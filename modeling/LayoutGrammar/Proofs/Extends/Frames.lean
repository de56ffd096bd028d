import LayoutGrammar.Proofs.Extends.Nearest

/-!
# The walk with a stack of frames

The recursive `walk` can be run as a loop. A frame is a place with those of its targets that have
not been looked at, and `CycleSearch.turn` looks at one target: it closes a cycle, passes over a
place that was left for good, or goes down to a new frame. The frames, the path and the set of
places on the path stay in step, because a walk that comes back finds them as they were
(`CycleSearch.exists_iterate_turn`). Each turn takes up a target or a place that nobody has taken up
before, and `owed` counts these, so the loop ends, with the cycle that `cycle?` returns
(`CycleSearch.iterate_turn_initial`).
-/

namespace LayoutGrammar.Extends

open Extends.Graph Relation

variable {g : Graph}

/-- What a search for a cycle is doing: it walks on, or it has ended. -/
inductive CycleSearch where
  | walking (left path onPath : List String) (frames : List (String × List String))
      (roots : List String)
  | ended (cycle : Option (List String))
deriving DecidableEq

namespace CycleSearch

def initial (g : Graph) : CycleSearch := .walking [] [] [] [] g.keys

/-- Looks at the next target of the newest frame. A frame without targets is closed, and its place
left for good; without frames the walk begins anew at the next root. -/
def turn (g : Graph) : CycleSearch → CycleSearch
  | .walking _ _ _ [] [] => .ended none
  | .walking left path onPath [] (root :: roots) =>
    if root ∈ left then .walking left path onPath [] roots
    else .walking left [root] [root] [(root, g.targets root)] roots
  | .walking left path onPath ((node, []) :: frames) roots =>
    .walking (node :: left) path.tail (onPath.filter (· ≠ node)) frames roots
  | .walking left path onPath ((node, child :: rest) :: frames) roots =>
    if child ∈ onPath then .ended (some (closeCycle path child))
    else if child ∈ left then .walking left path onPath ((node, rest) :: frames) roots
    else .walking left (child :: path) (child :: onPath)
      ((child, g.targets child) :: (node, rest) :: frames) roots
  | .ended cycle => .ended cycle

/-! ## What is owed -/

/-- The edges from places that were not taken up, and these places. -/
def owed (g : Graph) (taken : List String) : Nat :=
  edgeCount (g.entries.filter (·.1 ∉ taken)) + remaining g.places taken

theorem owed_congr {taken taken' : List String} (h : ∀ a, a ∈ taken ↔ a ∈ taken') :
    owed g taken = owed g taken' := by
  simp only [owed, remaining, h]

/-- Taking up a place pays for it and for its targets. -/
theorem owed_cons {taken : List String} {place : String} (hplace : place ∈ g.places)
    (hnew : place ∉ taken) :
    (g.targets place).length + 1 + owed g (place :: taken) ≤ owed g taken := by
  have hedges := Sweep.edgeCount_mark g.distinct hnew
  have hplaces := remaining_cons_lt hplace hnew
  change _ = (g.targets place).length + _ at hedges
  unfold owed
  omega

/-! ## Walks -/

section Steps

variable {left path onPath rest : List String} {node place : String}
  (frames : List (String × List String)) (roots : List String)

/-- A new place is put on the path and gets a frame of its own. -/
theorem turn_down (hnew : place ∉ onPath) (hleft : place ∉ left) :
    turn g (.walking left path onPath ((node, place :: rest) :: frames) roots) =
      .walking left (place :: path) (place :: onPath)
        ((place, g.targets place) :: (node, rest) :: frames) roots := by
  rw [turn, if_neg hnew, if_neg hleft]

/-- A place whose frame is closed leaves the path as it was before. -/
theorem turn_up (hnew : place ∉ onPath) :
    turn g (.walking left (place :: path) (place :: onPath) ((place, []) :: frames) roots) =
      .walking (place :: left) path onPath frames roots := by
  have hothers : onPath.filter (· ≠ place) = onPath :=
    List.filter_eq_self.2 fun a ha => by simpa using ne_of_mem_of_not_mem ha hnew
  rw [turn, List.filter_cons_of_neg (by simp), hothers, List.tail_cons]

end Steps

/-- Where the loop stands after the targets of its newest frame. -/
def after (path onPath : List String) (node : String) (frames : List (String × List String))
    (roots : List String) : Except (List String) (List String) → CycleSearch
  | .error cycle => .ended (some cycle)
  | .ok left => .walking left path onPath ((node, []) :: frames) roots

/-- What is still owed when a walk comes back. -/
def owedAfter (g : Graph) (path : List String) : Except (List String) (List String) → Nat
  | .error _ => 0
  | .ok left => owed g (path ++ left)

/-- The loop does what the recursive walk does, and pays for its turns. -/
theorem exists_iterate_turn {path places onPath : List String} (left : List String)
    (hplaces : ∀ place ∈ places, place ∈ g.places) (hpath : ∀ a, a ∈ onPath ↔ a ∈ path)
    (node : String) (frames : List (String × List String)) (roots : List String) :
    ∃ turns, turns + owedAfter g path (walk g path left places) ≤
        places.length + owed g (path ++ left) ∧
      (turn g)^[turns] (.walking left path onPath ((node, places) :: frames) roots) =
        after path onPath node frames roots (walk g path left places) := by
  fun_induction walk g path left places generalizing onPath node frames with
  | case1 path left => exact ⟨0, by simp [owedAfter], rfl⟩
  | case2 path left place rest hmem =>
    refine ⟨1, ?_, if_pos ((hpath place).2 hmem)⟩
    simp only [owedAfter, List.length_cons]
    omega
  | case3 path left place rest hnew hleft ih =>
    obtain ⟨turns, hturns, hiterate⟩ :=
      ih (fun a ha => hplaces a (List.mem_cons_of_mem _ ha)) hpath node frames
    refine ⟨turns + 1, ?_, ?_⟩
    · rw [List.length_cons]
      omega
    · rw [Function.iterate_succ_apply, turn, if_neg (mt (hpath place).1 hnew), if_pos hleft,
        hiterate]
  | case4 path left place rest hnew hleft cycle hdown ih =>
    have hpaid := owed_cons (hplaces place List.mem_cons_self) (List.not_mem_append hnew hleft)
    have honPath : ∀ a, a ∈ place :: onPath ↔ a ∈ place :: path := by simp [hpath]
    obtain ⟨turns, hturns, hiterate⟩ :=
      ih (fun _ => mem_places_of_edge) honPath place ((node, rest) :: frames)
    rw [hdown] at hturns hiterate
    refine ⟨turns + 1, ?_, ?_⟩
    · simp only [owedAfter, List.length_cons, List.cons_append] at hturns ⊢
      omega
    · rw [Function.iterate_succ_apply, turn_down _ _ (mt (hpath place).1 hnew) hleft, hiterate]
      rfl
  | case5 path left place rest hnew hleft left' hdown ihdown ih =>
    have hoff : place ∉ onPath := mt (hpath place).1 hnew
    have hpaid := owed_cons (hplaces place List.mem_cons_self) (List.not_mem_append hnew hleft)
    have honPath : ∀ a, a ∈ place :: onPath ↔ a ∈ place :: path := by simp [hpath]
    obtain ⟨below, hbelow, hiterate⟩ :=
      ihdown (fun _ => mem_places_of_edge) honPath place ((node, rest) :: frames)
    obtain ⟨beyond, hbeyond, hiterate'⟩ :=
      ih (fun a ha => hplaces a (List.mem_cons_of_mem _ ha)) hpath node frames
    rw [hdown] at hbelow hiterate
    have hback : owed g (path ++ place :: left') = owed g (place :: path ++ left') :=
      owed_congr fun a => by simp [or_left_comm]
    -- going down and coming back up take a turn each: the place pays for one, its edge for the
    -- other
    refine ⟨beyond + 1 + below + 1, ?_, ?_⟩
    · simp only [owedAfter, List.cons_append] at hbelow hback
      rw [List.length_cons]
      omega
    · rw [Function.iterate_succ_apply, turn_down _ _ hoff hleft, Function.iterate_add_apply,
        hiterate, after, Function.iterate_succ_apply, turn_up _ _ hoff, hiterate']

/-! ## Roots -/

/-- What a search for a cycle ends with. -/
def verdict : Except (List String) (List String) → Option (List String)
  | .error cycle => some cycle
  | .ok _ => none

theorem cycle?_eq (g : Graph) : cycle? g = verdict (walk g [] [] g.keys) := by
  rw [cycle?]
  cases walk g [] [] g.keys <;> rfl

/-- Root after root, the loop comes to the verdict of the walk. -/
theorem exists_iterate_turn_roots {roots : List String} (hroots : ∀ root ∈ roots, root ∈ g.places)
    (left : List String) :
    ∃ turns ≤ roots.length + owed g left + 1,
      (turn g)^[turns] (.walking left [] [] [] roots) =
        .ended (verdict (walk g [] left roots)) := by
  induction roots generalizing left with
  | nil =>
    refine ⟨1, by omega, ?_⟩
    rw [walk]
    rfl
  | cons root roots ih =>
    have ih := ih fun a ha => hroots a (List.mem_cons_of_mem _ ha)
    rw [walk, if_neg List.not_mem_nil]
    by_cases hleft : root ∈ left
    · obtain ⟨turns, hturns, hiterate⟩ := ih left
      refine ⟨turns + 1, ?_, ?_⟩
      · rw [List.length_cons]
        omega
      · rw [Function.iterate_succ_apply, turn, if_pos hleft, if_pos hleft, hiterate]
    · have hpaid := owed_cons (hroots root List.mem_cons_self) hleft
      have htargets : ∀ target ∈ g.targets root, target ∈ g.places := fun _ => mem_places_of_edge
      have honPath : ∀ a, a ∈ [root] ↔ a ∈ [root] := fun _ => Iff.rfl
      obtain ⟨below, hbelow, hiterate⟩ :=
        exists_iterate_turn left htargets honPath root [] roots
      have hturn : turn g (.walking left [] [] [] (root :: roots)) =
          .walking left [root] [root] [(root, g.targets root)] roots := if_neg hleft
      rw [if_neg hleft]
      cases hdown : walk g [root] left (g.targets root) with
      | error cycle =>
        rw [hdown] at hbelow hiterate
        refine ⟨below + 1, ?_, ?_⟩
        · simp only [owedAfter, List.length_cons, List.singleton_append] at hbelow ⊢
          omega
        · rw [Function.iterate_succ_apply, hturn, hiterate]
          rfl
      | ok left' =>
        rw [hdown] at hbelow hiterate
        obtain ⟨beyond, hbeyond, hiterate'⟩ := ih (root :: left')
        refine ⟨beyond + 1 + below + 1, ?_, ?_⟩
        · simp only [owedAfter, List.length_cons, List.singleton_append] at hbelow ⊢
          omega
        · rw [Function.iterate_succ_apply, hturn, Function.iterate_add_apply, hiterate, after,
            Function.iterate_succ_apply, turn_up _ _ List.not_mem_nil, hiterate']

/-- The places of a graph are its nodes and the targets of its edges. -/
theorem length_places (g : Graph) : g.places.length = g.keys.length + edgeCount g.entries := by
  unfold places Table.keys edgeCount
  induction g.entries with
  | nil => rfl
  | cons e rest ih =>
    simp only [List.flatMap_cons, List.length_append, List.length_cons, List.map_cons] at ih ⊢
    omega

/-- The search has ended when each place has had two turns. -/
theorem iterate_turn_initial (g : Graph) {turns : Nat} (h : 2 * g.places.length + 1 ≤ turns) :
    (turn g)^[turns] (initial g) = .ended (cycle? g) := by
  have hkeys : ∀ root ∈ g.keys, root ∈ g.places := by
    intro root hroot
    obtain ⟨e, he, rfl⟩ := List.mem_map.1 hroot
    exact List.mem_flatMap.2 ⟨e, he, List.mem_cons_self⟩
  obtain ⟨used, hused, hiterate⟩ := exists_iterate_turn_roots hkeys []
  have howed : g.keys.length + owed g [] = 2 * g.places.length := by
    have hall : g.entries.filter (·.1 ∉ ([] : List String)) = g.entries :=
      List.filter_eq_self.2 fun e _ => by simp
    have hremaining : remaining g.places [] = g.places.length := by simp [remaining]
    rw [owed, hall, hremaining, length_places]
    omega
  rw [cycle?_eq, initial]
  exact iterate_eq_of_le hiterate rfl (by omega)

end CycleSearch

/-- **The search decides whether there is a cycle, and shows one.** On every graph it comes to an
end. It finds no cycle exactly if there is none, and what it finds is a cycle: along edges back to
the first place, and no other place twice. -/
theorem cycleSearch_decides_acyclicity (g : Graph) :
    (∀ turns, 2 * g.places.length + 1 ≤ turns →
      (CycleSearch.turn g)^[turns] (.initial g) = .ended (cycle? g)) ∧
    (cycle? g = none ↔ ∀ place, ¬ TransGen g.Edge place place) ∧
    ∀ cycle, cycle? g = some cycle → 2 ≤ cycle.length ∧ g.IsCycle cycle := by
  refine ⟨fun _ => CycleSearch.iterate_turn_initial g, cycle?_eq_none_iff, fun cycle h => ?_⟩
  have hcycle := isCycle_of_cycle? h
  obtain ⟨place, rest, rfl, -⟩ := hcycle.closed
  exact ⟨by simp, hcycle⟩

theorem cycleSearch_decides_acyclicity_tangle :
    cycle? (ofDictionary tangle) = some ["b", "d", "b"] ∧
      (ofDictionary tangle).IsCycle ["b", "d", "b"] ∧ ¬ (ofDictionary tangle).Acyclic := by
  obtain ⟨hfound, hnone, hcycle⟩ := cycleSearch_decides_acyclicity (ofDictionary tangle)
  have hbdb : cycle? (ofDictionary tangle) = some ["b", "d", "b"] :=
    CycleSearch.ended.inj ((hfound 40 (by decide)).symm.trans (by decide +kernel))
  refine ⟨hbdb, (hcycle _ hbdb).2, fun hacyclic => ?_⟩
  rw [hnone.2 hacyclic] at hbdb
  cases hbdb

end LayoutGrammar.Extends
