import LayoutGrammar.Proofs.Extends.Nearest
import Mathlib.Data.List.Perm.Subperm

/-!
# The search that records predecessors

A search for a path need not carry the trails of `search` along. It is enough to record for each
place from which one it was met, and to go back from the goal at the end. `PathSearch.turn` is one
turn of such a search. The trail of a place on the stack can be read off the record
(`PathSearch.Recorded`), because nothing is recorded twice, and going back along a trail comes to
the start and not before its end (`PathSearch.iterate_turn_retracing`). So the search ends, with the
path that `path?` returns, and each place costs it at most two turns: one to work it off and one to
go back over it (`PathSearch.iterate_turn_initial`).
-/

namespace LayoutGrammar.Extends

open Extends.Graph Relation

variable {g : Graph} {start goal : String}

/-! ## Counting places -/

theorem fresh_congr {marked marked' : List String} (h : ∀ a, a ∈ marked ↔ a ∈ marked')
    (l : List String) : fresh marked l = fresh marked' l := by
  rw [fresh_eq_eraseDups, fresh_eq_eraseDups]
  simp only [h]

/-- Marking fresh places takes each of them from what remains. -/
theorem length_add_remaining_le {places new marked : List String} (hnew : new.Nodup)
    (hplaces : ∀ a ∈ new, a ∈ places) (hmarked : ∀ a ∈ new, a ∉ marked) :
    new.length + remaining places (new ++ marked) ≤ remaining places marked := by
  have hsub : new ⊆ (places.filter (· ∉ marked)).filter (· ∈ new) := by
    intro a ha
    simp [ha, hplaces a ha, hmarked a ha]
  have hle := (List.Nodup.subperm hnew hsub).length_le
  have hsplit := List.length_eq_length_filter_add (l := places.filter (· ∉ marked)) (· ∈ new)
  rw [remaining_append, remaining]
  simp only [decide_not] at hle hsplit ⊢
  omega

theorem exists_edge_of_mem_tail {places : List String} {first : String}
    (h : (first :: places).IsChain g.Edge) : ∀ b ∈ places, ∃ a, g.Edge a b := by
  induction places generalizing first with
  | nil => exact nofun
  | cons next rest ih =>
    obtain ⟨hedge, hrest⟩ := List.isChain_cons_cons.1 h
    intro b hb
    rcases List.mem_cons.1 hb with rfl | hb
    · exact ⟨first, hedge⟩
    · exact ih hrest b hb

/-- A path is no longer than there are places. -/
theorem Graph.IsPath.length_le {path : List String} (h : g.IsPath start goal path) :
    path.length ≤ g.places.length + 1 := by
  cases path with
  | nil => simp
  | cons first rest =>
    have hsub : rest ⊆ g.places := by
      intro b hb
      obtain ⟨a, hedge⟩ := exists_edge_of_mem_tail h.chain b hb
      exact mem_places_of_edge hedge
    have hle := (List.Nodup.subperm (List.nodup_cons.1 h.nodup).2 hsub).length_le
    simpa using hle

/-! ## Turns -/

/-- What a search is doing: it works off its stack, or it goes back from the goal, or it has ended.
It is lost if a place that it has to go back from has no predecessor. -/
inductive PathSearch where
  | searching (met : List String) (cameFrom : Table String String) (stack : List String)
  | retracing (cameFrom : Table String String) (place : String) (path : List String)
  | ended (path : Option (List String))
  | lost
deriving DecidableEq

namespace PathSearch

def initial (start goal : String) : PathSearch :=
  if start = goal then .ended (some [start]) else .searching [start] ∅ [start]

/-- Looks at the targets of a place: those that were not met before are recorded and put on the
stack, until one of them is the goal. -/
def scan (goal node : String) (met : List String) (cameFrom : Table String String)
    (stack : List String) : List String → PathSearch
  | [] => .searching met cameFrom stack
  | next :: rest =>
    if next ∈ met then scan goal node met cameFrom stack rest
    else if next = goal then .retracing (cameFrom.insert next node) goal []
    else scan goal node (next :: met) (cameFrom.insert next node) (next :: stack) rest

/-- Works off the place on top of the stack, or goes back by one place. -/
def turn (g : Graph) (start goal : String) : PathSearch → PathSearch
  | .searching _ _ [] => .ended none
  | .searching met cameFrom (node :: stack) => scan goal node met cameFrom stack (g.targets node)
  | .retracing cameFrom place path =>
    if place = start then .ended (some (place :: path))
    else (cameFrom.get? place).elim .lost fun before => .retracing cameFrom before (place :: path)
  | .ended path => .ended path
  | .lost => .lost

/-- The record leads from each place of a trail to the next. -/
def Recorded (cameFrom : Table String String) (trail : List String) : Prop :=
  trail.IsChain fun a b => cameFrom.get? a = some b

/-- A record of new places does not touch the trails of those that were met. -/
theorem Recorded.of_agree {cameFrom cameFrom' : Table String String} {met trail : List String}
    (h : Recorded cameFrom trail) (hmet : ∀ a ∈ trail, a ∈ met)
    (hagree : ∀ a ∈ met, cameFrom'.get? a = cameFrom.get? a) : Recorded cameFrom' trail := by
  refine List.IsChain.imp_of_mem_imp (fun a b ha _ hstep => ?_) h
  rw [hagree a (hmet a ha)]
  exact hstep

/-- Going back along a trail comes to the start at its end. -/
theorem iterate_turn_retracing {cameFrom : Table String String} {place : String}
    {trail : List String} (hrecorded : Recorded cameFrom (place :: trail))
    (hlast : (place :: trail).getLast? = some start) (hnodup : (place :: trail).Nodup)
    (path : List String) :
    (turn g start goal)^[trail.length + 1] (.retracing cameFrom place path) =
      .ended (some ((place :: trail).reverse ++ path)) := by
  induction trail generalizing place path with
  | nil =>
    obtain rfl := Option.some.inj hlast
    exact if_pos rfl
  | cons before trail ih =>
    obtain ⟨hstep, hrest⟩ := List.isChain_cons_cons.1 hrecorded
    obtain ⟨hnew, hnodup⟩ := List.nodup_cons.1 hnodup
    have hne : place ≠ start := fun heq => hnew (heq ▸ List.mem_of_getLast? hlast)
    have hturn : turn g start goal (.retracing cameFrom place path) =
        .retracing cameFrom before (place :: path) := by
      rw [turn, if_neg hne, hstep]
      rfl
    rw [List.length_cons, Function.iterate_succ_apply, hturn, ih hrest hlast hnodup]
    simp

/-! ## One place -/

section Scan

variable {ts : List String}

/-- If the goal is a target that was not met, the search goes back from it. -/
theorem scan_of_mem {met : List String} (node : String) (cameFrom : Table String String)
    (stack : List String) (h : goal ∈ fresh met ts) :
    ∃ cameFrom', scan goal node met cameFrom stack ts = .retracing cameFrom' goal [] ∧
      cameFrom'.get? goal = some node ∧ ∀ a ∈ met, cameFrom'.get? a = cameFrom.get? a := by
  induction ts generalizing met cameFrom stack with
  | nil => cases h
  | cons next rest ih =>
    rw [scan]
    unfold fresh at h
    split at h
    · next hmet =>
      rw [if_pos hmet]
      exact ih cameFrom stack h
    · next hnew =>
      have hothers : ∀ a ∈ met, (cameFrom.insert next node).get? a = cameFrom.get? a := by
        intro a ha
        exact Table.get?_insert_of_ne (ne_of_mem_of_not_mem ha hnew).symm cameFrom node
      rw [if_neg hnew]
      by_cases hgoal : next = goal
      · subst hgoal
        rw [if_pos rfl]
        exact ⟨_, rfl, Table.get?_insert_self cameFrom next node, hothers⟩
      · have hrest := (List.mem_cons.1 h).resolve_left (Ne.symm hgoal)
        obtain ⟨cameFrom', hscan, hfrom, hagree⟩ :=
          ih (cameFrom.insert next node) (next :: stack) hrest
        rw [if_neg hgoal]
        refine ⟨cameFrom', hscan, hfrom, fun a ha => ?_⟩
        rw [hagree a (List.mem_cons_of_mem _ ha), hothers a ha]

/-- Otherwise all targets that were not met wait on the stack, the last one on top, and are
recorded. -/
theorem scan_of_not_mem {met : List String} (node : String) (cameFrom : Table String String)
    (stack : List String) (h : goal ∉ fresh met ts) :
    ∃ cameFrom', scan goal node met cameFrom stack ts =
        .searching ((fresh met ts).reverse ++ met) cameFrom' ((fresh met ts).reverse ++ stack) ∧
      (∀ a ∈ fresh met ts, cameFrom'.get? a = some node) ∧
      ∀ a ∈ met, cameFrom'.get? a = cameFrom.get? a := by
  induction ts generalizing met cameFrom stack with
  | nil => exact ⟨cameFrom, rfl, nofun, fun _ _ => rfl⟩
  | cons next rest ih =>
    rw [scan]
    unfold fresh at h ⊢
    split at h
    · next hmet =>
      rw [if_pos hmet, if_pos hmet]
      exact ih cameFrom stack h
    · next hnew =>
      rw [List.mem_cons, not_or] at h
      obtain ⟨cameFrom', hscan, hfrom, hagree⟩ :=
        ih (cameFrom.insert next node) (next :: stack) h.2
      rw [if_neg hnew, if_neg hnew, if_neg (Ne.symm h.1), List.reverse_cons, List.append_assoc,
        List.append_assoc]
      refine ⟨cameFrom', hscan, fun a ha => ?_, fun a ha => ?_⟩
      · rcases List.mem_cons.1 ha with rfl | ha
        · rw [hagree a List.mem_cons_self, Table.get?_insert_self]
        · exact hfrom a ha
      · rw [hagree a (List.mem_cons_of_mem _ ha),
          Table.get?_insert_of_ne (ne_of_mem_of_not_mem ha hnew).symm]

end Scan

/-! ## Whole searches -/

/-- When the fresh targets of a place are recorded, their trails are. -/
theorem recorded_step {met : List String} {node : String} {trail : List String}
    {stack : List (String × List String)} {cameFrom cameFrom' : Table String String}
    (htrails : ∀ e ∈ (node, trail) :: stack, Trail g start met (e.1 :: e.2))
    (hrecorded : ∀ e ∈ (node, trail) :: stack, Recorded cameFrom (e.1 :: e.2))
    (hfrom : ∀ a ∈ fresh met (g.targets node), cameFrom'.get? a = some node)
    (hagree : ∀ a ∈ met, cameFrom'.get? a = cameFrom.get? a) :
    ∀ e ∈ (fresh met (g.targets node)).reverse.map (·, node :: trail) ++ stack,
      Recorded cameFrom' (e.1 :: e.2) := by
  have hold : ∀ e ∈ (node, trail) :: stack, Recorded cameFrom' (e.1 :: e.2) :=
    fun e he => (hrecorded e he).of_agree (htrails e he).met hagree
  intro e he
  rcases List.mem_append.1 he with he | he
  · obtain ⟨next, hnext, rfl⟩ := List.mem_map.1 he
    exact List.isChain_cons_cons.2
      ⟨hfrom next (List.mem_reverse.1 hnext), hold _ List.mem_cons_self⟩
  · exact hold e (List.mem_cons_of_mem _ he)

/-- A search that holds trails and one that holds a record of them find the same path. -/
theorem exists_iterate_turn (goal : String) {met met' : List String}
    {cameFrom : Table String String} {stack : List (String × List String)}
    (hmet : ∀ a, a ∈ met' ↔ a ∈ met)
    (htrails : ∀ e ∈ stack, Trail g start met (e.1 :: e.2))
    (hrecorded : ∀ e ∈ stack, Recorded cameFrom (e.1 :: e.2)) :
    ∃ turns ≤ stack.length + remaining g.places met + g.places.length + 1,
      (turn g start goal)^[turns] (.searching met' cameFrom (stack.map (·.1))) =
        .ended (search g goal met stack) := by
  fun_induction search g goal met stack generalizing met' cameFrom with
  | case1 met => exact ⟨1, by omega, rfl⟩
  | case2 met node trail stack new =>
    rename_i hgoal
    have htrail := htrails _ List.mem_cons_self
    obtain ⟨hedge, hnew⟩ := mem_of_mem_fresh hgoal
    have hpath := htrail.cons hedge hnew
    have hlength := hpath.isPath.length_le
    have hgoal' : goal ∈ fresh met' (g.targets node) := by
      rw [fresh_congr hmet]
      exact hgoal
    obtain ⟨cameFrom', hscan, hfrom, hagree⟩ :=
      scan_of_mem node cameFrom (stack.map (·.1)) hgoal'
    have hback : Recorded cameFrom' (goal :: node :: trail) := by
      refine List.isChain_cons_cons.2 ⟨hfrom, ?_⟩
      exact (hrecorded _ List.mem_cons_self).of_agree
        (fun a ha => (hmet a).2 (htrail.met a ha)) hagree
    refine ⟨(node :: trail).length + 1 + 1, ?_, ?_⟩
    · simp only [List.length_reverse, List.length_cons] at hlength ⊢
      omega
    · change (turn g start goal)^[_] (scan goal node met' cameFrom (stack.map (·.1)) _) = _
      rw [hscan, iterate_turn_retracing hback hpath.last hpath.nodup, List.append_nil]
  | case3 met node trail stack new hgoal =>
    rename_i ih
    have hfresh : fresh met' (g.targets node) = new := fresh_congr hmet _
    have hgoal' : goal ∉ fresh met' (g.targets node) := by
      rw [hfresh]
      exact hgoal
    obtain ⟨cameFrom', hscan, hfrom, hagree⟩ :=
      scan_of_not_mem node cameFrom (stack.map (·.1)) hgoal'
    rw [hfresh] at hscan hfrom
    have hrecorded' := recorded_step htrails hrecorded hfrom
      fun a ha => hagree a ((hmet a).2 ha)
    have hstack : (new.reverse.map (·, node :: trail) ++ stack).map (·.1) =
        new.reverse ++ stack.map (·.1) := by
      simp [Function.comp_def]
    have hmet' : ∀ a, a ∈ new.reverse ++ met' ↔ a ∈ new ++ met := by
      intro a
      simp [hmet]
    have hcount : new.length + remaining g.places (new ++ met) ≤ remaining g.places met :=
      length_add_remaining_le (nodup_fresh met _)
        (fun a ha => mem_places_of_edge (mem_of_mem_fresh ha).1)
        (fun a ha => (mem_of_mem_fresh ha).2)
    obtain ⟨turns, hturns, hiterate⟩ := ih hmet' (trails_step htrails) hrecorded'
    refine ⟨turns + 1, ?_, ?_⟩
    · simp only [List.length_append, List.length_map, List.length_reverse,
        List.length_cons] at hturns ⊢
      omega
    · change (turn g start goal)^[turns] (scan goal node met' cameFrom (stack.map (·.1)) _) = _
      rw [hscan, ← hstack]
      exact hiterate

/-- The search has ended with a path, or without one, when each place has had two turns. -/
theorem iterate_turn_initial (g : Graph) (start goal : String) {turns : Nat}
    (h : 2 * (g.places.length + 1) ≤ turns) :
    (turn g start goal)^[turns] (initial start goal) = .ended (path? g start goal) := by
  rw [initial, path?]
  split
  · exact Function.iterate_fixed rfl turns
  · have htrails : ∀ e ∈ [(start, ([] : List String))], Trail g start [start] (e.1 :: e.2) := by
      intro e he
      obtain rfl := List.mem_singleton.1 he
      exact ⟨rfl, List.isChain_singleton _, List.nodup_singleton _, fun a ha => ha⟩
    have hrecorded : ∀ e ∈ [(start, ([] : List String))], Recorded ∅ (e.1 :: e.2) := by
      intro e he
      obtain rfl := List.mem_singleton.1 he
      exact List.isChain_singleton _
    obtain ⟨used, hused, hiterate⟩ :=
      exists_iterate_turn goal (fun _ => Iff.rfl) htrails hrecorded
    have hle : remaining g.places [start] ≤ g.places.length := List.length_filter_le _ _
    rw [List.length_singleton] at hused
    rw [List.map_singleton] at hiterate
    exact iterate_eq_of_le hiterate rfl (by omega)

end PathSearch

/-- **The search decides what a place reaches, and shows how.** On every graph it comes to an end.
It finds no path exactly if there is none, and what it finds is a path: from the start to the goal
along edges, no place twice. -/
theorem pathSearch_decides_reachability (g : Graph) (start goal : String) :
    (∀ turns, 2 * (g.places.length + 1) ≤ turns →
      (PathSearch.turn g start goal)^[turns] (.initial start goal) = .ended (path? g start goal)) ∧
    (path? g start goal = none ↔ ¬ ReflTransGen g.Edge start goal) ∧
    (∀ path, path? g start goal = some path → g.IsPath start goal path) ∧
    path? g start start = some [start] :=
  ⟨fun _ => PathSearch.iterate_turn_initial g start goal, path?_eq_none_iff,
    fun _ => isPath_of_path?, if_pos rfl⟩

theorem pathSearch_decides_reachability_tangle :
    path? (ofDictionary tangle) "a" "d" = some ["a", "b", "d"] ∧
      (ofDictionary tangle).IsPath "a" "d" ["a", "b", "d"] ∧
      ¬ ReflTransGen (ofDictionary tangle).Edge "c" "a" := by
  obtain ⟨hfound, -, hpath, -⟩ := pathSearch_decides_reachability (ofDictionary tangle) "a" "d"
  obtain ⟨hmissed, hnone, -, -⟩ := pathSearch_decides_reachability (ofDictionary tangle) "c" "a"
  have had : path? (ofDictionary tangle) "a" "d" = some ["a", "b", "d"] :=
    PathSearch.ended.inj ((hfound 30 (by decide)).symm.trans (by decide +kernel))
  have hca : path? (ofDictionary tangle) "c" "a" = none :=
    PathSearch.ended.inj ((hmissed 30 (by decide)).symm.trans (by decide +kernel))
  exact ⟨had, hpath _ had, hnone.1 hca⟩

end LayoutGrammar.Extends
