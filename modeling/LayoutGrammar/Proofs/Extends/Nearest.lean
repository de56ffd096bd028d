import LayoutGrammar.Proofs.Extends.Check
import LayoutGrammar.Proofs.Extends.Search
import Mathlib.Data.Nat.Find
import Mathlib.Logic.Function.Iterate

/-!
# The search for what is near

The breadth-first search marks a place when it takes it from its queue, so one place may wait there
many times. It works its queue off in layers: all that waits at one time comes before anything that
is added meanwhile (`nearest_append`). The places that are marked when a layer begins are those
within some number of edges, and the fresh ones of its queue are those at the next distance
(`Layer`). So what the search lists is everything farther away, in the order of distance
(`Layer.listsBeyond`).

The search ends on every graph, because each turn works off an edge: `Sweep.owed` counts the edges
that wait and those that may still come, and a turn takes one away (`Sweep.owed_turn`).
`ancestors_breadthFirst` puts all this together.
-/

namespace LayoutGrammar.Extends

open Extends.Graph Relation

variable {g : Graph} {start : String}

/-! ## Distance -/

namespace Graph

/-- Where a number of edges lead to. -/
inductive Steps (g : Graph) (start : String) : Nat → String → Prop where
  | refl : Steps g start 0 start
  | tail {n : Nat} {a b : String} (h : Steps g start n a) (hedge : g.Edge a b) :
      Steps g start (n + 1) b

/-- The least number of edges that lead to a place. -/
structure Distance (g : Graph) (start place : String) (n : Nat) : Prop where
  steps : g.Steps start n place
  least : ∀ m, g.Steps start m place → n ≤ m

theorem Distance.unique {a : String} {m n : Nat} (h : g.Distance start a m)
    (h' : g.Distance start a n) : m = n :=
  Nat.le_antisymm (h.least n h'.steps) (h'.least m h.steps)

theorem reflTransGen_iff_steps {a : String} :
    ReflTransGen g.Edge start a ↔ ∃ n, g.Steps start n a := by
  constructor
  · intro h
    induction h with
    | refl => exact ⟨0, .refl⟩
    | tail _ hedge ih =>
      obtain ⟨n, hn⟩ := ih
      exact ⟨n + 1, hn.tail hedge⟩
  · rintro ⟨n, hn⟩
    induction hn with
    | refl => exact .refl
    | tail _ hedge ih => exact ih.tail hedge

/-- Where some number of edges lead to has a distance, and it is no greater. -/
theorem Steps.exists_distance {a : String} {n : Nat} (h : g.Steps start n a) :
    ∃ m ≤ n, g.Distance start a m := by
  classical
  have hsome : ∃ m, g.Steps start m a := ⟨n, h⟩
  exact ⟨Nat.find hsome, Nat.find_min' hsome h, Nat.find_spec hsome,
    fun m hm => Nat.find_min' hsome hm⟩

/-- Something stands at every distance up to that of a place. -/
theorem Distance.exists_of_le {a : String} {m n : Nat} (h : g.Distance start a m) (hle : n ≤ m) :
    ∃ b, g.Distance start b n := by
  induction m generalizing a with
  | zero =>
    obtain rfl := Nat.le_zero.1 hle
    exact ⟨a, h⟩
  | succ k ih =>
    rcases Nat.lt_or_eq_of_le hle with hlt | rfl
    · cases h.steps with
      | @tail _ b _ hb hedge =>
        refine ih ⟨hb, fun j hj => ?_⟩ (Nat.lt_succ_iff.1 hlt)
        exact Nat.succ_le_succ_iff.1 (h.least (j + 1) (hj.tail hedge))
    · exact ⟨a, h⟩

/-- The places farther away than nothing are those that are reached, the start apart. -/
theorem exists_distance_pos_iff {a : String} :
    (∃ n, 0 < n ∧ g.Distance start a n) ↔ a ≠ start ∧ TransGen g.Edge start a := by
  constructor
  · rintro ⟨n, hpos, hn⟩
    have hne : a ≠ start := by
      rintro rfl
      exact absurd (hn.least 0 .refl) (Nat.not_le.2 hpos)
    have hreach := reflTransGen_iff_steps.2 ⟨n, hn.steps⟩
    exact ⟨hne, (reflTransGen_iff_eq_or_transGen.1 hreach).resolve_left hne⟩
  · rintro ⟨hne, hreach⟩
    obtain ⟨n, hn⟩ := reflTransGen_iff_steps.1 hreach.to_reflTransGen
    obtain ⟨m, -, hm⟩ := hn.exists_distance
    refine ⟨m, Nat.pos_of_ne_zero ?_, hm⟩
    rintro rfl
    cases hm.steps
    exact hne rfl

end Graph

/-! ## Layers -/

theorem mem_fresh_iff {marked l : List String} {a : String} :
    a ∈ fresh marked l ↔ a ∈ l ∧ a ∉ marked :=
  ⟨mem_of_mem_fresh, fun h => (mem_marked_or_fresh h.1).resolve_left h.2⟩

theorem nodup_fresh (marked l : List String) : (fresh marked l).Nodup := by
  fun_induction fresh marked l with
  | case1 => exact List.nodup_nil
  | case2 marked a rest _ ih => exact ih
  | case3 marked a rest _ ih =>
    exact List.nodup_cons.2 ⟨fun h => (mem_of_mem_fresh h).2 List.mem_cons_self, ih⟩

theorem fresh_eq_eraseDups (marked l : List String) :
    fresh marked l = (l.filter (· ∉ marked)).eraseDups := by
  fun_induction fresh marked l with
  | case1 => rfl
  | case2 marked a rest ha ih => rw [ih, List.filter_cons_of_neg (by simpa using ha)]
  | case3 marked a rest ha ih =>
    rw [ih, List.filter_cons_of_pos (by simpa using ha), List.eraseDups_cons, List.filter_filter]
    congr 2
    refine List.filter_congr fun b _ => ?_
    rw [Bool.eq_iff_iff]
    simp [not_or]

/-- What waits in front is worked off before anything else. -/
theorem nearest_append (g : Graph) (seen front back : List String) :
    nearest g seen (front ++ back) = fresh seen front ++
      nearest g ((fresh seen front).reverse ++ seen)
        (back ++ (fresh seen front).flatMap g.targets) := by
  induction front generalizing seen back with
  | nil => simp [fresh]
  | cons node front ih =>
    rw [List.cons_append, nearest, fresh]
    split
    · exact ih seen back
    · rw [List.append_assoc, ih (node :: seen) (back ++ g.targets node), List.cons_append,
        List.reverse_cons, ← List.append_cons, List.flatMap_cons, List.append_assoc]

theorem nearest_layer (g : Graph) (seen queue : List String) :
    nearest g seen queue = fresh seen queue ++
      nearest g ((fresh seen queue).reverse ++ seen) ((fresh seen queue).flatMap g.targets) := by
  have happend := nearest_append g seen queue []
  rwa [List.append_nil, List.nil_append] at happend

/-- A layer begins: all places within a number of edges are marked, and the queue holds what one
more edge leads to. -/
structure Layer (g : Graph) (start : String) (n : Nat) (seen queue : List String) : Prop where
  seen_iff : ∀ a, a ∈ seen ↔ ∃ m ≤ n, g.Steps start m a
  steps : ∀ a ∈ queue, g.Steps start (n + 1) a
  complete : ∀ a, g.Steps start (n + 1) a → a ∈ seen ∨ a ∈ queue

namespace Layer

variable {n : Nat} {seen queue : List String}

theorem first (g : Graph) (start : String) : Layer g start 0 [start] (g.targets start) where
  seen_iff a := by
    rw [List.mem_singleton]
    constructor
    · rintro rfl
      exact ⟨0, Nat.le_refl 0, .refl⟩
    · rintro ⟨m, hm, hsteps⟩
      obtain rfl := Nat.le_zero.1 hm
      cases hsteps
      rfl
  steps _ ha := .tail .refl ha
  complete a ha := by
    cases ha with
    | tail hb hedge =>
      cases hb
      exact .inr hedge

/-- The fresh places of the queue are those at the next distance. -/
theorem mem_fresh_iff_distance (h : Layer g start n seen queue) {a : String} :
    a ∈ fresh seen queue ↔ g.Distance start a (n + 1) := by
  rw [mem_fresh_iff]
  constructor
  · rintro ⟨hqueue, hnew⟩
    refine ⟨h.steps a hqueue, fun m hm => Nat.succ_le_of_lt (Nat.lt_of_not_le fun hle => ?_)⟩
    exact hnew ((h.seen_iff a).2 ⟨m, hle, hm⟩)
  · intro ha
    have hnew : a ∉ seen := by
      intro hseen
      obtain ⟨m, hm, hsteps⟩ := (h.seen_iff a).1 hseen
      exact absurd (ha.least m hsteps) (Nat.not_le.2 (Nat.lt_succ_of_le hm))
    exact ⟨(h.complete a ha.steps).resolve_left hnew, hnew⟩

/-- The next layer begins once the fresh places of the queue are marked. -/
theorem next (h : Layer g start n seen queue) :
    Layer g start (n + 1) ((fresh seen queue).reverse ++ seen)
      ((fresh seen queue).flatMap g.targets) where
  seen_iff a := by
    rw [List.mem_append, List.mem_reverse, h.mem_fresh_iff_distance, h.seen_iff]
    constructor
    · rintro (ha | ⟨m, hm, hsteps⟩)
      · exact ⟨n + 1, Nat.le_refl _, ha.steps⟩
      · exact ⟨m, Nat.le_succ_of_le hm, hsteps⟩
    · rintro ⟨m, hm, hsteps⟩
      obtain ⟨k, hk, hdistance⟩ := hsteps.exists_distance
      rcases Nat.lt_or_eq_of_le (hk.trans hm) with hlt | rfl
      · exact .inr ⟨k, Nat.lt_succ_iff.1 hlt, hdistance.steps⟩
      · exact .inl hdistance
  steps a ha := by
    obtain ⟨b, hb, hedge⟩ := List.mem_flatMap.1 ha
    exact (h.mem_fresh_iff_distance.1 hb).steps.tail hedge
  complete a ha := by
    cases ha with
    | @tail _ b _ hb hedge =>
      rw [List.mem_append, List.mem_reverse, List.mem_flatMap]
      by_cases hfresh : b ∈ fresh seen queue
      · exact .inr ⟨b, hfresh, hedge⟩
      · -- an edge from a place that was marked before leads no farther than this layer
        have hseen : b ∈ seen := (h.complete b hb).elim id fun hqueue =>
          by_contra fun hnew => hfresh (mem_fresh_iff.2 ⟨hqueue, hnew⟩)
        obtain ⟨m, hm, hsteps⟩ := (h.seen_iff b).1 hseen
        obtain ⟨k, hk, hdistance⟩ := (hsteps.tail hedge).exists_distance
        rcases Nat.lt_or_eq_of_le (hk.trans (Nat.succ_le_succ hm)) with hlt | rfl
        · exact .inl (.inr ((h.seen_iff a).2 ⟨k, Nat.lt_succ_iff.1 hlt, hdistance.steps⟩))
        · exact .inl (.inl (h.mem_fresh_iff_distance.2 hdistance))

end Layer

/-- All places beyond a number of edges, each once, the nearer ones first. -/
structure ListsBeyond (g : Graph) (start : String) (n : Nat) (found : List String) : Prop where
  mem_iff : ∀ a, a ∈ found ↔ ∃ m, n < m ∧ g.Distance start a m
  nodup : found.Nodup
  sorted : found.Pairwise fun a b =>
    ∀ m k, g.Distance start a m → g.Distance start b k → m ≤ k

/-- A layer in front of all that lies beyond it. -/
theorem ListsBeyond.append {n : Nat} {layer found : List String}
    (h : ListsBeyond g start (n + 1) found)
    (hlayer : ∀ a, a ∈ layer ↔ g.Distance start a (n + 1)) (hnodup : layer.Nodup) :
    ListsBeyond g start n (layer ++ found) where
  mem_iff a := by
    rw [List.mem_append, hlayer, h.mem_iff]
    constructor
    · rintro (ha | ⟨m, hm, ha⟩)
      · exact ⟨n + 1, Nat.lt_succ_self n, ha⟩
      · exact ⟨m, Nat.lt_of_succ_lt hm, ha⟩
    · rintro ⟨m, hm, ha⟩
      rcases Nat.lt_or_eq_of_le (Nat.succ_le_of_lt hm) with hlt | rfl
      · exact .inr ⟨m, hlt, ha⟩
      · exact .inl ha
  nodup := by
    refine List.nodup_append.2 ⟨hnodup, h.nodup, ?_⟩
    rintro a ha _ hb rfl
    obtain ⟨m, hm, hdistance⟩ := (h.mem_iff a).1 hb
    exact hm.ne ((hlayer a).1 ha |>.unique hdistance)
  sorted := by
    refine List.pairwise_append.2 ⟨?_, h.sorted, ?_⟩
    · refine List.pairwise_of_forall_mem_list fun a ha b hb m k hm hk => ?_
      exact ((hm.unique ((hlayer a).1 ha)).trans (((hlayer b).1 hb).unique hk)).le
    · intro a ha b hb m k hm hk
      obtain ⟨k', hk', hdistance⟩ := (h.mem_iff b).1 hb
      rw [hm.unique ((hlayer a).1 ha), hk.unique hdistance]
      exact hk'.le

/-- From the beginning of a layer on, the search lists all that is farther away. -/
theorem Layer.listsBeyond {n : Nat} {seen queue : List String} (h : Layer g start n seen queue) :
    ListsBeyond g start n (nearest g seen queue) := by
  -- what is still to be listed gets shorter with every layer that is not empty
  induction hlength : (nearest g seen queue).length using Nat.strongRecOn generalizing n seen queue
  with
  | ind length ih =>
    subst hlength
    by_cases hempty : fresh seen queue = []
    · have hnone : ∀ a m, n < m → ¬ g.Distance start a m := by
        intro a m hlt hm
        obtain ⟨b, hb⟩ := hm.exists_of_le (Nat.succ_le_of_lt hlt)
        have hmem := h.mem_fresh_iff_distance.2 hb
        rw [hempty] at hmem
        cases hmem
      have hdone : nearest g seen queue = [] := by
        rw [nearest_layer, hempty, List.flatMap_nil, nearest, List.append_nil]
      rw [hdone]
      refine ⟨fun a => ?_, List.nodup_nil, List.Pairwise.nil⟩
      refine iff_of_false List.not_mem_nil ?_
      rintro ⟨m, hlt, hm⟩
      exact hnone a m hlt hm
    · rw [nearest_layer]
      refine ListsBeyond.append (ih _ ?_ h.next rfl) (fun a => h.mem_fresh_iff_distance)
        (nodup_fresh seen queue)
      rw [nearest_layer g seen queue, List.length_append]
      exact Nat.lt_add_of_pos_left (List.length_pos_iff.2 hempty)

theorem listsBeyond_ancestors (g : Graph) (id : String) : ListsBeyond g id 0 (ancestors g id) :=
  (Layer.first g id).listsBeyond

/-! ## Turns -/

/-- What rests after some turns rests after more of them. -/
theorem iterate_eq_of_le {σ : Type} {f : σ → σ} {s r : σ} {m n : Nat} (h : f^[m] s = r)
    (hrest : f r = r) (hle : m ≤ n) : f^[n] s = r := by
  rw [← Nat.sub_add_cancel hle, Function.iterate_add_apply, h]
  exact Function.iterate_fixed hrest _

/-- How many edges lead from the entries of a graph. -/
def edgeCount (entries : List (String × List String)) : Nat := (entries.flatMap (·.2)).length

/-- What the search has marked, what it has listed, and what waits. -/
structure Sweep where
  seen : List String
  found : List String
  queue : List String

namespace Sweep

/-- The search begins with the targets of a place. -/
def initial (g : Graph) (id : String) : Sweep := ⟨[id], [], g.targets id⟩

/-- The first place is taken from the queue, and listed with its targets put to the end of the queue
unless it is marked. A search without a queue rests. -/
def turn (g : Graph) (s : Sweep) : Sweep :=
  match s.queue with
  | [] => s
  | node :: queue =>
    if node ∈ s.seen then { s with queue }
    else ⟨node :: s.seen, s.found ++ [node], queue ++ g.targets node⟩

/-- The edges that wait, and those of places that are not marked. -/
def owed (g : Graph) (s : Sweep) : Nat :=
  s.queue.length + edgeCount (g.entries.filter (·.1 ∉ s.seen))

theorem found_append_turn (g : Graph) (s : Sweep) :
    (s.turn g).found ++ nearest g (s.turn g).seen (s.turn g).queue =
      s.found ++ nearest g s.seen s.queue := by
  obtain ⟨seen, found, queue⟩ := s
  cases queue with
  | nil => rfl
  | cons node queue =>
    rw [nearest, turn]
    dsimp only
    split
    · rfl
    · rw [List.append_assoc, List.singleton_append]

theorem edgeCount_mark {entries : List (String × List String)} (hd : DistinctKeys entries)
    {seen : List String} {node : String} (hnew : node ∉ seen) :
    edgeCount (entries.filter (·.1 ∉ seen)) =
      ((valueAt? node entries).getD []).length +
        edgeCount (entries.filter (·.1 ∉ node :: seen)) := by
  induction entries with
  | nil => rfl
  | cons e rest ih =>
    obtain ⟨k, ts⟩ := e
    obtain ⟨hhead, hrest⟩ := List.pairwise_cons.1 hd
    rw [valueAt?]
    by_cases heq : k = node
    · subst heq
      have hothers : rest.filter (·.1 ∉ k :: seen) = rest.filter (·.1 ∉ seen) := by
        refine List.filter_congr fun e he => ?_
        have hne : e.1 ≠ k := (beq_eq_false_iff_ne.1 (hhead e he)).symm
        simp [hne]
      rw [if_pos (beq_self_eq_true k), Option.getD_some,
        List.filter_cons_of_pos (by simpa using hnew), List.filter_cons_of_neg (by simp), hothers]
      exact List.length_append
    · rw [if_neg (mt eq_of_beq heq)]
      by_cases hk : k ∈ seen
      · rw [List.filter_cons_of_neg (by simpa using hk), List.filter_cons_of_neg (by simp [hk])]
        exact ih hrest
      · rw [List.filter_cons_of_pos (by simpa using hk),
          List.filter_cons_of_pos (by simp [heq, hk])]
        have hcount := ih hrest
        simp only [edgeCount, List.flatMap_cons, List.length_append] at hcount ⊢
        omega

/-- A turn works off one edge. -/
theorem owed_turn (g : Graph) {s : Sweep} (h : s.queue ≠ []) :
    (s.turn g).owed g + 1 = s.owed g := by
  obtain ⟨seen, found, queue⟩ := s
  cases queue with
  | nil => exact absurd rfl h
  | cons node queue =>
    rw [turn]
    dsimp only
    split
    · simp only [owed, List.length_cons]
      omega
    · next hnew =>
      have hmark := edgeCount_mark g.distinct hnew
      simp only [owed, List.length_cons, List.length_append, hmark]
      change _ + (g.targets node).length + _ + 1 = _ + 1 + ((g.targets node).length + _)
      omega

theorem iterate_turn_of_rest (g : Graph) {s : Sweep} (h : s.queue = []) (turns : Nat) :
    (turn g)^[turns] s = s :=
  Function.iterate_fixed (by rw [turn, h]) turns

/-- A search rests after as many turns as it owes edges, and has then listed what is near. -/
theorem iterate_turn (g : Graph) {s : Sweep} {turns : Nat} (h : s.owed g ≤ turns) :
    ((turn g)^[turns] s).queue = [] ∧
      ((turn g)^[turns] s).found = s.found ++ nearest g s.seen s.queue := by
  induction turns generalizing s with
  | zero =>
    have hqueue : s.queue = [] := by
      unfold owed at h
      exact List.length_eq_zero_iff.1 (by omega)
    rw [Function.iterate_zero, id_eq, hqueue, nearest, List.append_nil]
    exact ⟨rfl, rfl⟩
  | succ turns ih =>
    by_cases hqueue : s.queue = []
    · rw [iterate_turn_of_rest g hqueue, hqueue, nearest, List.append_nil]
      exact ⟨rfl, rfl⟩
    · have howed := owed_turn g hqueue
      rw [Function.iterate_succ_apply, ← found_append_turn]
      exact ih (by omega)

/-- A search that begins owes no more than all edges of the graph. -/
theorem owed_initial (g : Graph) (id : String) : (initial g id).owed g ≤ edgeCount g.entries := by
  have hmark := edgeCount_mark g.distinct (List.not_mem_nil (a := id))
  have hall : g.entries.filter (·.1 ∉ ([] : List String)) = g.entries :=
    List.filter_eq_self.2 fun e _ => by simp
  rw [hall] at hmark
  rw [hmark]
  exact Nat.le_refl _

end Sweep

/-! ## Ancestors -/

section

variable {d : Dictionary} {id : String} {p : Pattern}

theorem edgeCount_ofDictionary (d : Dictionary) :
    edgeCount (ofDictionary d).entries = (d.entries.flatMap (·.2.parents)).length := by
  rw [edgeCount, ofDictionary, Table.entries_mapValues, List.flatMap_map]

/-- **Ancestors are listed breadth first.** In every dictionary the search comes to rest after at
most as many turns as there are edges. It lists all that a pattern reaches apart from itself, each
place once, in the order of distance, and what the pattern extends directly in the order in which it
does so. -/
theorem ancestors_breadthFirst (h : d.get? id = some p) :
    let g := ofDictionary d
    let found := ancestors g id
    let direct := (p.parents.filter (· ≠ id)).eraseDups
    (∀ turns, (d.entries.flatMap (·.2.parents)).length ≤ turns →
      ((Sweep.turn g)^[turns] (.initial g id)).queue = [] ∧
        ((Sweep.turn g)^[turns] (.initial g id)).found = found) ∧
      (∀ a, a ∈ found ↔ a ≠ id ∧ TransGen g.Edge id a) ∧ found.Nodup ∧
      (∃ distance : String → Nat, (∀ a ∈ found, g.Distance id a (distance a)) ∧
        found.Pairwise fun a b => distance a ≤ distance b) ∧
      ∃ far, found = direct ++ far ∧ (∀ a ∈ direct, g.Distance id a 1) ∧
        ∀ a ∈ far, ¬ g.Distance id a 1 := by
  intro g found direct
  have hfirst := Layer.first g id
  have hsweep : ListsBeyond g id 0 found := listsBeyond_ancestors g id
  have hdirect : fresh [id] (g.targets id) = direct := by
    rw [fresh_eq_eraseDups, targets_ofDictionary h]
    simp only [List.mem_singleton, direct]
  refine ⟨fun turns hturns => ?_, fun a => ?_, hsweep.nodup, ?_, ?_⟩
  · rw [← edgeCount_ofDictionary] at hturns
    exact Sweep.iterate_turn g ((Sweep.owed_initial g id).trans hturns)
  · rw [hsweep.mem_iff, exists_distance_pos_iff]
  · have hsome : ∀ a, ∃ n, a ∈ found → g.Distance id a n := fun a => by
      by_cases ha : a ∈ found
      · obtain ⟨n, -, hn⟩ := (hsweep.mem_iff a).1 ha
        exact ⟨n, fun _ => hn⟩
      · exact ⟨0, fun hmem => absurd hmem ha⟩
    choose distance hdistance using hsome
    refine ⟨distance, hdistance, hsweep.sorted.imp_of_mem fun ha hb hle => ?_⟩
    exact hle _ _ (hdistance _ ha) (hdistance _ hb)
  · refine ⟨_, (nearest_layer g [id] (g.targets id)).trans (by rw [hdirect]), fun a ha => ?_,
      fun a ha hone => ?_⟩
    · exact hfirst.mem_fresh_iff_distance.1 (hdirect ▸ ha)
    · rw [← hdirect] at ha
      obtain ⟨m, hm, hdistance⟩ := (hfirst.next.listsBeyond.mem_iff a).1 ha
      exact hm.ne (hone.unique hdistance)

end

/-- Patterns that extend each other in a circle, one of them itself and one target twice, and one
that does not exist. -/
def tangle : Dictionary where
  entries := [("a", { Pattern.blank with parents := ["b", "a", "gone", "b", "c"] }),
    ("b", { Pattern.blank with parents := ["c", "d", "a"] }),
    ("c", { Pattern.blank with parents := ["gone"] }),
    ("d", { Pattern.blank with parents := ["b"] })]
  distinct := distinctKeys_iff_nodup.2 (by decide)

theorem ancestors_breadthFirst_tangle :
    (∃ p, tangle.get? "a" = some p) ∧
      ancestors (ofDictionary tangle) "a" = ["b", "gone", "c", "d"] ∧
      TransGen (ofDictionary tangle).Edge "a" "d" ∧ (ofDictionary tangle).Distance "a" "c" 1 ∧
      ¬ (ofDictionary tangle).Distance "a" "d" 1 := by
  have hp : tangle.get? "a" = some _ := rfl
  obtain ⟨hrest, hmem, -, -, far, hfar, hnear, hbeyond⟩ := ancestors_breadthFirst hp
  have hfound : ancestors (ofDictionary tangle) "a" = ["b", "gone", "c", "d"] :=
    (hrest 10 (by decide)).2.symm.trans (by decide)
  have hreach := (hmem "d").1 (by rw [hfound]; decide)
  have hd : "d" ∈ far := by
    have hparts : ["b", "gone", "c"] ++ far = ["b", "gone", "c"] ++ ["d"] :=
      hfar.symm.trans hfound
    rw [List.append_cancel_left hparts]
    decide
  exact ⟨⟨_, hp⟩, hfound, hreach.2, hnear "c" (by decide), hbeyond "d" hd⟩

end LayoutGrammar.Extends
