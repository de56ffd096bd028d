import LayoutGrammar.Proofs.Extract.Walk
import LayoutGrammar.Proofs.Tree.Alike
import Mathlib.Data.List.Perm.Subperm
import Mathlib.Logic.Relation

/-!
# The steps of a walk

Extraction walks from map to map in preorder. `Walk` lists its steps without any bound on their
number: the walk comes to a map, goes through what the map defines, and is done with the map; a map
that is met within itself is not gone into. `result_extract` says that every document has such a
finite list of steps, and that extracting it is to perform them one after the other. The bound that
the program passes along is never reached: in a plain tree it exceeds the height (`bounded_tree`),
in a heap the maps that are being extracted at one time are distinct (`bounded_heap`).
-/

namespace LayoutGrammar

namespace Extract

open Logged Relation

section Source

variable {ν : Type} (source : Source ν)

/-- One step of a walk: it comes to a map, below the maps on a trail, or is done with a map and
reads its parents. -/
inductive WalkStep (ν : Type) where
  | enter (trail : List (String × ν)) (id : String) (data : ν)
  | leave (id : String) (data : ν)

/-- Whether one and the same map is on a trail. -/
def onTrail (trail : List (String × ν)) (data : ν) : Bool := trail.any (source.same data ·.2)

/-- The steps of a walk through some maps and all that they define, below the maps on a trail. -/
inductive Walk : List (String × ν) → List (String × ν) → List (WalkStep ν) → Prop
  | done (trail : List (String × ν)) : Walk trail [] []
  | again {trail rest : List (String × ν)} {id : String} {data : ν} {after : List (WalkStep ν)}
      (hon : onTrail source trail data = true) (hrest : Walk trail rest after) :
      Walk trail ((id, data) :: rest) (.enter trail id data :: after)
  | into {trail rest : List (String × ν)} {id : String} {data : ν} {below after : List (WalkStep ν)}
      (hon : onTrail source trail data = false)
      (hbelow : Walk (trail ++ [(id, data)]) (definedBy source data) below)
      (hrest : Walk trail rest after) :
      Walk trail ((id, data) :: rest) (.enter trail id data :: (below ++ .leave id data :: after))

/-- The maps that some steps come to, with their ids. -/
def entered (steps : List (WalkStep ν)) : List (String × ν) :=
  steps.filterMap fun
    | .enter _ id data => some (id, data)
    | .leave .. => none

/-- Performs one step on the dictionary. -/
def perform (d : Dictionary) : WalkStep ν → Except Error Dictionary
  | .enter trail id data =>
    if onTrail source trail data then .error (.recursiveDefinition (trail.map (·.1) ++ [id]))
    else if d.contains id then .error (.duplicatePattern id)
    else .ok (d.insert id .blank)
  | .leave id data =>
    ownParents source data >>= fun parents =>
      .ok (d.insert id { ownFields source data with parents })

/-- One map is defined by a component of another. -/
def Nests (owner child : ν) : Prop := ∃ id, (id, child) ∈ definedBy source owner

variable {source}

@[simp] theorem entered_nil : entered ([] : List (WalkStep ν)) = [] := rfl

@[simp] theorem entered_enter (trail : List (String × ν)) (id : String) (data : ν)
    (steps : List (WalkStep ν)) :
    entered (.enter trail id data :: steps) = (id, data) :: entered steps := rfl

@[simp] theorem entered_leave (id : String) (data : ν) (steps : List (WalkStep ν)) :
    entered (.leave id data :: steps) = entered steps := rfl

@[simp] theorem entered_append (xs ys : List (WalkStep ν)) :
    entered (xs ++ ys) = entered xs ++ entered ys := List.filterMap_append

/-! ## From the bounded walk to its steps -/

/-- A bound that is not reached below a map. -/
def Bounded (source : Source ν) : Nat → List (String × ν) → ν → Prop
  | 0, _, _ => False
  | depth + 1, trail, data =>
    onTrail source trail data = false → ∀ id, ∀ child ∈ definedBy source data,
      Bounded source depth (trail ++ [(id, data)]) child.2

/-- A bounded walk through some maps performs the steps of an unbounded one. -/
theorem exists_walk {depth : Nat} {trail items : List (String × ν)}
    (h : ∀ item ∈ items, Bounded source depth trail item.2) :
    ∃ steps, Walk source trail items steps ∧
      ∀ d, items.foldlM (enterBelow source depth trail) d = steps.foldlM (perform source) d := by
  -- one definition deeper uses up one step of the bound, the next map beside it does not
  induction depth generalizing trail items with
  | zero =>
    cases items with
    | nil => exact ⟨[], .done trail, fun d => rfl⟩
    | cons item rest => exact (h item List.mem_cons_self).elim
  | succ depth ihdepth =>
    induction items with
    | nil => exact ⟨[], .done trail, fun d => rfl⟩
    | cons item rest ihrest =>
      obtain ⟨id, data⟩ := item
      obtain ⟨after, hafter, hrest⟩ :=
        ihrest fun item hitem => h item (List.mem_cons_of_mem _ hitem)
      have hstep : ∀ d, enterBelow source (depth + 1) trail d (id, data) =
          if onTrail source trail data then
            .error (.recursiveDefinition (trail.map (·.1) ++ [id]))
          else if d.contains id then .error (.duplicatePattern id)
          else
            (definedBy source data).foldlM (enterBelow source depth (trail ++ [(id, data)]))
                (d.insert id .blank) >>= fun d' =>
              ownParents source data >>= fun parents =>
                .ok (d'.insert id { ownFields source data with parents }) :=
        fun d => result_enter_node depth trail id data d
      cases hon : onTrail source trail data with
      | true =>
        refine ⟨_, .again hon hafter, fun d => ?_⟩
        rw [List.foldlM_cons, List.foldlM_cons, hstep, perform, if_pos hon, if_pos hon]
        rfl
      | false =>
        have hbelow := h (id, data) List.mem_cons_self hon id
        obtain ⟨below, hwalk, hperform⟩ := ihdepth hbelow
        refine ⟨_, .into hon hwalk hafter, fun d => ?_⟩
        have hnot : ¬ onTrail source trail data = true := by simp [hon]
        rw [List.foldlM_cons, List.foldlM_cons, hstep, perform, if_neg hnot, if_neg hnot]
        by_cases htaken : d.contains id = true
        · rw [if_pos htaken, if_pos htaken]
          rfl
        · rw [if_neg htaken, if_neg htaken, hperform, ok_bind, List.foldlM_append, bind_assoc]
          refine bind_congr fun d' => ?_
          rw [List.foldlM_cons, perform]
          refine bind_congr fun d'' => ?_
          exact hrest d''

/-- The maps among some entries, with their keys as ids. -/
def topMaps (entries : List (Value × Slot ν)) : List (String × ν) :=
  entries.filterMap fun e =>
    match e.2 with
    | .node n => some (e.1.text, n)
    | _ => none

theorem mem_topMaps {entries : List (Value × Slot ν)} {top : String × ν}
    (h : top ∈ topMaps entries) : ∃ key, (key, .node top.2) ∈ entries := by
  obtain ⟨⟨key, slot⟩, he, htop⟩ := List.mem_filterMap.1 h
  cases slot with
  | node n =>
    obtain rfl := Option.some.inj htop
    exact ⟨key, he⟩
  | leaf _ | row _ => cases htop

/-- At the top, everything but the maps is skipped. -/
theorem foldlM_enterTop (depth : Nat) (entries : List (Value × Slot ν)) (d : Dictionary) :
    entries.foldlM (enterTop source depth) d =
      (topMaps entries).foldlM (enterBelow source depth []) d := by
  induction entries generalizing d with
  | nil => rfl
  | cons e rest ih =>
    obtain ⟨key, slot⟩ := e
    rw [List.foldlM_cons]
    cases slot with
    | node n =>
      have htop : topMaps ((key, Slot.node n) :: rest) = (key.text, n) :: topMaps rest := rfl
      rw [htop, List.foldlM_cons]
      refine bind_congr fun d' => ?_
      exact ih d'
    | leaf _ | row _ =>
      have hskip : ∀ slot : Slot ν, (∀ n, slot ≠ .node n) →
          enterTop source depth d (key, slot) = .ok d := by
        intro slot hslot
        cases slot with
        | node n => exact absurd rfl (hslot n)
        | leaf _ | row _ => cases depth <;> rfl
      rw [hskip _ (by simp), ok_bind]
      exact ih d

end Source

/-! ## Children -/

section Children

variable {ν : Type} (source : Source ν)

/-- The children that the map of a pattern lists at a placement, in order. -/
def childrenAt (placement : Placement) (data : ν) : List (Value × Slot ν) :=
  (source.entries data).flatMap fun e =>
    if placementOf? e.1 = some placement then childrenOf source e.2 else []

/-- The map of a child carries a definition. -/
def Defines (data : ν) : Prop :=
  (Slot.field? "pattern_definition" (source.entries data)).isSome = true

variable {source}

theorem mem_childrenAt_iff {placement : Placement} {data : ν} {child : Value × Slot ν} :
    child ∈ childrenAt source placement data ↔
      ∃ key n, (key, .node n) ∈ source.entries data ∧ placementOf? key = some placement ∧
        child ∈ source.entries n := by
  rw [childrenAt, List.mem_flatMap]
  constructor
  · rintro ⟨⟨key, slot⟩, he, hchild⟩
    split at hchild
    · next hkey =>
      cases slot with
      | node n => exact ⟨key, n, he, hkey, hchild⟩
      | leaf _ | row _ => cases hchild
    · cases hchild
  · rintro ⟨key, n, he, hkey, hchild⟩
    refine ⟨_, he, ?_⟩
    rw [if_pos hkey]
    exact hchild

theorem mem_defined_iff {child : Value × Slot ν} {c : String × ν} :
    c ∈ defined source child ↔
      child.2 = .node c.2 ∧ Defines source c.2 ∧ c.1 = inlineId child.1.text := by
  obtain ⟨key, slot⟩ := child
  obtain ⟨id, data⟩ := c
  unfold defined Defines
  cases slot with
  | leaf _ | row _ => simp
  | node n =>
    dsimp only
    split
    · next hn =>
      simp only [List.mem_singleton, Prod.mk.injEq, Slot.node.injEq]
      constructor
      · rintro ⟨rfl, rfl⟩
        exact ⟨rfl, hn, rfl⟩
      · rintro ⟨rfl, -, rfl⟩
        exact ⟨rfl, rfl⟩
    · next hn =>
      simp only [List.not_mem_nil, Slot.node.injEq, false_iff]
      rintro ⟨rfl, hdef, -⟩
      exact hn hdef

theorem mem_definedBy_iff {data : ν} {c : String × ν} :
    c ∈ definedBy source data ↔
      ∃ placement, ∃ child ∈ childrenAt source placement data,
        child.2 = .node c.2 ∧ Defines source c.2 ∧ c.1 = inlineId child.1.text := by
  simp only [definedBy, List.mem_flatMap, ← mem_defined_iff]
  constructor
  · rintro ⟨⟨key, slot⟩, he, hc⟩
    unfold definedAt at hc
    split at hc
    · next placement hkey =>
      obtain ⟨child, hchild, hdefined⟩ := List.mem_flatMap.1 hc
      cases slot with
      | node n =>
        exact ⟨placement, child, mem_childrenAt_iff.2 ⟨key, n, he, hkey, hchild⟩, hdefined⟩
      | leaf _ | row _ => cases hchild
    · cases hc
  · rintro ⟨placement, child, hchild, hc⟩
    obtain ⟨key, n, he, hkey, hchild⟩ := mem_childrenAt_iff.1 hchild
    refine ⟨_, he, ?_⟩
    unfold definedAt
    rw [hkey]
    exact List.mem_flatMap.2 ⟨child, hchild, hc⟩

end Children

/-! ## The bounds of the program -/

theorem mem_entries_tree_iff {key : Value} {entries data : List (Value × Value)} :
    (key, Slot.node data) ∈ Source.tree.entries entries ↔ (key, Value.map data) ∈ entries := by
  have hslot : ∀ v : Value, v.slot = .node data ↔ v = .map data := by
    intro v
    cases v <;> simp [Value.slot]
  simp only [Source.tree, List.mem_map, Prod.mk.injEq, hslot]
  constructor
  · rintro ⟨e, he, rfl, heq⟩
    rwa [← heq]
  · intro he
    exact ⟨_, he, rfl, rfl⟩

theorem height_lt_of_defined {entries : List (Value × Value)}
    {child : String × List (Value × Value)} (h : child ∈ definedBy .tree entries) :
    Value.heightEntries child.2 < Value.heightEntries entries := by
  obtain ⟨placement, ⟨key, slot⟩, hmem, hslot, -, -⟩ := mem_definedBy_iff.1 h
  obtain rfl : slot = .node child.2 := hslot
  obtain ⟨key', n, hn, -, hchild⟩ := mem_childrenAt_iff.1 hmem
  have hinner := Value.le_heightEntries (mem_entries_tree_iff.1 hchild)
  have houter := Value.le_heightEntries (mem_entries_tree_iff.1 hn)
  simp only [Value.height] at hinner houter
  omega

theorem height_lt_of_top {es : List (Value × Value)}
    {entries : List (Value × Slot (List (Value × Value)))}
    (h : topEntries .tree (.node es) = .ok entries) {key : Value} {data : List (Value × Value)}
    (hmem : (key, .node data) ∈ entries) : Value.heightEntries data < Value.heightEntries es := by
  have hlower : ∀ {key : Value} {xs ys : List (Value × Value)},
      (key, .node ys) ∈ Source.tree.entries xs →
        Value.heightEntries ys < Value.heightEntries xs := by
    intro key xs ys hys
    have hle := Value.le_heightEntries (mem_entries_tree_iff.1 hys)
    simp only [Value.height] at hle
    omega
  unfold topEntries at h
  dsimp only at h
  split at h
  · next inner hinner =>
    obtain rfl := Except.ok.inj h
    have hpatterns := hlower (Slot.mem_of_field? hinner)
    have hdata := hlower hmem
    omega
  · obtain rfl := Except.ok.inj h
    exact hlower hmem

theorem bounded_tree {depth : Nat} {trail : List (String × List (Value × Value))}
    {entries : List (Value × Value)} (h : Value.heightEntries entries < depth) :
    Bounded .tree depth trail entries := by
  induction depth generalizing trail entries with
  | zero => omega
  | succ depth ih =>
    intro _ id child hchild
    have hlower := height_lt_of_defined hchild
    exact ih (by omega)

/-- The maps on a trail are distinct cells of the heap, so there are not more of them. -/
theorem bounded_heap {heap : Heap} {depth : Nat} {trail : List (String × Nat)} {data : Nat}
    (hdistinct : (trail.map (·.2)).Nodup) (hcells : ∀ e ∈ trail, e.2 < heap.cells.size)
    (hdepth : heap.cells.size < depth + trail.length) : Bounded heap.source depth trail data := by
  induction depth generalizing trail data with
  | zero =>
    have hsub : trail.map (·.2) ⊆ List.range heap.cells.size := by
      intro n hn
      obtain ⟨e, he, rfl⟩ := List.mem_map.1 hn
      exact List.mem_range.2 (hcells e he)
    have hlength := (List.subperm_of_subset hdistinct hsub).length_le
    rw [List.length_map, List.length_range] at hlength
    omega
  | succ depth ih =>
    intro hon id child hchild
    have hdata : data < heap.cells.size := by
      by_contra hout
      have hempty : heap.source.entries data = [] := by
        simp [Heap.source, Heap.entries, Heap.cell, Array.getD, hout]
      rw [definedBy, hempty] at hchild
      cases hchild
    refine ih ?_ ?_ ?_
    · have hnew : data ∉ trail.map (·.2) := by
        intro hmem
        obtain ⟨e, he, rfl⟩ := List.mem_map.1 hmem
        have hany : onTrail heap.source trail e.2 = true :=
          List.any_eq_true.2 ⟨e, he, beq_self_eq_true e.2⟩
        rw [hon] at hany
        cases hany
      rw [List.map_append, List.nodup_append]
      refine ⟨hdistinct, List.nodup_singleton _, ?_⟩
      rintro a ha b hb rfl
      obtain rfl : a = data := List.mem_singleton.1 hb
      exact hnew ha
    · intro e he
      rcases List.mem_append.1 he with he | he
      · exact hcells e he
      · obtain rfl := List.mem_singleton.1 he
        exact hdata
    · simp only [List.length_append, List.length_cons, List.length_nil]
      omega

end Extract

/-! ## Documents -/

namespace Document

open Extract

/-- What the maps of a document are known by: a plain tree by their entries, shared ones by their
addresses. -/
def Node : Document → Type
  | .plain _ => List (Value × Value)
  | .shared .. => Nat

/-- The maps of a document. -/
def source : (doc : Document) → Source doc.Node
  | .plain _ => .tree
  | .shared heap _ => heap.source

/-- The whole document as a slot. -/
def root : (doc : Document) → Slot doc.Node
  | .plain tree => tree.slot
  | .shared _ root => root

/-- How deep the program follows definitions at most. -/
def depth : Document → Nat
  | .plain tree => tree.height + 1
  | .shared heap _ => heap.cells.size + 1

theorem extract_eq_run (doc : Document) : doc.extract = run doc.source doc.depth doc.root := by
  cases doc <;> rfl

/-- A map is only ever the same as itself. -/
theorem eq_of_same {doc : Document} {m n : doc.Node} (h : doc.source.same m n = true) : m = n := by
  cases doc with
  | plain tree => cases h
  | shared heap root =>
    exact (beq_iff_eq (α := Nat)).1 h

theorem bounded_top (doc : Document) {entries : List (Value × Slot doc.Node)}
    (h : topEntries doc.source doc.root = .ok entries) :
    ∀ top ∈ topMaps entries, Bounded doc.source doc.depth [] top.2 := by
  intro top htop
  cases doc with
  | shared heap root =>
    refine bounded_heap List.nodup_nil (fun e he => nomatch he) ?_
    simp only [depth]
    omega
  | plain tree =>
    obtain ⟨key, hkey⟩ := mem_topMaps htop
    cases tree with
    | map es =>
      have hlower := height_lt_of_top h hkey
      refine bounded_tree ?_
      simp only [depth, Value.height]
      omega
    | _ => cases h

/-- **Every document has a finite list of steps, and to extract it is to perform them.** -/
theorem result_extract (doc : Document) {entries : List (Value × Slot doc.Node)}
    (h : topEntries doc.source doc.root = .ok entries) :
    ∃ steps, Walk doc.source [] (topMaps entries) steps ∧
      doc.extract.result = steps.foldlM (perform doc.source) ∅ := by
  obtain ⟨steps, hwalk, hperform⟩ := exists_walk (bounded_top doc h)
  refine ⟨steps, hwalk, ?_⟩
  rw [extract_eq_run, result_run, h, ok_bind, foldlM_enterTop, hperform]

end Document

end LayoutGrammar
