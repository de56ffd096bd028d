import LayoutGrammar.Proofs.Layout.Positions
import LayoutGrammar.Proofs.Logged
import LayoutGrammar.Proofs.Table

/-!
# Siblings spread evenly

A child belongs to at most one group (`groupKey?`), and the group of a key has the children of that
key in their order (`getD_gathered`). So spreading is one list of writes (`writes`), a line of boxes
for each group, and if the keys of the children are distinct so are those of the writes
(`distinctKeys_writes`). Each child then has the box that was written for it, or its own
(`spreadBox`), and the boxes of a group are its line (`map_spreadBox`).
-/

namespace LayoutGrammar.Layout

open Scalar

variable {α : Type}

/-- The side that a child is grouped by, if it is free to move along it. -/
def anchor? (c : Child α) : Option Side :=
  if c.mode = .inner then c.location.bind fun l => (Pins.ofLocation l).single?
  else c.location.bind Location.primarySide

/-- The group of a child. -/
def groupKey? (c : Child α) : Option GroupKey := (anchor? c).map (c.mode, ·)

/-- The children of a group in their order. -/
def members (children : List (Child α)) (key : GroupKey) : List (Child α) :=
  children.filter fun c => groupKey? c = some key

theorem groupKey?_eq_some_iff {c : Child α} {mode : Placement} {side : Side} :
    groupKey? c = some (mode, side) ↔ c.mode = mode ∧ anchor? c = some side := by
  unfold groupKey?
  cases anchor? c <;> simp

theorem mem_members {children : List (Child α)} {key : GroupKey} {c : Child α} :
    c ∈ members children key ↔ c ∈ children ∧ groupKey? c = some key := by
  simp [members]

theorem members_cons (c : Child α) (rest : List (Child α)) (key : GroupKey) :
    members (c :: rest) key =
      if groupKey? c = some key then c :: members rest key else members rest key := by
  simp [members, List.filter_cons]

/-! ## Groups -/

theorem result_groupSide (c : Child α) :
    (groupSide (α := α) c.location c.mode).result = .ok (anchor? c) := by
  unfold groupSide anchor?
  rw [result_traced]
  split <;> rfl

/-- `joinGroup` without its trace. -/
def join (groups : Groups α) (c : Child α) : Groups α :=
  match groupKey? c with
  | none => groups
  | some key => groups.insert key ((groups.get? key).getD [] ++ [c])

theorem result_joinGroup (groups : Groups α) (c : Child α) :
    (joinGroup groups c).result = .ok (join groups c) := by
  rw [joinGroup, Logged.result_bind, result_groupSide, ok_bind, join, groupKey?]
  cases anchor? c <;> rfl

/-- The groups of some children. -/
def gathered (children : List (Child α)) : Groups α := children.foldl join ∅

theorem result_gatherGroups (children : List (Child α)) :
    (gatherGroups children).result = .ok (gathered children) := by
  rw [gatherGroups, result_traced]
  exact Logged.result_foldlM_of_ok result_joinGroup ∅ children

theorem getD_foldl_join (groups : Groups α) (children : List (Child α)) (key : GroupKey) :
    ((children.foldl join groups).get? key).getD [] =
      (groups.get? key).getD [] ++ members children key := by
  induction children generalizing groups with
  | nil => exact (List.append_nil _).symm
  | cons c rest ih =>
    rw [List.foldl_cons, ih, join, members_cons]
    cases groupKey? c with
    | none => rw [if_neg nofun]
    | some own =>
      by_cases hown : own = key
      · subst hown
        simp
      · simp [Table.get?_insert_of_ne hown, hown]

/-- A group has the children of its key. -/
theorem getD_gathered (children : List (Child α)) (key : GroupKey) :
    ((gathered children).get? key).getD [] = members children key :=
  getD_foldl_join ∅ children key

theorem eq_members_of_mem_gathered {children : List (Child α)} {group : GroupKey × List (Child α)}
    (h : group ∈ (gathered children).entries) : group.2 = members children group.1 := by
  have hfound := Table.get?_eq_some_iff.2 h
  rw [← getD_gathered, hfound]
  rfl

/-- Every group with a member was gathered. -/
theorem mem_gathered {children : List (Child α)} {key : GroupKey} {c : Child α}
    (h : c ∈ members children key) : (key, members children key) ∈ (gathered children).entries := by
  refine Table.get?_eq_some_iff.1 ?_
  rw [← getD_gathered] at h ⊢
  cases hfound : (gathered children).get? key with
  | none =>
    rw [hfound] at h
    cases h
  | some found => rfl

/-! ## Writes -/

section Writes

variable [Scalar α] (parent : Rect α) (s : Settings α)

/-- The boxes of a group in line. -/
def laidOut (key : GroupKey) (boxes : List (Rect α)) : List (Rect α) :=
  lineUp key.2 (parent.along key.2)
    (gap (boxes.map (·.size.along key.2)) (parent.size.along key.2) s.minSpacing) boxes

/-- What is written for the members of a group. -/
def groupWrites (group : GroupKey × List (Child α)) : List (ChildKey × Rect α) :=
  (group.2.map Child.key).zip (laidOut parent s group.1 (group.2.map (·.bounds)))

omit [Scalar α] in
theorem zip_zipWith_placedAlong (side : Side) (ms : List (Child α)) (ps : List α) :
    (ms.map Child.key).zip ((ms.map (·.bounds)).zipWith (Rect.placedAlong · side) ps) =
      (ms.zip ps).map fun e => (e.1.key, e.1.bounds.placedAlong side e.2) := by
  induction ms generalizing ps with
  | nil => rfl
  | cons c rest ih =>
    cases ps with
    | nil => rfl
    | cons p ps => exact congrArg (_ :: ·) (ih ps)

theorem snd_spreadOut (sizes : List α) (start span minSpacing : α) :
    (spreadOut sizes start span minSpacing).2 =
      positions start (gap sizes span minSpacing) sizes := by
  unfold spreadOut
  cases sizes <;> rfl

theorem result_spreadGroup (boxes : Boxes α) (group : GroupKey × List (Child α)) :
    (spreadGroup parent s boxes group).result =
      .ok (boxes.insertAll (groupWrites parent s group)) := by
  obtain ⟨⟨mode, side⟩, ms⟩ := group
  have hsizes : (ms.map fun c => c.bounds.size.along side) =
      (ms.map (·.bounds)).map (·.size.along side) := by
    rw [List.map_map]
    rfl
  have hresult : (spreadGroup parent s boxes ((mode, side), ms)).result =
      .ok ((ms.zip (spreadOut (ms.map fun c => c.bounds.size.along side) (parent.along side)
        (parent.size.along side) s.minSpacing).2).foldl
          (fun boxes e => boxes.insert e.1.key (e.1.bounds.placedAlong side e.2)) boxes) := by
    cases side <;> rfl
  rw [hresult, hsizes, snd_spreadOut, groupWrites, laidOut, lineUp, zip_zipWith_placedAlong,
    Table.insertAll, List.foldl_map]

theorem result_distribute (children : List (Child α)) (choice : Choice α) :
    (distribute children parent choice).result =
      .ok ((Table.ofList (children.map fun c => (c.key, c.bounds))).insertAll
        ((gathered children).entries.flatMap (groupWrites parent choice.settings))) := by
  rw [distribute, result_traced, Logged.result_bind, result_gatherGroups, ok_bind,
    Logged.result_foldlM_of_ok (result_spreadGroup parent choice.settings), Table.foldl_insertAll]

theorem keys_groupWrites (group : GroupKey × List (Child α)) :
    (groupWrites parent s group).map (·.1) = group.2.map Child.key := by
  refine List.map_fst_zip (le_of_eq ?_)
  rw [laidOut, ← (forall₂_lineUp _ _ _ _).length_eq, List.length_map, List.length_map]

/-- All that is written for some children. -/
def writes (children : List (Child α)) : List (ChildKey × Rect α) :=
  (gathered children).entries.flatMap (groupWrites parent s)

variable {parent s} {children : List (Child α)} {c : Child α}

/-- What is written is the box of a child moved along its side. -/
theorem exists_placedAlong_of_mem_writes {e : ChildKey × Rect α}
    (h : e ∈ writes parent s children) :
    ∃ c ∈ children, ∃ side position, anchor? c = some side ∧
      e = (c.key, c.bounds.placedAlong side position) := by
  obtain ⟨⟨⟨mode, side⟩, group⟩, hgroup, he⟩ := List.mem_flatMap.1 h
  obtain rfl : group = members children (mode, side) := eq_members_of_mem_gathered hgroup
  rw [groupWrites, laidOut, lineUp, zip_zipWith_placedAlong] at he
  obtain ⟨⟨c, position⟩, hzip, rfl⟩ := List.mem_map.1 he
  obtain ⟨hc, hkey⟩ := mem_members.1 (List.of_mem_zip hzip).1
  exact ⟨c, hc, side, position, (groupKey?_eq_some_iff.1 hkey).2, rfl⟩

/-- What is written belongs to a child with a group. -/
theorem exists_of_mem_writes {e : ChildKey × Rect α} (h : e ∈ writes parent s children) :
    ∃ c ∈ children, (groupKey? c).isSome ∧ c.key = e.1 := by
  obtain ⟨c, hc, side, position, hanchor, rfl⟩ := exists_placedAlong_of_mem_writes h
  exact ⟨c, hc, by rw [groupKey?, hanchor]; rfl, rfl⟩

theorem distinctKeys_writes (hkeys : (children.map Child.key).Nodup) :
    DistinctKeys (writes parent s children) := by
  rw [distinctKeys_iff_nodup, writes, List.map_flatMap]
  simp only [keys_groupWrites]
  refine List.nodup_flatMap.2 ⟨fun group hgroup => ?_, ?_⟩
  · rw [eq_members_of_mem_gathered hgroup]
    exact hkeys.sublist (List.filter_sublist.map _)
  · -- a child of two groups would have two keys
    refine (gathered children).distinct.imp_of_mem fun {g g'} hg hg' hne => ?_
    intro key (hkey : key ∈ g.2.map Child.key) (hkey' : key ∈ g'.2.map Child.key)
    rw [eq_members_of_mem_gathered hg] at hkey
    rw [eq_members_of_mem_gathered hg'] at hkey'
    obtain ⟨c, hc, rfl⟩ := List.mem_map.1 hkey
    obtain ⟨c', hc', heq⟩ := List.mem_map.1 hkey'
    obtain ⟨hc, hown⟩ := mem_members.1 hc
    obtain ⟨hc', hown'⟩ := mem_members.1 hc'
    obtain rfl : c' = c := List.inj_on_of_nodup_map hkeys hc' hc heq
    exact ne_of_beq_false hne (Option.some.inj (hown.symm.trans hown'))

/-! ## Boxes -/

variable (parent s)

/-- The box of a child after spreading: the one that was written for it, or its own. -/
def spreadBox (children : List (Child α)) (c : Child α) : Rect α :=
  (valueAt? c.key (writes parent s children)).getD c.bounds

/-- A child without a group keeps its box. -/
theorem spreadBox_of_ungrouped (hkeys : (children.map Child.key).Nodup) (hc : c ∈ children)
    (h : groupKey? c = none) : spreadBox parent s children c = c.bounds := by
  have hnone : valueAt? c.key (writes parent s children) = none := by
    refine valueAt?_eq_none fun e he => beq_false_of_ne fun heq => ?_
    obtain ⟨c', hc', hgrouped, hkey⟩ := exists_of_mem_writes he
    obtain rfl : c' = c := List.inj_on_of_nodup_map hkeys hc' hc (hkey.trans heq)
    rw [h] at hgrouped
    cases hgrouped
  rw [spreadBox, hnone]
  rfl

/-- The boxes of a group are its line. -/
theorem map_spreadBox (hkeys : (children.map Child.key).Nodup) (key : GroupKey) :
    (members children key).map (spreadBox parent s children) =
      laidOut parent s key ((members children key).map (·.bounds)) := by
  rw [← List.forall₂_eq_eq_eq, List.forall₂_map_left_iff, List.forall₂_iff_zip]
  refine ⟨?_, fun {c box} hzip => ?_⟩
  · rw [laidOut, ← (forall₂_lineUp _ _ _ _).length_eq, List.length_map]
  · have hgroup := mem_gathered (List.of_mem_zip hzip).1
    have hwritten : (c.key, box) ∈ writes parent s children := by
      refine List.mem_flatMap.2 ⟨_, hgroup, ?_⟩
      rw [groupWrites, List.zip_map_left]
      exact List.mem_map_of_mem hzip
    rw [spreadBox, (valueAt?_eq_some_iff (distinctKeys_writes hkeys)).2 hwritten]
    rfl

/-- A child with a group is moved along its side, and nothing else. -/
theorem exists_spreadBox_eq (hkeys : (children.map Child.key).Nodup) {key : GroupKey}
    (hc : c ∈ members children key) :
    ∃ position, spreadBox parent s children c = c.bounds.placedAlong key.2 position := by
  have hline := forall₂_lineUp key.2 (parent.along key.2)
    (gap (((members children key).map (·.bounds)).map (·.size.along key.2))
      (parent.size.along key.2) s.minSpacing) ((members children key).map (·.bounds))
  rw [← laidOut, ← map_spreadBox parent s hkeys, List.forall₂_map_left_iff,
    List.forall₂_map_right_iff, List.forall₂_same] at hline
  exact hline c hc

/-- Spreading gives every child one box. -/
theorem exists_distribute_entries (hkeys : (children.map Child.key).Nodup) (choice : Choice α) :
    ∃ boxes, (distribute children parent choice).result = .ok boxes ∧
      boxes.entries =
        children.map fun c => (c.key, spreadBox parent choice.settings children c) := by
  have hdistinct : DistinctKeys (children.map fun c => (c.key, c.bounds)) := by
    rw [distinctKeys_iff_nodup, List.map_map]
    exact hkeys
  have hown : (Table.ofList (children.map fun c => (c.key, c.bounds))).entries =
      children.map fun c => (c.key, c.bounds) := Table.entries_ofList hdistinct
  have hownkeys : (Table.ofList (children.map fun c => (c.key, c.bounds))).keys =
      children.map Child.key := by
    rw [Table.keys, hown, List.map_map]
    rfl
  refine ⟨_, result_distribute parent children choice, Table.entries_eq_map ?_ fun c hc => ?_⟩
  · -- every write goes to the key of a child, so no key is added
    refine (Table.keys_insertAll_of_contains fun e he => ?_).trans hownkeys
    obtain ⟨c, hc, -, heq⟩ := exists_of_mem_writes he
    rw [Table.contains_eq_true_iff, hownkeys, ← heq]
    exact List.mem_map_of_mem hc
  · have hfound : (Table.ofList (children.map fun c => (c.key, c.bounds))).get? c.key =
        some c.bounds := by
      rw [Table.get?_eq_some_iff, hown]
      exact List.mem_map_of_mem hc
    have hwrites : DistinctKeys
        ((gathered children).entries.flatMap (groupWrites parent choice.settings)) :=
      distinctKeys_writes hkeys
    rw [Table.get?_insertAll hwrites, hfound, spreadBox, writes]
    cases valueAt? c.key ((gathered children).entries.flatMap
      (groupWrites parent choice.settings)) <;> rfl

end Writes

/-! ## Even spacing -/

/-- **Every group is spaced evenly, and nothing else is touched.** Each child gets one box of its
size. Without a side to be grouped by it keeps its box, and with one its coordinate across that
side. In every group the gap before the first box and between any two neighbours is the same, no two
boxes overlap, and if the smallest gaps fit, the last box ends that gap before the end of the
parent. -/
theorem distribute_evenly (children : List (Child Rat)) (parent : Rect Rat) (choice : Choice Rat)
    (hkeys : (children.map Child.key).Nodup)
    (hsizes : ∀ c ∈ children, 0 ≤ c.bounds.width ∧ 0 ≤ c.bounds.height)
    (hspacing : 0 ≤ choice.settings.minSpacing) :
    ∃ boxes box, (distribute children parent choice).result = .ok boxes ∧
      boxes.entries = children.map (fun c => (c.key, box c)) ∧
      (∀ c ∈ children, (box c).size = c.bounds.size ∧ (anchor? c = none → box c = c.bounds) ∧
        ∀ side, anchor? c = some side → (box c).across side = c.bounds.across side) ∧
      ∀ mode side group spacing,
        group = children.filter (fun c => c.mode = mode ∧ anchor? c = some side) →
        spacing = evenGap parent side choice.settings.minSpacing (group.map (·.bounds)) →
        EvenlySpaced side (parent.along side) spacing (group.map box) ∧
          ((group.map box).Pairwise fun a b => a.collides b = false) ∧
          ((group.map (·.bounds.size.along side)).sum +
              (group.length + 1) * choice.settings.minSpacing ≤ parent.size.along side →
            ∀ last ∈ (group.map box).getLast?,
              parent.alongEnd side - last.alongEnd side = spacing) := by
  obtain ⟨boxes, hresult, hentries⟩ := exists_distribute_entries parent hkeys choice
  refine ⟨boxes, _, hresult, hentries, fun c hc => ?_, ?_⟩
  · cases hanchor : anchor? c with
    | none =>
      have hown := spreadBox_of_ungrouped parent choice.settings hkeys hc
        (by rw [groupKey?, hanchor]; rfl)
      exact ⟨by rw [hown], fun _ => hown, nofun⟩
    | some side =>
      have hmember : c ∈ members children (c.mode, side) :=
        mem_members.2 ⟨hc, groupKey?_eq_some_iff.2 ⟨rfl, hanchor⟩⟩
      obtain ⟨position, hbox⟩ :=
        exists_spreadBox_eq parent choice.settings hkeys hmember
      refine ⟨by rw [hbox, Rect.size_placedAlong], nofun, fun side' hside => ?_⟩
      obtain rfl := Option.some.inj hside
      rw [hbox, Rect.across_placedAlong]
  · rintro mode side group spacing hgroup rfl
    obtain rfl : group = members children (mode, side) := by
      rw [hgroup]
      exact List.filter_congr fun c _ => decide_eq_decide.2 groupKey?_eq_some_iff.symm
    have hline : (members children (mode, side)).map (spreadBox parent choice.settings children) =
        lineUp side (parent.along side) (evenGap parent side choice.settings.minSpacing
          ((members children (mode, side)).map (·.bounds)))
          ((members children (mode, side)).map (·.bounds)) := by
      rw [map_spreadBox parent choice.settings hkeys, laidOut, gap_boxes]
    have hgap : 0 ≤ evenGap parent side choice.settings.minSpacing
        ((members children (mode, side)).map (·.bounds)) := hspacing.trans (le_max_left _ _)
    have hlengths : ∀ r ∈ (members children (mode, side)).map (·.bounds),
        0 ≤ r.size.along side := by
      refine List.forall_mem_map.2 fun c hc => ?_
      obtain ⟨hwidth, hheight⟩ := hsizes c (mem_members.1 hc).1
      cases side with
      | left | right => exact hheight
      | top | bottom => exact hwidth
    rw [hline]
    refine ⟨evenlySpaced_lineUp _ _ _ _, pairwise_lineUp hgap hlengths, fun hfits => ?_⟩
    refine end_lineUp_evenGap ?_
    rw [List.length_map, List.map_map]
    exact hfits

/-! ## An example -/

/-- A child with a location and a size. -/
def sibling (name : String) (mode : Placement) (location : Location) (size : Size Rat) :
    Child Rat :=
  let bounds := ⟨5, 5, size.width, size.height⟩
  { name, mode, pattern := "box", location := some location, bounds, initial := bounds
    pins := .ofLocation location, draggable := true, attachment := none }

def pinnedLeft : Location := { Location.free with left := some .zero }

def aboveParent : Location := { Location.free with top := some (.exactly 2) }

/-- Three children at the left inside their parent, two above it, and one that is free. -/
def siblings : List (Child Rat) :=
  [sibling "a" .inner pinnedLeft ⟨30, 20⟩, sibling "a" .outer aboveParent ⟨60, 20⟩,
    sibling "b" .inner pinnedLeft ⟨30, 40⟩, sibling "free" .inner .free ⟨30, 30⟩,
    sibling "b" .outer aboveParent ⟨90, 20⟩, sibling "c" .inner pinnedLeft ⟨30, 10⟩]

theorem distribute_evenly_siblings :
    (siblings.map Child.key).Nodup ∧
      (∀ c ∈ siblings, 0 ≤ c.bounds.width ∧ 0 ≤ c.bounds.height) ∧
      (0 : Rat) ≤ Settings.standard.minSpacing ∧
      ∃ boxes box, (distribute siblings ⟨50, 40, 300, 200⟩ (.given .standard)).result = .ok boxes ∧
        boxes.entries = siblings.map (fun c => (c.key, box c)) ∧
        box (sibling "free" .inner .free ⟨30, 30⟩) = ⟨5, 5, 30, 30⟩ ∧
        EvenlySpaced .left 40 (65 / 2) ([sibling "a" .inner pinnedLeft ⟨30, 20⟩,
          sibling "b" .inner pinnedLeft ⟨30, 40⟩, sibling "c" .inner pinnedLeft ⟨30, 10⟩].map box) ∧
        EvenlySpaced .top 50 50 ([sibling "a" .outer aboveParent ⟨60, 20⟩,
          sibling "b" .outer aboveParent ⟨90, 20⟩].map box) := by
  have hkeys : (siblings.map Child.key).Nodup := by decide
  have hsizes : ∀ c ∈ siblings, 0 ≤ c.bounds.width ∧ 0 ≤ c.bounds.height := by decide +kernel
  have hspacing : (0 : Rat) ≤ Settings.standard.minSpacing := by decide +kernel
  obtain ⟨boxes, box, hresult, hentries, hall, hgroups⟩ :=
    distribute_evenly siblings ⟨50, 40, 300, 200⟩ (.given .standard) hkeys hsizes hspacing
  refine ⟨hkeys, hsizes, hspacing, boxes, box, hresult, hentries, ?_, ?_, ?_⟩
  · exact (hall _ (by decide +kernel)).2.1 rfl
  · exact (hgroups .inner .left _ _ (by decide +kernel) (by decide +kernel)).1
  · exact (hgroups .outer .top _ _ (by decide +kernel) (by decide +kernel)).1

end LayoutGrammar.Layout
