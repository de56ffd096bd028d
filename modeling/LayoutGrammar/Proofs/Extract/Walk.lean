import LayoutGrammar.Proofs.Extract.Reading

/-!
# What a walk leaves behind

A walk only ever adds: what the dictionary held before stays (`get?_of_enter`), and a map that was
entered stands under its id with the pattern that it reads as (`get?_self_of_enter`). Hence what
holds of the blank pattern and of every pattern that is read holds of every pattern of an extracted
dictionary (`forall_of_run`), and every entry at the top is found in it
(`get?_of_foldlM_enterTop`).
-/

namespace LayoutGrammar.Extract

open Logged

section Source

variable {ν : Type} {source : Source ν}

/-- A pattern that some map reads as. -/
def Reads (source : Source ν) (data : ν) (p : Pattern) : Prop :=
  ∃ parents, ownParents source data = .ok parents ∧ p = { ownFields source data with parents }

/-- The definitions within a map are entered one level deeper, below the map itself. -/
def enterBelow (source : Source ν) (depth : Nat) (trail : List (String × ν)) (d : Dictionary)
    (child : String × ν) : Except Error Dictionary :=
  (enter source depth trail child.1 (.node child.2) d).result

/-- One step of the walk: the checks, the definitions within, then the pattern itself. -/
theorem result_enter_node (depth : Nat) (trail : List (String × ν)) (id : String) (data : ν)
    (d : Dictionary) :
    (enter source (depth + 1) trail id (.node data) d).result =
      if trail.any (source.same data ·.2) then
        .error (.recursiveDefinition (trail.map (·.1) ++ [id]))
      else if d.contains id then .error (.duplicatePattern id)
      else
        (definedBy source data).foldlM (enterBelow source depth (trail ++ [(id, data)]))
            (d.insert id .blank) >>= fun d' =>
          ownParents source data >>= fun parents =>
            .ok (d'.insert id { ownFields source data with parents }) := by
  rw [enter]
  split
  · rfl
  · split
    · rfl
    · rw [result_bind, result_readPattern, bind_assoc]
      refine bind_congr fun d' => ?_
      rw [bind_assoc]
      rfl

/-- What a successful step has passed and what it leaves. -/
theorem of_enter_node {depth : Nat} {trail : List (String × ν)} {id : String} {data : ν}
    {d d' : Dictionary} (h : (enter source (depth + 1) trail id (.node data) d).result = .ok d') :
    d.contains id = false ∧ ∃ within p, Reads source data p ∧
      (definedBy source data).foldlM (enterBelow source depth (trail ++ [(id, data)]))
        (d.insert id .blank) = .ok within ∧ d' = within.insert id p := by
  rw [result_enter_node] at h
  split at h
  · cases h
  · split at h
    · cases h
    · next hnew =>
      obtain ⟨within, hwithin, h⟩ := except_bind_ok.1 h
      obtain ⟨parents, hparents, h⟩ := except_bind_ok.1 h
      refine ⟨Bool.eq_false_iff.2 hnew, within, _, ⟨parents, hparents, rfl⟩, hwithin, ?_⟩
      exact (Except.ok.inj h).symm

/-- Entering a map leaves what was there. -/
theorem get?_of_enter {depth : Nat} {trail : List (String × ν)} {id : String} {slot : Slot ν}
    {d d' : Dictionary} {k : String} {p : Pattern}
    (h : (enter source depth trail id slot d).result = .ok d') (hk : d.get? k = some p) :
    d'.get? k = some p := by
  induction depth generalizing trail id slot d d' with
  | zero => rwa [← Except.ok.inj h]
  | succ depth ih =>
    cases slot with
    | leaf v => rwa [← Except.ok.inj h]
    | row n => rwa [← Except.ok.inj h]
    | node data =>
      obtain ⟨hnew, within, q, -, hwithin, rfl⟩ := of_enter_node h
      have hne : id ≠ k := by
        rintro rfl
        rw [Table.contains_of_get? hk] at hnew
        cases hnew
      rw [Table.get?_insert_of_ne hne]
      refine foldlM_invariant (I := fun d => d.get? k = some p) ?_ hwithin ?_
      · exact fun child _ s s' hs hstep => ih hstep hs
      · rwa [Table.get?_insert_of_ne hne]

/-- A map that was entered stands under its id as it reads. -/
theorem get?_self_of_enter {depth : Nat} {trail : List (String × ν)} {id : String} {data : ν}
    {d d' : Dictionary} (h : (enter source (depth + 1) trail id (.node data) d).result = .ok d') :
    ∃ p, Reads source data p ∧ d'.get? id = some p := by
  obtain ⟨-, within, p, hp, -, rfl⟩ := of_enter_node h
  exact ⟨p, hp, Table.get?_insert_self within id p⟩

/-- A table in which a value was written holds nothing new but that value. -/
theorem forall_of_insert {Q : Pattern → Prop} {d : Dictionary} {id : String} {p : Pattern}
    (hp : Q p) (hd : ∀ e ∈ d.entries, Q e.2) : ∀ e ∈ (d.insert id p).entries, Q e.2 := by
  intro e he
  rcases mem_putEntry he with he | ⟨he, -⟩
  · exact hd e he
  · rwa [he]

/-- What holds of the blank pattern and of all patterns that are read stays true of a whole
dictionary. -/
theorem forall_of_enter {Q : Pattern → Prop} (hblank : Q .blank)
    (hreads : ∀ data p, Reads source data p → Q p) {depth : Nat} {trail : List (String × ν)}
    {id : String} {slot : Slot ν} {d d' : Dictionary}
    (h : (enter source depth trail id slot d).result = .ok d') (hd : ∀ e ∈ d.entries, Q e.2) :
    ∀ e ∈ d'.entries, Q e.2 := by
  induction depth generalizing trail id slot d d' with
  | zero => rwa [← Except.ok.inj h]
  | succ depth ih =>
    cases slot with
    | leaf v => rwa [← Except.ok.inj h]
    | row n => rwa [← Except.ok.inj h]
    | node data =>
      obtain ⟨-, within, p, hp, hwithin, rfl⟩ := of_enter_node h
      refine forall_of_insert (hreads data p hp) ?_
      refine foldlM_invariant (I := fun d => ∀ e ∈ d.entries, Q e.2) ?_ hwithin ?_
      · exact fun child _ s s' hs hstep => ih hstep hs
      · exact forall_of_insert hblank hd

/-! ## Whole trees -/

/-- Enters one entry of the top. -/
def enterTop (source : Source ν) (depth : Nat) (d : Dictionary) (entry : Value × Slot ν) :
    Except Error Dictionary :=
  (enter source depth [] entry.1.text entry.2 d).result

theorem result_run (depth : Nat) (root : Slot ν) :
    (run source depth root).result =
      topEntries source root >>= fun entries => entries.foldlM (enterTop source depth) ∅ := by
  unfold run
  simp only [result_bind, result_ofExcept, result_foldlM, result_say, result_pure, ok_bind]
  refine bind_congr fun entries => ?_
  exact bind_pure _

theorem forall_of_run {Q : Pattern → Prop} (hblank : Q .blank)
    (hreads : ∀ data p, Reads source data p → Q p) {depth : Nat} {root : Slot ν} {d : Dictionary}
    (h : (run source depth root).result = .ok d) : ∀ e ∈ d.entries, Q e.2 := by
  rw [result_run] at h
  obtain ⟨entries, -, h⟩ := except_bind_ok.1 h
  refine foldlM_invariant (I := fun d => ∀ e ∈ d.entries, Q e.2) ?_ h ?_
  · exact fun entry _ s s' hs hstep => forall_of_enter hblank hreads hstep hs
  · exact fun e he => nomatch he

/-- Every map at the top is found under its key as it reads. -/
theorem get?_of_foldlM_enterTop {depth : Nat} {entries : List (Value × Slot ν)} {d d' : Dictionary}
    (h : entries.foldlM (enterTop source (depth + 1)) d = .ok d') {key : Value} {data : ν}
    (hmem : (key, .node data) ∈ entries) :
    ∃ p, Reads source data p ∧ d'.get? key.text = some p := by
  obtain ⟨before, after, rfl⟩ := List.append_of_mem hmem
  rw [List.foldlM_append] at h
  obtain ⟨d₁, -, h⟩ := except_bind_ok.1 h
  rw [List.foldlM_cons] at h
  obtain ⟨d₂, h₂, h⟩ := except_bind_ok.1 h
  obtain ⟨p, hp, hget⟩ := get?_self_of_enter h₂
  refine ⟨p, hp, ?_⟩
  refine foldlM_invariant (I := fun d => d.get? key.text = some p) ?_ h hget
  exact fun entry _ s s' hs hstep => get?_of_enter hstep hs

end Source

end LayoutGrammar.Extract
