import LayoutGrammar.Proofs.Edit.Ancestry

/-!
# Edits keep a dictionary valid

A dictionary is valid if its extends graph is a `Graph.Dag` and it is `Closed`: everything that is
extended has a pattern (`validate_eq_ok_iff_closed`). In a closed dictionary no edit can fuse two
places, because nothing points at an id without a pattern; so the only edit that can do harm is
removal, which leaves targets without a pattern. `validate_of_edits` is the summary.
-/

namespace LayoutGrammar

open Extends Extends.Graph Logged Relation

namespace Dictionary

/-- Every target of an extends edge has a pattern. -/
def Closed (d : Dictionary) : Prop :=
  ∀ source target, (ofDictionary d).Edge source target → d.contains target = true

theorem validate_eq_ok_iff_closed {d : Dictionary} :
    validate d = .ok () ↔ d.Closed ∧ (ofDictionary d).Dag := by
  constructor
  · intro h
    refine ⟨fun source target hedge => ?_, dag_of_validate h⟩
    obtain ⟨p, hp, hmem⟩ := edge_ofDictionary_iff.1 hedge
    have hcheck := (validate_eq_ok_iff.1 h).1 _ (Table.get?_eq_some_iff.1 hp)
    exact ((checkTargets_eq_ok_iff.1 hcheck).1 target hmem).2.1
  · rintro ⟨hclosed, hdag⟩
    refine validate_eq_ok_iff.2 ⟨fun e he => ?_, hdag.acyclic⟩
    have hp : d.get? e.1 = some e.2 := Table.get?_eq_some_iff.2 he
    have hedge : ∀ target ∈ e.2.parents, (ofDictionary d).Edge e.1 target :=
      fun target hmem => edge_ofDictionary_iff.2 ⟨e.2, hp, hmem⟩
    refine checkTargets_eq_ok_iff.2 ⟨fun target hmem => ⟨?_, ?_, List.not_mem_nil⟩, ?_⟩
    · intro heq
      subst heq
      exact hdag.loopless _ (hedge _ hmem)
    · exact hclosed _ _ (hedge _ hmem)
    · have hnodup := hdag.nodup e.1
      rwa [targets_ofDictionary hp] at hnodup

/-- Fewer edges and more patterns: closed as before. -/
theorem Closed.mono {d d' : Dictionary} (h : d.Closed)
    (hedge : ∀ a b, (ofDictionary d').Edge a b → (ofDictionary d).Edge a b)
    (hkeep : ∀ id, d.contains id = true → d'.contains id = true) : d'.Closed :=
  fun a b hab => hkeep b (h a b (hedge a b hab))

theorem Closed.renamed {d : Dictionary} (h : d.Closed) {old new : String}
    (hnew : d.contains new = false) : (d.renamed old new).Closed := by
  intro a b hab
  obtain ⟨a', b', hab', rfl, rfl⟩ := (edge_renamed_iff hnew).1 hab
  obtain ⟨p, hp⟩ := Option.isSome_iff_exists.1 (h a' b' hab')
  exact Table.contains_of_get? ((get?_renamed_iff hnew).2 ⟨b', p, hp, rfl, rfl⟩)

end Dictionary

namespace Edit

/-- The edit that takes a pattern away. -/
def Removes : Edit → Prop
  | .remove _ => True
  | _ => False

/-- Renaming and removal apart, an edit writes one pattern. -/
theorem exists_insert_of_apply {d d' : Dictionary} {e : Edit} (h : (e.apply d).result = .ok d')
    (hremove : ¬ e.Removes) (hrename : ∀ old raw, e ≠ .rename old raw) :
    ∃ id p, d' = d.insert id p := by
  have hkept : ∀ id, e ≠ .remove id := by
    rintro id rfl
    exact hremove trivial
  rcases written_of_apply h hrename hkept with ⟨id, kind, hd⟩ | ⟨id, p, p', -, -, hd⟩
  · exact ⟨id, _, hd⟩
  · exact ⟨id, p', hd⟩

theorem closed_of_apply {d d' : Dictionary} {e : Edit} (hclosed : d.Closed)
    (h : (e.apply d).result = .ok d') (hremove : ¬ e.Removes) : d'.Closed := by
  by_cases hrename : ∃ old raw, e = .rename old raw
  · obtain ⟨old, raw, rfl⟩ := hrename
    obtain ⟨-, new, -, hcase⟩ := Dictionary.result_rename_iff.1 h
    rcases hcase with ⟨-, rfl⟩ | ⟨-, hnew, rfl⟩
    · exact hclosed
    · exact hclosed.renamed hnew
  · have hwrite := exists_insert_of_apply h hremove fun old raw heq => hrename ⟨old, raw, heq⟩
    have hkeep : ∀ id, d.contains id = true → d'.contains id = true := by
      obtain ⟨id₀, p, rfl⟩ := hwrite
      intro id hid
      rw [Table.contains_insert, hid, Bool.or_true]
    by_cases hprunes : e.Prunes
    · refine hclosed.mono (fun a b hab => ?_) hkeep
      exact (targets_sublist_of_prunes h hprunes a).subset hab
    · cases e with
      | rename old raw => exact absurd ⟨old, raw, rfl⟩ hrename
      | addParent id target =>
        obtain ⟨hcheck, p, hp, hd⟩ := Dictionary.result_addParent_iff.1 h
        obtain ⟨-, htarget, -, -⟩ := checkEdge_eq_ok_iff.1 hcheck
        intro a b hab
        rw [hd, ofDictionary_addParent hp] at hab
        rcases edge_addEdge_iff.1 hab with hab | ⟨-, rfl⟩
        · exact hkeep b (hclosed a b hab)
        · exact hkeep b htarget
      | _ => exact absurd trivial hprunes

/-- Where everything that is extended has a pattern, an id without one cannot be fused with. -/
theorem not_fuses_of_closed {d : Dictionary} (hclosed : d.Closed) (e : Edit) : ¬ e.Fuses d := by
  intro hfuses
  cases e with
  | rename old raw =>
    obtain ⟨-, new, -, -, hnew, hlead⟩ := hfuses
    have hedge : ∃ a, (ofDictionary d).Edge a new := by
      rcases hlead with hreach | ⟨id, -, hedge⟩
      · obtain ⟨a, -, hedge⟩ := TransGen.tail'_iff.1 hreach
        exact ⟨a, hedge⟩
      · exact ⟨id, hedge⟩
    obtain ⟨a, hedge⟩ := hedge
    have hthere := hclosed a new hedge
    rw [hnew] at hthere
    cases hthere
  | _ => cases hfuses

theorem validate_of_apply {d d' : Dictionary} {e : Edit} (hd : validate d = .ok ())
    (h : (e.apply d).result = .ok d') (hremove : ¬ e.Removes) : validate d' = .ok () := by
  obtain ⟨hclosed, hdag⟩ := Dictionary.validate_eq_ok_iff_closed.1 hd
  have hclosed' := closed_of_apply hclosed h hremove
  have hdag' := (dag_of_apply hdag h).2 (not_fuses_of_closed hclosed e)
  exact Dictionary.validate_eq_ok_iff_closed.2 ⟨hclosed', hdag'⟩

theorem validate_applyAll {d : Dictionary} (hd : validate d = .ok ()) {edits : List Edit}
    (hkeep : ∀ e ∈ edits, ¬ e.Removes) : validate (applyAll d edits) = .ok () := by
  refine List.foldlRecOn (motive := fun d => validate d = .ok ()) edits _ hd fun d hd e he => ?_
  unfold applyOrKeep
  split
  · next h => exact validate_of_apply hd h (hkeep e he)
  · exact hd

end Edit

/-! ## Removal -/

namespace Dictionary

/-- What is left to complain about when one id has lost its pattern. -/
theorem checkTargets_of_missing {d : Dictionary} {gone owner : String}
    (hgone : d.contains gone = false) {seen targets : List String}
    (h : ∀ target ∈ targets, target ≠ owner ∧ target ∉ seen ∧
      (target ≠ gone → d.contains target = true)) (hnodup : targets.Nodup) :
    checkTargets d owner seen targets =
      if gone ∈ targets then .error (.unknownTarget owner gone) else .ok () := by
  induction targets generalizing seen with
  | nil => rfl
  | cons target rest ih =>
    obtain ⟨hnew, hnodup⟩ := List.nodup_cons.1 hnodup
    obtain ⟨hself, hseen, hthere⟩ := h target List.mem_cons_self
    rw [checkTargets, if_neg hself, if_neg hseen]
    by_cases heq : target = gone
    · subst heq
      rw [if_pos List.mem_cons_self, hgone]
      rfl
    · have hrest := @ih (target :: seen) (fun t ht => ?_) hnodup
      · rw [hthere heq, hrest]
        simp only [List.mem_cons, Ne.symm heq, false_or]
        rfl
      · obtain ⟨hself', hseen', hthere'⟩ := h t (List.mem_cons_of_mem _ ht)
        refine ⟨hself', ?_, hthere'⟩
        intro hmem
        rcases List.mem_cons.1 hmem with rfl | hmem
        · exact hnew ht
        · exact hseen' hmem

/-- A valid dictionary without one pattern is refused for the first pattern that extends it. -/
theorem validate_erase {d : Dictionary} (hd : validate d = .ok ()) (id : String) :
    validate (d.erase id) =
      ((d.erase id).entries.find? fun e => id ∈ e.2.parents).elim (.ok ())
        fun e => .error (.unknownTarget e.1 id) := by
  obtain ⟨htargets, -⟩ := validate_eq_ok_iff.1 hd
  have hgone : (d.erase id).contains id = false := by
    rw [Table.contains_erase, beq_self_eq_true]
    rfl
  have hchecks : ∀ e ∈ (d.erase id).entries,
      checkTargets (d.erase id) e.1 [] e.2.parents =
        if decide (id ∈ e.2.parents) then .error (.unknownTarget e.1 id) else .ok () := by
    intro e he
    obtain ⟨hparents, hnodup⟩ := checkTargets_eq_ok_iff.1 (htargets e (mem_dropEntry he))
    simp only [decide_eq_true_eq]
    refine checkTargets_of_missing hgone (fun target hmem => ?_) hnodup
    obtain ⟨hself, hthere, hseen⟩ := hparents target hmem
    refine ⟨hself, hseen, fun hne => ?_⟩
    rw [Table.contains_erase, hthere, beq_false_of_ne (Ne.symm hne)]
    rfl
  have hdag : (ofDictionary (d.erase id)).Dag :=
    (dag_of_validate hd).of_sublist (Edit.targets_erase_sublist d id)
  rw [validate_eq, forM_eq_find? hchecks, cycle?_eq_none_iff.2 hdag.acyclic]
  cases (d.erase id).entries.find? fun e => decide (id ∈ e.2.parents) with
  | none => rfl
  | some e => rfl

/-- After removal, exactly the patterns that extended the removed one are in the way. -/
theorem validate_remove {d d' : Dictionary} (hd : validate d = .ok ()) {id : String}
    (h : (d.remove id).result = .ok d') :
    (validate d' ≠ .ok () ↔ ∃ owner p, d'.get? owner = some p ∧ id ∈ p.parents) ∧
      ∀ cause, validate d' = .error cause → ∃ owner p, d'.get? owner = some p ∧ id ∈ p.parents ∧
        cause = .unknownTarget owner id := by
  obtain ⟨-, rfl⟩ := result_remove_iff.1 h
  rw [validate_erase hd id]
  cases hfind : (d.erase id).entries.find? fun e => decide (id ∈ e.2.parents) with
  | none =>
    refine ⟨⟨fun hne => absurd rfl hne, ?_⟩, fun cause hcause => nomatch hcause⟩
    rintro ⟨owner, p, hp, hmem⟩
    have hnone := List.find?_eq_none.1 hfind (owner, p) (Table.get?_eq_some_iff.1 hp)
    exact absurd (decide_eq_true hmem) hnone
  | some e =>
    have hbad := List.find?_some hfind
    have hmem : id ∈ e.2.parents := of_decide_eq_true hbad
    have hp : (d.erase id).get? e.1 = some e.2 :=
      Table.get?_eq_some_iff.2 (List.mem_of_find?_eq_some hfind)
    refine ⟨⟨fun _ => ⟨e.1, e.2, hp, hmem⟩, fun _ heq => nomatch heq⟩, fun cause hcause => ?_⟩
    exact ⟨e.1, e.2, hp, hmem, (Except.error.inj hcause).symm⟩

end Dictionary

/-- **Edits keep a valid dictionary valid.** Every edit but a removal does so when it succeeds, and
so does every run of such edits. After a removal the dictionary is refused exactly if some pattern
that is left extends the removed one, and then for that reason. -/
theorem validate_of_edits {d : Dictionary} (hd : validate d = .ok ()) :
    (∀ (e : Edit) (d' : Dictionary), ¬ e.Removes → (e.apply d).result = .ok d' →
      validate d' = .ok ()) ∧
    (∀ edits : List Edit, (∀ e ∈ edits, ¬ e.Removes) → validate (Edit.applyAll d edits) = .ok ()) ∧
    ∀ (id : String) (d' : Dictionary), ((Edit.remove id).apply d).result = .ok d' →
      (validate d' ≠ .ok () ↔ ∃ owner p, d'.get? owner = some p ∧ id ∈ p.parents) ∧
        ∀ cause, validate d' = .error cause → ∃ owner p, d'.get? owner = some p ∧
          id ∈ p.parents ∧ cause = .unknownTarget owner id := by
  refine ⟨fun e d' hkeep h => ?_, fun edits hkeep => ?_, fun id d' h => ?_⟩
  · exact Edit.validate_of_apply hd h hkeep
  · exact Edit.validate_applyAll hd hkeep
  · exact Dictionary.validate_remove hd h

/-- Adds a third layer, renames the lowest one and tries to close a cycle. -/
def thirdLayer : List Edit :=
  [.create (some (.str "roof")) .null, .addParent "roof" "top", .rename "base" (.str "ground"),
    .addParent "ground" "roof"]

theorem validate_of_edits_twoLayers :
    validate twoLayers = .ok () ∧ validate (Edit.applyAll twoLayers thirdLayer) = .ok () ∧
      ∃ owner p, (twoLayers.erase "base").get? owner = some p ∧ "base" ∈ p.parents ∧
        validate (twoLayers.erase "base") = .error (.unknownTarget owner "base") := by
  obtain ⟨-, hrun, hremoval⟩ := validate_of_edits validate_twoLayers
  have hkeep : ∀ e ∈ thirdLayer, ¬ e.Removes := by
    simp [thirdLayer, Edit.Removes]
  have hremove : ((Edit.remove "base").apply twoLayers).result = .ok (twoLayers.erase "base") := rfl
  have hcause : validate (twoLayers.erase "base") = .error (.unknownTarget "top" "base") := rfl
  obtain ⟨owner, p, hp, hmem, heq⟩ := (hremoval "base" _ hremove).2 _ hcause
  exact ⟨validate_twoLayers, hrun thirdLayer hkeep, owner, p, hp, hmem, heq ▸ hcause⟩

end LayoutGrammar
