import LayoutGrammar.Pattern.Extract
import LayoutGrammar.Proofs.Edit.Renamed
import LayoutGrammar.Proofs.Pattern

/-!
# Edits and the extends graph

Every edit but one kind keeps the extends graph a `Graph.Dag`: edges are only left out, or added
where `checkEdge` finds no path back. The exception is renaming a pattern to an id that others still
point at although its pattern is gone: it `Fuses` two places of the graph, and the graph then is no
`Graph.Dag` any more (`dag_applyOrKeep_iff`). Over whole sessions, the graph is a `Graph.Dag` all
the time exactly if no edit is of that kind (`dag_session_iff`).
-/

namespace LayoutGrammar

open Extends Extends.Graph Logged Relation

namespace Edit

/-! ## Edits that leave edges out -/

theorem parents_updateField {p p' : Pattern} {field : String × Value}
    (h : Dictionary.updateField p field = .ok p') : p'.parents = p.parents := by
  unfold Dictionary.updateField at h
  split at h
  · rw [← Except.ok.inj h]
  split at h
  · rw [← Except.ok.inj h]
  split at h
  · cases h
  split at h
  · rw [← Except.ok.inj h]
  · rw [← Except.ok.inj h]

/-- A pattern written in place of one that has more parents leaves edges out. -/
theorem targets_insert_sublist {d : Dictionary} {id : String} {p p' : Pattern}
    (hp : d.get? id = some p) (hsub : p'.parents.Sublist p.parents) (place : String) :
    ((ofDictionary (d.insert id p')).targets place).Sublist ((ofDictionary d).targets place) := by
  rw [ofDictionary, Table.mapValues_insert, targets_insert]
  split
  · next heq =>
    subst heq
    rwa [← targets_ofDictionary hp] at hsub
  · exact List.Sublist.refl _

theorem targets_erase_sublist (d : Dictionary) (id place : String) :
    ((ofDictionary (d.erase id)).targets place).Sublist ((ofDictionary d).targets place) := by
  rw [targets, targets, ofDictionary, ofDictionary, Table.get?_mapValues, Table.get?_mapValues,
    Table.get?_erase]
  split
  · exact List.nil_sublist _
  · exact List.Sublist.refl _

/-- Renaming and adding parents apart, edits leave edges out. -/
def Prunes : Edit → Prop
  | .rename .. | .addParent .. => False
  | _ => True

theorem targets_sublist_of_prunes {d d' : Dictionary} {e : Edit} (h : (e.apply d).result = .ok d')
    (he : e.Prunes) (place : String) :
    ((ofDictionary d').targets place).Sublist ((ofDictionary d).targets place) := by
  have hrename : ∀ old raw, e ≠ .rename old raw := by
    rintro old raw rfl
    exact he
  by_cases hremove : ∃ id, e = .remove id
  · obtain ⟨id, rfl⟩ := hremove
    obtain ⟨-, rfl⟩ := Dictionary.result_remove_iff.1 h
    exact targets_erase_sublist d id place
  rcases written_of_apply h hrename (fun id heq => hremove ⟨id, heq⟩) with
    ⟨id, kind, rfl⟩ | ⟨id, p, p', hp, hchanges, rfl⟩
  · rw [ofDictionary, Table.mapValues_insert, targets_insert]
    split
    · exact List.nil_sublist _
    · exact List.Sublist.refl _
  · refine targets_insert_sublist hp ?_ place
    cases hchanges with
    | fields hfields =>
      have hparents : p'.parents = p.parents := foldlM_invariant
        (I := fun q => q.parents = p.parents)
        (fun _ _ q q' hq hstep => (parents_updateField hstep).trans hq) hfields rfl
      rw [hparents]
    | item => exact List.Sublist.refl p.parents
    | components placement f => rw [Pattern.parents_mapComponents]
    | extend => cases he
    | unextend => exact List.erase_sublist

/-! ## Edits that add or move edges -/

/-- An edge that passes the check keeps the graph in order. -/
theorem dag_addParent {d d' : Dictionary} {id target : String} (h : (ofDictionary d).Dag)
    (hresult : (d.addParent id target).result = .ok d') : (ofDictionary d').Dag := by
  obtain ⟨hedge, p, hp, rfl⟩ := Dictionary.result_addParent_iff.1 hresult
  obtain ⟨-, -, hnew, hback⟩ := checkEdge_eq_ok_iff.1 hedge
  rw [ofDictionary_addParent hp]
  refine dag_iff.2 ⟨(acyclic_addEdge_iff h.acyclic).2 hback, fun place => ?_⟩
  rw [addEdge, targets_insert]
  split
  · refine List.nodup_append.2 ⟨h.nodup id, List.nodup_singleton _, ?_⟩
    rintro a ha b hb rfl
    exact hnew (List.mem_singleton.1 hb ▸ ha)
  · exact h.nodup place

/-- Renaming makes one place of two: the new id has no pattern, but the old one leads to it or is
extended along with it. -/
def Fuses (d : Dictionary) : Edit → Prop
  | .rename old raw => d.contains old = true ∧ ∃ new, patternName raw = .ok new ∧ new ≠ old ∧
      d.contains new = false ∧ (TransGen (ofDictionary d).Edge old new ∨
        ∃ id, (ofDictionary d).Edge id old ∧ (ofDictionary d).Edge id new)
  | _ => False

/-- After renaming, a target repeats exactly if some pattern extended both ids. -/
theorem nodup_renamed_iff {d : Dictionary} {old new : String}
    (h : ∀ place, ((ofDictionary d).targets place).Nodup) (hne : new ≠ old)
    (hnew : d.contains new = false) :
    (∀ place, ((ofDictionary (d.renamed old new)).targets place).Nodup) ↔
      ¬ ∃ id, (ofDictionary d).Edge id old ∧ (ofDictionary d).Edge id new := by
  constructor
  · rintro hnodup ⟨id, hold, hedge⟩
    obtain ⟨p, hp, holdmem⟩ := edge_ofDictionary_iff.1 hold
    have hrenamed := (@Dictionary.get?_renamed_iff d old new hnew _ _).2 ⟨id, p, hp, rfl, rfl⟩
    have hmap := hnodup (Dictionary.substitute old new id)
    rw [targets_ofDictionary hrenamed] at hmap
    have hparents := h id
    rw [targets_ofDictionary hp] at hparents
    rw [Edge, targets_ofDictionary hp] at hedge
    exact (Dictionary.nodup_map_substitute_iff hparents hne).1 hmap ⟨holdmem, hedge⟩
  · intro hboth place
    cases hplace : (d.renamed old new).get? place with
    | none =>
      rw [targets_ofDictionary_of_none hplace]
      exact List.nodup_nil
    | some p =>
      obtain ⟨id, p', hp', rfl, rfl⟩ := (Dictionary.get?_renamed_iff hnew).1 hplace
      have hparents := h id
      rw [targets_ofDictionary hp'] at hparents
      rw [targets_ofDictionary hplace]
      refine (Dictionary.nodup_map_substitute_iff hparents hne).2 fun hmem => hboth ⟨id, ?_, ?_⟩
      · exact edge_ofDictionary_iff.2 ⟨p', hp', hmem.1⟩
      · exact edge_ofDictionary_iff.2 ⟨p', hp', hmem.2⟩

/-! ## Single edits and sessions -/

theorem dag_of_apply {d d' : Dictionary} {e : Edit} (h : (ofDictionary d).Dag)
    (hresult : (e.apply d).result = .ok d') : (ofDictionary d').Dag ↔ ¬ e.Fuses d := by
  cases e with
  | rename old raw =>
    obtain ⟨hold, new, hname, hcase⟩ := Dictionary.result_rename_iff.1 hresult
    rcases hcase with ⟨rfl, rfl⟩ | ⟨hne, hnew, rfl⟩
    · refine ⟨fun _ => ?_, fun _ => h⟩
      rintro ⟨-, new', hname', hne', -⟩
      rw [hname] at hname'
      exact hne' (Except.ok.inj hname').symm
    · rw [dag_iff, Dictionary.acyclic_renamed_iff h.acyclic hne hnew,
        nodup_renamed_iff h.nodup hne hnew, ← not_or]
      refine not_congr ⟨fun hfused => ⟨hold, new, hname, hne, hnew, hfused⟩, ?_⟩
      rintro ⟨-, new', hname', -, -, hfused⟩
      rw [hname] at hname'
      rwa [Except.ok.inj hname']
  | addParent id target => exact ⟨fun _ => not_false, fun _ => dag_addParent h hresult⟩
  | _ =>
    refine ⟨fun _ => not_false, fun _ => h.of_sublist (targets_sublist_of_prunes hresult ?_)⟩
    trivial

/-- An edit that fuses two places is carried out. -/
theorem Fuses.isOk {d : Dictionary} {e : Edit} (h : e.Fuses d) :
    ∃ d', (e.apply d).result = .ok d' := by
  cases e with
  | rename old raw =>
    obtain ⟨hold, new, hname, hne, hnew, -⟩ := h
    exact ⟨_, Dictionary.result_rename_iff.2 ⟨hold, new, hname, .inr ⟨hne, hnew, rfl⟩⟩⟩
  | _ => cases h

/-- One edit keeps the graph in order exactly if it does not fuse two places. -/
theorem dag_applyOrKeep_iff {d : Dictionary} (h : (ofDictionary d).Dag) (e : Edit) :
    (ofDictionary (e.applyOrKeep d)).Dag ↔ ¬ e.Fuses d :=
  applyOrKeep_iff (I := fun d => (ofDictionary d).Dag) h Fuses.isOk fun _ => dag_of_apply h

/-- The graph stays in order along a run exactly as long as no edit fuses two places. -/
theorem dag_applyAll_iff {d : Dictionary} (h : (ofDictionary d).Dag) (edits : List Edit) :
    (∀ n, (ofDictionary (applyAll d (edits.take n))).Dag) ↔
      ∀ (n : Nat) (e : Edit), edits[n]? = some e → ¬ e.Fuses (applyAll d (edits.take n)) :=
  forall_applyAll_iff (fun d => (ofDictionary d).Dag) Fuses (fun _ e hd => dag_applyOrKeep_iff hd e)
    h edits

end Edit

theorem validate_of_checked {extracted : Logged Notice Error Dictionary} {d : Dictionary}
    (h : (checked extracted).result = .ok d) : validate d = .ok () := by
  simp only [checked, result_bind, result_ofExcept, except_bind_ok] at h
  obtain ⟨d₀, -, _, hvalid, h⟩ := h
  rwa [← Except.ok.inj h]

/-- **The extends edges of a checked document stay in order over a session exactly if no edit fuses
two places.** The session may consist of any edits in any order; refused ones change nothing. -/
theorem dag_session_iff {doc : Document} {d : Dictionary} (h : (checked doc.extract).result = .ok d)
    (edits : List Edit) :
    (∀ n, (ofDictionary (Edit.applyAll d (edits.take n))).Dag) ↔
      ∀ (n : Nat) (e : Edit), edits[n]? = some e → ¬ e.Fuses (Edit.applyAll d (edits.take n)) :=
  Edit.dag_applyAll_iff (dag_of_validate (validate_of_checked h)) edits

/-- A document of one pattern that extends another one. -/
def layered : Document :=
  .plain (.map [(.str "base", .map []), (.str "top", .map [(.str "extends", .str "base")])])

/-- Removes what is extended and gives its id to what extends it. -/
def takeOver : List Edit := [.remove "base", .rename "top" (.str "base")]

theorem dag_session_takeOver :
    (checked layered.extract).result = .ok twoLayers ∧
      ¬ ∀ n, (ofDictionary (Edit.applyAll twoLayers (takeOver.take n))).Dag := by
  have hchecked : (checked layered.extract).result = .ok twoLayers := by
    have hextract : layered.extract.result = .ok twoLayers := rfl
    simp only [checked, result_bind, hextract, ok_bind, result_ofExcept, validate_twoLayers,
      result_pure]
  refine ⟨hchecked, fun hdag => ?_⟩
  refine (dag_session_iff hchecked takeOver).1 hdag 1 _ rfl ⟨rfl, "base", rfl, ?_, rfl, .inl ?_⟩
  · decide
  · exact .single (by decide)

end LayoutGrammar
