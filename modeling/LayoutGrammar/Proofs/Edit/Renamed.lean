import LayoutGrammar.Proofs.Edit.Outcome
import LayoutGrammar.Proofs.Extends.Check

/-!
# The extends graph after renaming

Renaming puts the new id in place of the old one everywhere, so the new graph is the image of the
old one (`edge_renamed_iff`). If the new id was pointed at without having a pattern, two places
become one. That closes a cycle exactly if the renamed pattern led to the missing one
(`acyclic_renamed_iff`), and it makes a target repeat exactly if some pattern extended both
(`nodup_map_substitute_iff`).
-/

namespace LayoutGrammar

open Extends Extends.Graph Relation

namespace Dictionary

variable {d : Dictionary} {old new : String}

theorem substitute_old (old new : String) : substitute old new old = new := if_pos rfl

theorem substitute_of_ne {id : String} (h : id ≠ old) : substitute old new id = id := if_neg h

/-- Two ids become one if they are the old one and the new one. -/
theorem substitute_eq_iff {a b : String} (ha : a ≠ new) :
    substitute old new a = substitute old new b ↔ a = b ∨ a = old ∧ b = new := by
  by_cases hold : a = old
  · subst hold
    rw [substitute_old]
    by_cases hb : b = a
    · subst hb
      rw [substitute_old]
      exact ⟨fun _ => .inl rfl, fun _ => rfl⟩
    · rw [substitute_of_ne hb]
      constructor
      · intro h
        exact .inr ⟨rfl, h.symm⟩
      · rintro (h | ⟨-, h⟩)
        · exact absurd h.symm hb
        · exact h.symm
  · rw [substitute_of_ne hold, or_iff_left fun h => hold h.1]
    by_cases hb : b = old
    · subst hb
      rw [substitute_old]
      exact ⟨fun h => absurd h ha, fun h => absurd h hold⟩
    · rw [substitute_of_ne hb]

/-- Putting a new id in place of an old one keeps the ids apart. -/
theorem entries_renamed (hnew : d.contains new = false) :
    (d.renamed old new).entries =
      d.entries.map fun e => (substitute old new e.1, renameReferences old new e.2) := by
  refine Table.entries_ofList ?_
  have hapart := d.distinct
  rw [DistinctKeys] at hapart ⊢
  rw [List.pairwise_map]
  refine hapart.imp_of_mem fun {a b} ha hb hne => ?_
  rw [beq_eq_false_iff_ne] at hne ⊢
  have hfree := Table.contains_eq_false_iff.1 hnew
  rw [Ne, substitute_eq_iff (hfree a ha)]
  rintro (h | h)
  · exact hne h
  · exact hfree b hb h.2

theorem get?_renamed_iff (hnew : d.contains new = false) {id : String} {p : Pattern} :
    (d.renamed old new).get? id = some p ↔
      ∃ id' p', d.get? id' = some p' ∧ id = substitute old new id' ∧
        p = renameReferences old new p' := by
  rw [Table.get?_eq_some_iff, entries_renamed hnew, List.mem_map]
  constructor
  · rintro ⟨e, he, heq⟩
    obtain ⟨rfl, rfl⟩ := Prod.mk.inj heq
    exact ⟨e.1, e.2, Table.get?_eq_some_iff.2 he, rfl, rfl⟩
  · rintro ⟨id', p', hget, rfl, rfl⟩
    exact ⟨(id', p'), Table.get?_eq_some_iff.1 hget, rfl⟩

theorem get?_renamed_substitute (hnew : d.contains new = false) {id : String}
    (hid : id ≠ new) :
    (d.renamed old new).get? (substitute old new id) =
      (d.get? id).map (renameReferences old new) := by
  apply Option.ext
  intro p
  rw [get?_renamed_iff hnew, Option.map_eq_some_iff]
  constructor
  · rintro ⟨id', p', hp', hsame, rfl⟩
    rcases (substitute_eq_iff hid).1 hsame with rfl | ⟨-, rfl⟩
    · exact ⟨p', hp', rfl⟩
    · rw [Table.contains_of_get? hp'] at hnew
      cases hnew
  · rintro ⟨p', hp', rfl⟩
    exact ⟨id, p', hp', rfl, rfl⟩

/-- The new graph is the image of the old one. -/
theorem edge_renamed_iff (hnew : d.contains new = false) {a b : String} :
    (ofDictionary (d.renamed old new)).Edge a b ↔
      ∃ a' b', (ofDictionary d).Edge a' b' ∧ a = substitute old new a' ∧
        b = substitute old new b' := by
  simp only [edge_ofDictionary_iff, get?_renamed_iff hnew]
  constructor
  · rintro ⟨_, ⟨a', p, hp, rfl, rfl⟩, hb⟩
    obtain ⟨b', hb', rfl⟩ := List.mem_map.1 hb
    exact ⟨a', b', ⟨p, hp, hb'⟩, rfl, rfl⟩
  · rintro ⟨a', b', ⟨p, hp, hb'⟩, rfl, rfl⟩
    exact ⟨_, ⟨a', p, hp, rfl, rfl⟩, List.mem_map_of_mem hb'⟩

/-- What the new graph reaches, the old one reaches with an edge from the new id to the old one:
that edge is where two places have become one. -/
theorem transGen_of_renamed (hnew : d.contains new = false) {a b : String}
    (h : TransGen (ofDictionary (d.renamed old new)).Edge a b) :
    ∃ a' b', a' ≠ new ∧ a = substitute old new a' ∧ b = substitute old new b' ∧
      TransGen ((ofDictionary d).addEdge new old).Edge a' b' := by
  have hsource : ∀ {a b}, (ofDictionary d).Edge a b → a ≠ new := by
    rintro a b hedge rfl
    obtain ⟨p, hp, -⟩ := edge_ofDictionary_iff.1 hedge
    rw [Table.contains_of_get? hp] at hnew
    cases hnew
  induction h with
  | single hab =>
    obtain ⟨a', b', hedge, rfl, rfl⟩ := (edge_renamed_iff hnew).1 hab
    exact ⟨a', b', hsource hedge, rfl, rfl, .single (edge_addEdge_iff.2 (.inl hedge))⟩
  | tail _ hbc ih =>
    obtain ⟨a', b', ha', rfl, rfl, hreach⟩ := ih
    obtain ⟨x, c', hedge, hx, rfl⟩ := (edge_renamed_iff hnew).1 hbc
    refine ⟨a', c', ha', rfl, rfl, ?_⟩
    have hstep : ((ofDictionary d).addEdge new old).Edge x c' := edge_addEdge_iff.2 (.inl hedge)
    rcases (substitute_eq_iff (hsource hedge)).1 hx.symm with rfl | ⟨rfl, rfl⟩
    · exact hreach.tail hstep
    · exact (hreach.tail (edge_addEdge_iff.2 (.inr ⟨rfl, rfl⟩))).tail hstep

/-- Renaming keeps the graph acyclic exactly if the old id does not lead to the new one. -/
theorem acyclic_renamed_iff (hacyclic : (ofDictionary d).Acyclic) (hne : new ≠ old)
    (hnew : d.contains new = false) :
    (ofDictionary (d.renamed old new)).Acyclic ↔ ¬ TransGen (ofDictionary d).Edge old new := by
  constructor
  · intro h hreach
    refine h new ?_
    have hedge : ∀ a b, (ofDictionary d).Edge a b →
        (ofDictionary (d.renamed old new)).Edge (substitute old new a) (substitute old new b) :=
      fun a b hab => (edge_renamed_iff hnew).2 ⟨a, b, hab, rfl, rfl⟩
    have himage := TransGen.lift (substitute old new) hedge _ _ hreach
    simpa only [Function.onFun, substitute_old, substitute_of_ne hne] using himage
  · intro h place hcycle
    have hback : ¬ ReflTransGen (ofDictionary d).Edge old new := fun hreach =>
      (reflTransGen_iff_eq_or_transGen.1 hreach).elim hne h
    have hglued := (acyclic_addEdge_iff hacyclic).2 hback
    obtain ⟨a, b, ha, rfl, hsame, hreach⟩ := transGen_of_renamed hnew hcycle
    rcases (substitute_eq_iff ha).1 hsame with rfl | ⟨rfl, rfl⟩
    · exact hglued a hreach
    · exact hglued a (hreach.tail (edge_addEdge_iff.2 (.inr ⟨rfl, rfl⟩)))

theorem nodup_map_substitute_iff {targets : List String} (h : targets.Nodup) (hne : new ≠ old) :
    (targets.map (substitute old new)).Nodup ↔ ¬ (old ∈ targets ∧ new ∈ targets) := by
  constructor
  · rintro hmap ⟨hold, hnew⟩
    have hsame : substitute old new new = substitute old new old := by
      rw [substitute_old, substitute_of_ne hne]
    exact hne (List.inj_on_of_nodup_map hmap hnew hold hsame)
  · intro hboth
    refine h.map_on fun a ha b hb heq => ?_
    by_cases hanew : a = new
    · subst hanew
      by_cases hbnew : b = a
      · exact hbnew.symm
      · rcases (substitute_eq_iff hbnew).1 heq.symm with h | h
        · exact h.symm
        · exact absurd ⟨h.1 ▸ hb, ha⟩ hboth
    · rcases (substitute_eq_iff hanew).1 heq with h | h
      · exact h
      · exact absurd ⟨h.1 ▸ ha, h.2 ▸ hb⟩ hboth

end Dictionary

end LayoutGrammar
