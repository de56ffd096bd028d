import LayoutGrammar.Proofs.Extends.Check

/-!
# What the checks of extends edges answer

The answers hold for every dictionary, whatever its edges are like: targets without a pattern,
repeated ones and cycles included. `checkEdge` gives a proposed edge the first verdict that applies
(`EdgeVerdict`), and it reports a cycle exactly if there is a way back
(`edgeVerdict_checkEdge`). `validate` accepts exactly the dictionaries with lists of targets in
order (`TargetsInOrder`) and without cycles, and a cycle that it reports is one
(`validate_verdict`).
-/

namespace LayoutGrammar.Extends

open Extends.Graph Relation

/-! ## One edge -/

/-- In a chain without repetitions no step starts from the last item. -/
theorem isChain_of_nodup {α : Type} {R S : α → α → Prop} {last : α} {l : List α}
    (hRS : ∀ a b, a ≠ last → R a b → S a b) (hlast : l.getLast? = some last) (hnodup : l.Nodup)
    (h : l.IsChain R) : l.IsChain S := by
  induction l with
  | nil => exact List.isChain_nil
  | cons a rest ih =>
    cases rest with
    | nil => exact List.isChain_singleton a
    | cons b rest =>
      obtain ⟨hstep, hrest⟩ := List.isChain_cons_cons.1 h
      obtain ⟨hnew, hnodup⟩ := List.nodup_cons.1 hnodup
      have hne : a ≠ last := fun heq => hnew (heq ▸ List.mem_of_getLast? hlast)
      exact List.isChain_cons_cons.2 ⟨hRS a b hne hstep, ih hlast hnodup hrest⟩

/-- A path to the source of a new edge does not go along it. -/
theorem isPath_of_addEdge {g : Graph} {start source target : String} {path : List String}
    (h : (g.addEdge source target).IsPath start source path) : g.IsPath start source path where
  head := h.head
  last := h.last
  chain := isChain_of_nodup
    (fun _ _ hne hedge => (edge_addEdge_iff.1 hedge).resolve_right fun hnew => hne hnew.1)
    h.last h.nodup h.chain
  nodup := h.nodup

/-- The verdicts on a proposed edge. Each of them presupposes that those before it do not apply. A
reported cycle goes along the new edge and back along edges that are there. -/
inductive EdgeVerdict (d : Dictionary) (source target : String) : Except Error Unit → Prop where
  | self (heq : source = target) :
      EdgeVerdict d source target (.error (.cyclicExtends source target [source, source]))
  | unknown (hne : source ≠ target) (hmissing : d.contains target = false) :
      EdgeVerdict d source target (.error (.unknownTarget source target))
  | redundant (hne : source ≠ target) (hthere : d.contains target = true)
      (hedge : (ofDictionary d).Edge source target) :
      EdgeVerdict d source target (.error (.redundantExtends source target))
  | cyclic (hne : source ≠ target) (hthere : d.contains target = true)
      (hnew : ¬ (ofDictionary d).Edge source target) {back : List String}
      (hback : (ofDictionary d).IsPath target source back) :
      EdgeVerdict d source target (.error (.cyclicExtends source target (source :: back)))
  | accepted (hne : source ≠ target) (hthere : d.contains target = true)
      (hnew : ¬ (ofDictionary d).Edge source target)
      (hback : ¬ ReflTransGen (ofDictionary d).Edge target source) :
      EdgeVerdict d source target (.ok ())

theorem edgeVerdict (d : Dictionary) (source target : String) :
    EdgeVerdict d source target (checkEdge d source target) := by
  unfold checkEdge
  dsimp only
  split
  · next heq => exact .self heq
  split
  · next hne hmissing => exact .unknown hne (by simpa using hmissing)
  split
  · next hne hmissing hedge => exact .redundant hne (by simpa using hmissing) hedge
  · next hne hmissing hnew =>
    have hthere : d.contains target = true := by simpa using hmissing
    cases hpath : path? ((ofDictionary d).addEdge source target) target source with
    | some back => exact .cyclic hne hthere hnew (isPath_of_addEdge (isPath_of_path? hpath))
    | none =>
      rw [path?_eq_none_iff, reflTransGen_addEdge_iff] at hpath
      exact .accepted hne hthere hnew hpath

/-- **Every proposed edge gets the verdict that it deserves**, on every dictionary. A cycle is
reported exactly for an edge from a pattern to itself and for a new edge to a pattern that leads
back. -/
theorem edgeVerdict_checkEdge (d : Dictionary) (source target : String) :
    EdgeVerdict d source target (checkEdge d source target) ∧
      ((∃ cycle, checkEdge d source target = .error (.cyclicExtends source target cycle)) ↔
        source = target ∨ d.contains target = true ∧ ¬ (ofDictionary d).Edge source target ∧
          ReflTransGen (ofDictionary d).Edge target source) := by
  have hverdict := edgeVerdict d source target
  refine ⟨hverdict, ?_⟩
  generalize checkEdge d source target = answer at hverdict ⊢
  cases hverdict with
  | self heq => exact ⟨fun _ => .inl heq, fun _ => ⟨_, rfl⟩⟩
  | unknown hne hmissing =>
    refine ⟨nofun, ?_⟩
    rintro (heq | ⟨hthere, -⟩)
    · exact absurd heq hne
    · rw [hmissing] at hthere
      cases hthere
  | redundant hne hthere hedge =>
    refine ⟨nofun, ?_⟩
    rintro (heq | ⟨-, hnew, -⟩)
    · exact absurd heq hne
    · exact absurd hedge hnew
  | cyclic hne hthere hnew hback =>
    exact ⟨fun _ => .inr ⟨hthere, hnew, hback.reaches⟩, fun _ => ⟨_, rfl⟩⟩
  | accepted hne hthere hnew hback =>
    refine ⟨nofun, ?_⟩
    rintro (heq | ⟨-, -, hreach⟩)
    · exact absurd heq hne
    · exact absurd hreach hback

/-! ## All edges -/

/-- Every list of targets is in order: no target is repeated, none is the pattern itself, and all of
them have patterns. -/
def TargetsInOrder (d : Dictionary) : Prop :=
  ∀ id p, d.get? id = some p →
    p.parents.Nodup ∧ ∀ target ∈ p.parents, target ≠ id ∧ d.contains target = true

theorem targetsInOrder_iff {d : Dictionary} :
    TargetsInOrder d ↔ ∀ e ∈ d.entries, checkTargets d e.1 [] e.2.parents = .ok () := by
  constructor
  · intro h e he
    obtain ⟨hnodup, htargets⟩ := h e.1 e.2 (Table.get?_eq_some_iff.2 he)
    refine checkTargets_eq_ok_iff.2 ⟨fun target hmem => ?_, hnodup⟩
    obtain ⟨hother, hthere⟩ := htargets target hmem
    exact ⟨hother, hthere, List.not_mem_nil⟩
  · intro h id p hp
    obtain ⟨htargets, hnodup⟩ := checkTargets_eq_ok_iff.1 (h _ (Table.get?_eq_some_iff.1 hp))
    exact ⟨hnodup, fun target hmem => ⟨(htargets target hmem).1, (htargets target hmem).2.1⟩⟩

/-- The only cycle that the check of one list reports is a pattern that extends itself. -/
theorem cyclic_of_checkTargets {d : Dictionary} {id source target : String}
    {seen targets cycle : List String}
    (h : checkTargets d id seen targets = .error (.cyclicExtends source target cycle)) :
    source = id ∧ target = id ∧ cycle = [id, id] ∧ id ∈ targets := by
  induction targets generalizing seen with
  | nil => cases h
  | cons next rest ih =>
    rw [checkTargets] at h
    split at h
    · next heq =>
      cases h
      exact ⟨rfl, heq, rfl, heq ▸ List.mem_cons_self⟩
    split at h
    · cases h
    split at h
    · cases h
    · obtain ⟨hsource, htarget, hcycle, hmem⟩ := ih h
      exact ⟨hsource, htarget, hcycle, List.mem_cons_of_mem _ hmem⟩

/-- A reported cycle is one, and the error names its first edge. -/
theorem isCycle_of_validate {d : Dictionary} {id target : String} {cycle : List String}
    (h : validate d = .error (.cyclicExtends id target cycle)) :
    (ofDictionary d).IsCycle cycle ∧ [id, target] <+: cycle := by
  rw [validate_eq, except_bind_error] at h
  rcases h with h | ⟨_, -, h⟩
  · obtain ⟨e, he, hcheck⟩ := exists_of_forM_error h
    obtain ⟨rfl, rfl, rfl, hmem⟩ := cyclic_of_checkTargets hcheck
    have hedge : (ofDictionary d).Edge e.1 e.1 :=
      edge_ofDictionary_iff.2 ⟨e.2, Table.get?_eq_some_iff.2 he, hmem⟩
    have hchain : [e.1, e.1].IsChain (ofDictionary d).Edge :=
      List.isChain_cons_cons.2 ⟨hedge, List.isChain_singleton _⟩
    exact ⟨⟨⟨e.1, [], rfl, List.nodup_singleton _⟩, hchain⟩, List.prefix_refl _⟩
  · cases hcycle : cycle? (ofDictionary d) with
    | none =>
      rw [hcycle] at h
      cases h
    | some found =>
      rw [hcycle] at h
      have hfound := isCycle_of_cycle? hcycle
      obtain ⟨place, rest, hclosed, -⟩ := hfound.closed
      subst hclosed
      cases h
      refine ⟨hfound, ?_⟩
      cases rest with
      | nil => exact List.prefix_refl _
      | cons next rest => exact ⟨rest ++ [place], rfl⟩

/-- **Validation accepts exactly the dictionaries whose extends edges are in order**: lists of
targets in order, and no cycle. If only a cycle is in the way it is reported, and what is reported
as a cycle always is one, with its first edge named. -/
theorem validate_verdict (d : Dictionary) :
    (validate d = .ok () ↔ TargetsInOrder d ∧ (ofDictionary d).Acyclic) ∧
      (TargetsInOrder d → ¬ (ofDictionary d).Acyclic →
        ∃ id target cycle, validate d = .error (.cyclicExtends id target cycle)) ∧
      ∀ id target cycle, validate d = .error (.cyclicExtends id target cycle) →
        (ofDictionary d).IsCycle cycle ∧ [id, target] <+: cycle := by
  refine ⟨?_, fun htargets hcyclic => ?_, fun id target cycle => isCycle_of_validate⟩
  · rw [validate_eq_ok_iff, targetsInOrder_iff]
  · rw [validate_eq, forM_eq_ok_iff.2 (targetsInOrder_iff.1 htargets), ok_bind]
    cases hcycle : cycle? (ofDictionary d) with
    | none => exact absurd (cycle?_eq_none_iff.1 hcycle) hcyclic
    | some cycle => exact ⟨_, _, cycle, rfl⟩

/-- Two patterns that extend each other. -/
def entangled : Dictionary where
  entries := [("warp", { Pattern.blank with parents := ["weft"] }),
    ("weft", { Pattern.blank with parents := ["warp"] })]
  distinct := distinctKeys_iff_nodup.2 (by decide)

theorem validate_verdict_entangled :
    TargetsInOrder entangled ∧ ¬ (ofDictionary entangled).Acyclic ∧
      ∃ id target cycle, validate entangled = .error (.cyclicExtends id target cycle) ∧
        (ofDictionary entangled).IsCycle cycle ∧ [id, target] <+: cycle := by
  have htargets : TargetsInOrder entangled := by
    refine targetsInOrder_iff.2 fun e he => ?_
    simp only [entangled, List.mem_cons, List.not_mem_nil, or_false] at he
    rcases he with rfl | rfl <;> rfl
  have hcyclic : ¬ (ofDictionary entangled).Acyclic := by
    intro h
    have hthere : (ofDictionary entangled).Edge "warp" "weft" := by decide
    have hback : (ofDictionary entangled).Edge "weft" "warp" := by decide
    exact h "warp" (.tail (.single hthere) hback)
  obtain ⟨-, hreport, hcycle⟩ := validate_verdict entangled
  obtain ⟨id, target, cycle, hresult⟩ := hreport htargets hcyclic
  exact ⟨htargets, hcyclic, id, target, cycle, hresult, hcycle id target cycle hresult⟩

end LayoutGrammar.Extends
