import LayoutGrammar.Extends.Check
import LayoutGrammar.Proofs.Extends.Cycle
import LayoutGrammar.Proofs.Extends.Search
import LayoutGrammar.Proofs.Logged

/-!
# Checking one edge and checking all

`checkEdge` searches for a path and `validate` for a cycle; on a dictionary whose edges are in order
they agree about every new edge, and they refuse it for the same fault
(`checkEdge_agrees_validate`). What each of them accepts is `checkEdge_eq_ok_iff` and
`validate_eq_ok_iff`.
-/

namespace LayoutGrammar

/-! ## Faults -/

/-- What an edge is refused for. -/
inductive Extends.EdgeFault where
  | cyclic
  | redundant
  | unknown
deriving DecidableEq, Repr

/-- The fault of an edge that an error reports. -/
def Error.edgeFault? : Error → Option Extends.EdgeFault
  | .cyclicExtends .. => some .cyclic
  | .redundantExtends .. => some .redundant
  | .unknownTarget .. => some .unknown
  | _ => none

namespace Extends

open Extends.Graph Relation

/-- Both accept, or both refuse for the same fault. -/
inductive SameVerdict : Except Error Unit → Except Error Unit → Prop where
  | accept : SameVerdict (.ok ()) (.ok ())
  | refuse {e e' : Error} (fault : EdgeFault) (h : e.edgeFault? = some fault)
      (h' : e'.edgeFault? = some fault) : SameVerdict (.error e) (.error e')

/-! ## The graph of a dictionary -/

section Graph

variable {d : Dictionary}

theorem targets_ofDictionary {id : String} {p : Pattern} (h : d.get? id = some p) :
    (ofDictionary d).targets id = p.parents := by
  rw [targets, ofDictionary, Table.get?_mapValues, h]
  rfl

theorem targets_ofDictionary_of_none {id : String} (h : d.get? id = none) :
    (ofDictionary d).targets id = [] := by
  rw [targets, ofDictionary, Table.get?_mapValues, h]
  rfl

theorem edge_ofDictionary_iff {id target : String} :
    (ofDictionary d).Edge id target ↔ ∃ p, d.get? id = some p ∧ target ∈ p.parents := by
  rw [Edge, targets, ofDictionary, Table.get?_mapValues]
  cases d.get? id with
  | none => simp
  | some p => simp

/-- A pattern that extends one more pattern adds an edge to the graph. -/
theorem ofDictionary_addParent {id : String} {p : Pattern} (h : d.get? id = some p)
    (target : String) :
    ofDictionary (d.insert id { p with parents := p.parents ++ [target] }) =
      (ofDictionary d).addEdge id target := by
  rw [addEdge, targets_ofDictionary h, ofDictionary, Table.mapValues_insert]
  rfl

theorem reflTransGen_addEdge_iff {g : Graph} {source target : String} :
    ReflTransGen (g.addEdge source target).Edge target source ↔
      ReflTransGen g.Edge target source := by
  rw [reflTransGen_iff_eq_or_transGen, transGen_addEdge_iff, reflTransGen_iff_eq_or_transGen]
  constructor
  · rintro (h | h | ⟨h, -⟩)
    · exact .inl h
    · exact .inr h
    · exact h
  · exact Or.imp_right .inl

end Graph

/-! ## The targets of one pattern -/

theorem checkTargets_append (d : Dictionary) (id : String) (seen xs ys : List String) :
    checkTargets d id seen (xs ++ ys) =
      checkTargets d id seen xs >>= fun _ => checkTargets d id (xs.reverse ++ seen) ys := by
  induction xs generalizing seen with
  | nil => rfl
  | cons target rest ih =>
    rw [List.cons_append, checkTargets, checkTargets]
    split
    · rfl
    split
    · rfl
    split
    · rfl
    · rw [ih, List.reverse_cons, List.append_assoc, List.singleton_append]

/-- The check asks a dictionary only whether it has an id. -/
theorem checkTargets_congr {d d' : Dictionary} (h : ∀ id, d.contains id = d'.contains id)
    (id : String) (seen targets : List String) :
    checkTargets d id seen targets = checkTargets d' id seen targets := by
  induction targets generalizing seen with
  | nil => rfl
  | cons target rest ih => rw [checkTargets, checkTargets, ih, h]

theorem checkTargets_eq_ok_iff {d : Dictionary} {id : String} {seen targets : List String} :
    checkTargets d id seen targets = .ok () ↔
      (∀ target ∈ targets, target ≠ id ∧ d.contains target = true ∧ target ∉ seen) ∧
        targets.Nodup := by
  induction targets generalizing seen with
  | nil => exact ⟨fun _ => ⟨fun _ h => (nomatch h), List.nodup_nil⟩, fun _ => rfl⟩
  | cons target rest ih =>
    rw [checkTargets, List.forall_mem_cons, List.nodup_cons]
    split
    · next h => exact ⟨fun h => (nomatch h), fun hall => absurd h hall.1.1.1⟩
    split
    · next h => exact ⟨fun h => (nomatch h), fun hall => absurd h hall.1.1.2.2⟩
    split
    · next h =>
      refine ⟨fun h => (nomatch h), fun hall => ?_⟩
      rw [hall.1.1.2.1] at h
      cases h
    · next hself hseen hmissing =>
      have hcontains : d.contains target = true := by simpa using hmissing
      rw [ih]
      constructor
      · rintro ⟨hrest, hnodup⟩
        refine ⟨⟨⟨hself, hcontains, hseen⟩, fun a ha => ?_⟩, fun hmem => ?_, hnodup⟩
        · obtain ⟨hne, hin, hfree⟩ := hrest a ha
          exact ⟨hne, hin, fun hmem => hfree (List.mem_cons_of_mem _ hmem)⟩
        · exact (hrest target hmem).2.2 List.mem_cons_self
      · rintro ⟨⟨-, hrest⟩, hnew, hnodup⟩
        refine ⟨fun a ha => ?_, hnodup⟩
        obtain ⟨hne, hin, hfree⟩ := hrest a ha
        refine ⟨hne, hin, fun hmem => ?_⟩
        rcases List.mem_cons.1 hmem with rfl | hmem
        · exact hnew ha
        · exact hfree hmem

/-! ## Whole dictionaries -/

/-- The verdict on a graph in which a cycle was found or not. -/
def cycleVerdict : Option (List String) → Except Error Unit
  | some cycle => .error (cycleError cycle)
  | none => .ok ()

theorem validate_eq (d : Dictionary) :
    validate d = d.entries.forM (fun e => checkTargets d e.1 [] e.2.parents) >>= fun _ =>
      cycleVerdict (cycle? (ofDictionary d)) := rfl

theorem validate_eq_ok_iff {d : Dictionary} :
    validate d = .ok () ↔
      (∀ e ∈ d.entries, checkTargets d e.1 [] e.2.parents = .ok ()) ∧ (ofDictionary d).Acyclic := by
  rw [validate_eq, except_bind_ok, ← cycle?_eq_none_iff]
  constructor
  · rintro ⟨_, htargets, hcycle⟩
    refine ⟨forM_eq_ok_iff.1 htargets, ?_⟩
    cases h : cycle? (ofDictionary d) with
    | none => rfl
    | some cycle =>
      rw [h] at hcycle
      cases hcycle
  · rintro ⟨htargets, hcycle⟩
    refine ⟨(), forM_eq_ok_iff.2 htargets, ?_⟩
    rw [hcycle]
    rfl

/-- The edges of a dictionary in order. -/
theorem dag_of_validate {d : Dictionary} (h : validate d = .ok ()) : (ofDictionary d).Dag := by
  obtain ⟨htargets, hacyclic⟩ := validate_eq_ok_iff.1 h
  refine dag_iff.2 ⟨hacyclic, fun id => ?_⟩
  cases hp : d.get? id with
  | none =>
    rw [targets_ofDictionary_of_none hp]
    exact List.nodup_nil
  | some p =>
    rw [targets_ofDictionary hp]
    exact (checkTargets_eq_ok_iff.1 (htargets _ (Table.get?_eq_some_iff.1 hp))).2

/-- Where all entries but one pass a check, the check of all is the check of the one. -/
theorem forM_putEntry {ε α : Type} {f : String × α → Except ε Unit} {entries : List (String × α)}
    {k : String} {a b : α} (hd : DistinctKeys entries) (hk : (k, a) ∈ entries)
    (hothers : ∀ e ∈ entries, e.1 ≠ k → f e = .ok ()) :
    (putEntry k b entries).forM f = f (k, b) := by
  induction entries with
  | nil => cases hk
  | cons e rest ih =>
    obtain ⟨k', a'⟩ := e
    obtain ⟨hhead, hrest⟩ := List.pairwise_cons.1 hd
    rw [putEntry]
    split
    · next heq =>
      obtain rfl := eq_of_beq heq
      have hpass : rest.forM f = .ok () := forM_eq_ok_iff.2 fun e he => by
        refine hothers e (List.mem_cons_of_mem _ he) fun heq => ?_
        have hapart := hhead e he
        rw [heq, beq_self_eq_true] at hapart
        cases hapart
      change (f (k', b) >>= fun _ => rest.forM f) = _
      rw [hpass]
      cases f (k', b) <;> rfl
    · next hne =>
      have hmem : (k, a) ∈ rest := by
        rcases List.mem_cons.1 hk with heq | hmem
        · exact absurd (beq_iff_eq.2 (Prod.mk.inj heq).1.symm) hne
        · exact hmem
      change (f (k', a') >>= fun _ => (putEntry k b rest).forM f) = _
      rw [hothers (k', a') List.mem_cons_self fun heq => hne (beq_iff_eq.2 heq), ok_bind]
      exact ih hrest hmem fun e he => hothers e (List.mem_cons_of_mem _ he)

section NewEdge

variable {d : Dictionary} {source : String} {p : Pattern}

/-- On a dictionary in order, checking it with one edge more comes down to the new edge. -/
theorem validate_addParent (hd : validate d = .ok ()) (hp : d.get? source = some p)
    (target : String) :
    validate (d.insert source { p with parents := p.parents ++ [target] }) =
      checkTargets d source p.parents.reverse [target] >>= fun _ =>
        cycleVerdict (cycle? ((ofDictionary d).addEdge source target)) := by
  let d' := d.insert source { p with parents := p.parents ++ [target] }
  have hcontains : ∀ id, d'.contains id = d.contains id := by
    intro id
    rw [Table.contains_insert]
    by_cases heq : source = id
    · subst heq
      rw [Table.contains_of_get? hp, Bool.or_true]
    · rw [beq_eq_false_iff_ne.2 heq, Bool.false_or]
  have hmem := Table.get?_eq_some_iff.1 hp
  have hold := (validate_eq_ok_iff.1 hd).1
  have hchecks : d'.entries.forM (fun e => checkTargets d' e.1 [] e.2.parents) =
      checkTargets d source p.parents.reverse [target] := by
    rw [Table.entries_insert, forM_putEntry d.distinct hmem fun e he _ => ?_]
    · rw [checkTargets_congr hcontains, checkTargets_append, hold _ hmem, ok_bind, List.append_nil]
    · rw [checkTargets_congr hcontains]
      exact hold e he
  rw [validate_eq, hchecks, ofDictionary_addParent hp]

theorem checkEdge_eq_ok_iff {target : String} :
    checkEdge d source target = .ok () ↔
      source ≠ target ∧ d.contains target = true ∧ target ∉ (ofDictionary d).targets source ∧
        ¬ ReflTransGen (ofDictionary d).Edge target source := by
  rw [← reflTransGen_addEdge_iff, ← path?_eq_none_iff]
  unfold checkEdge
  dsimp only
  split
  · next h => exact ⟨fun h => (nomatch h), fun hall => absurd h hall.1⟩
  split
  · next h =>
    refine ⟨fun h => (nomatch h), fun hall => ?_⟩
    rw [hall.2.1] at h
    cases h
  split
  · next h => exact ⟨fun h => (nomatch h), fun hall => absurd h hall.2.2.1⟩
  · next hself hmissing hnew =>
    have hcontains : d.contains target = true := by simpa using hmissing
    cases hpath : path? ((ofDictionary d).addEdge source target) target source with
    | none => exact ⟨fun _ => ⟨hself, hcontains, hnew, rfl⟩, fun _ => rfl⟩
    | some back => exact ⟨fun h => (nomatch h), fun hall => nomatch hall.2.2.2⟩

/-- The searches for a path back and for a cycle give the same verdict on a new edge. -/
theorem path?_eq_none_iff_cycle? (h : (ofDictionary d).Acyclic) (source target : String) :
    path? ((ofDictionary d).addEdge source target) target source = none ↔
      cycle? ((ofDictionary d).addEdge source target) = none := by
  rw [path?_eq_none_iff, reflTransGen_addEdge_iff, cycle?_eq_none_iff, acyclic_addEdge_iff h]

theorem sameVerdict_checkEdge (hd : validate d = .ok ()) (hp : d.get? source = some p)
    (target : String) :
    SameVerdict (checkEdge d source target)
      (validate (d.insert source { p with parents := p.parents ++ [target] })) := by
  obtain ⟨hold, hacyclic⟩ := validate_eq_ok_iff.1 hd
  have hparents := (checkTargets_eq_ok_iff.1 (hold _ (Table.get?_eq_some_iff.1 hp))).1
  have hsearch := path?_eq_none_iff_cycle? hacyclic source target
  rw [validate_addParent hd hp, checkTargets, checkEdge, targets_ofDictionary hp]
  by_cases hself : source = target
  · rw [if_pos hself, if_pos hself.symm]
    exact .refuse .cyclic rfl rfl
  rw [if_neg hself, if_neg (Ne.symm hself)]
  by_cases hmem : target ∈ p.parents
  · have hin : d.contains target = true := (hparents target hmem).2.1
    rw [if_pos (List.mem_reverse.2 hmem), hin, if_neg (by decide), if_pos hmem]
    exact .refuse .redundant rfl rfl
  rw [if_neg (mt List.mem_reverse.1 hmem), if_neg hmem]
  by_cases hin : d.contains target = true
  · rw [hin]
    cases hpath : path? ((ofDictionary d).addEdge source target) target source with
    | none =>
      rw [hsearch.1 hpath]
      exact .accept
    | some back =>
      cases hcycle : cycle? ((ofDictionary d).addEdge source target) with
      | none =>
        rw [hsearch.2 hcycle] at hpath
        cases hpath
      | some cycle => exact .refuse .cyclic rfl rfl
  · rw [Bool.eq_false_iff.2 hin]
    exact .refuse .unknown rfl rfl

/-- **The check of one edge agrees with the check of all edges.** On a dictionary whose edges are in
order, an edge is accepted exactly if the dictionary with that edge is, and both refuse it for the
same fault. -/
theorem checkEdge_agrees_validate (hd : validate d = .ok ()) (hp : d.get? source = some p)
    (target : String) :
    let extended := d.insert source { p with parents := p.parents ++ [target] }
    (checkEdge d source target = .ok () ↔ validate extended = .ok ()) ∧
      ∀ e e', checkEdge d source target = .error e → validate extended = .error e' →
        ∃ fault, e.edgeFault? = some fault ∧ e'.edgeFault? = some fault := by
  intro extended
  have hsame := sameVerdict_checkEdge hd hp target
  change SameVerdict _ (validate extended) at hsame
  generalize checkEdge d source target = one at hsame ⊢
  generalize validate extended = all at hsame ⊢
  cases hsame with
  | accept => exact ⟨Iff.rfl, fun _ _ h => nomatch h⟩
  | refuse fault h h' =>
    refine ⟨⟨fun h => (nomatch h), fun h => nomatch h⟩, fun e e' he he' => ?_⟩
    obtain rfl := Except.error.inj he
    obtain rfl := Except.error.inj he'
    exact ⟨fault, h, h'⟩

end NewEdge

/-- One pattern that extends another one. -/
def twoLayers : Dictionary where
  entries := [("base", .blank), ("top", { Pattern.blank with parents := ["base"] })]
  distinct := distinctKeys_iff_nodup.2 (by decide)

theorem validate_twoLayers : validate twoLayers = .ok () := by
  have hedge : ∀ {a b}, (ofDictionary twoLayers).Edge a b → a = "top" ∧ b = "base" := by
    intro a b hab
    obtain ⟨p, hp, hb⟩ := edge_ofDictionary_iff.1 hab
    have hmem := Table.get?_eq_some_iff.1 hp
    simp only [twoLayers, List.mem_cons, List.not_mem_nil, or_false, Prod.mk.injEq] at hmem
    rcases hmem with ⟨rfl, rfl⟩ | ⟨rfl, rfl⟩
    · cases hb
    · exact ⟨rfl, List.mem_singleton.1 hb⟩
  refine validate_eq_ok_iff.2 ⟨?_, fun place hcycle => ?_⟩
  · intro e he
    simp only [twoLayers, List.mem_cons, List.not_mem_nil, or_false] at he
    rcases he with rfl | rfl <;> rfl
  · obtain ⟨a, ha, -⟩ := TransGen.head'_iff.1 hcycle
    obtain ⟨b, -, hb⟩ := TransGen.tail'_iff.1 hcycle
    exact absurd ((hedge ha).1.symm.trans (hedge hb).2) (by decide)

theorem checkEdge_agrees_validate_twoLayers :
    validate twoLayers = .ok () ∧ twoLayers.get? "base" = some .blank ∧
      (checkEdge twoLayers "base" "top" = .ok () ↔
        validate (twoLayers.insert "base" { Pattern.blank with parents := ["top"] }) = .ok ()) := by
  have hbase : twoLayers.get? "base" = some .blank := rfl
  exact ⟨validate_twoLayers, hbase, (checkEdge_agrees_validate validate_twoLayers hbase "top").1⟩

end Extends

end LayoutGrammar
