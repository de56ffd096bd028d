import LayoutGrammar.Proofs.Constraint.Token
import LayoutGrammar.Proofs.Edit.Outcome
import Mathlib.Data.List.Basic
import Mathlib.Order.Bounds.Basic
import Mathlib.Order.MinMax

/-!
# Made-up ids are new

`MadeUp` says which ids carry a number: leading zeros, digits of other scripts and a line break at
the end are all taken, so several ids may carry the same one. The id that is made up next carries a
number beyond all of those in use (`isGreatest_greatestNumber`), and it is read back as that number
(`madeUp_generatedId`), so it is none of the ids in use. Creating under it makes its number the
greatest one in use, which is what carries the induction over a run of creations
(`result_createAll`).
-/

namespace LayoutGrammar

open Text Logged

/-! ## Numbers of made-up ids -/

/-- The id is a made-up one that carries the number. -/
def MadeUp (id : String) (n : Nat) : Prop :=
  ∃ digits, IsNumber digits ∧ digitsValue digits = n ∧
    (id.toList = "pattern_".toList ++ digits ∨ id.toList = "pattern_".toList ++ digits ++ ['\n'])

theorem dropFinalBreak_concat (cs : List Char) : dropFinalBreak (cs ++ ['\n']) = cs := by
  rw [dropFinalBreak, List.getLast?_concat, if_pos rfl, List.dropLast_concat]

theorem dropFinalBreak_of_isNumber {digits : List Char} (h : IsNumber digits) :
    dropFinalBreak digits = digits := by
  refine if_neg fun hbreak => ?_
  have hdigit := h.digits '\n' (List.mem_of_mem_getLast? hbreak)
  exact absurd hdigit (by decide)

theorem eq_or_concat_of_dropFinalBreak (cs : List Char) :
    cs = dropFinalBreak cs ∨ cs = dropFinalBreak cs ++ ['\n'] := by
  unfold dropFinalBreak
  split
  · next h =>
    obtain ⟨rest, rfl⟩ := List.getLast?_eq_some_iff.1 h
    exact .inr (by rw [List.dropLast_concat])
  · exact .inl rfl

theorem generatedNumber?_eq_some_iff {id : String} {n : Nat} :
    generatedNumber? id = some n ↔ MadeUp id n := by
  dsimp only [generatedNumber?]
  constructor
  · intro h
    split at h
    · next hlead =>
      obtain ⟨rest, hrest⟩ := List.isPrefixOf_iff_prefix.1 hlead
      rw [← hrest, List.drop_left] at h
      split at h
      · cases h
      · next hdigits =>
        simp only [Bool.or_eq_true, List.isEmpty_iff, Bool.not_eq_true', not_or,
          Bool.not_eq_false, List.all_eq_true] at hdigits
        refine ⟨dropFinalBreak rest, ⟨hdigits.1, hdigits.2⟩, Option.some.inj h, ?_⟩
        rcases eq_or_concat_of_dropFinalBreak rest with heq | heq
        · rw [← heq]
          exact .inl hrest.symm
        · rw [List.append_assoc, ← heq]
          exact .inr hrest.symm
    · cases h
  · rintro ⟨digits, hdigits, rfl, hid⟩
    -- the two forms are one once the break at the end is dropped
    have hrest : ∃ rest, id.toList = generatedLead ++ rest ∧ dropFinalBreak rest = digits := by
      rcases hid with hid | hid
      · exact ⟨digits, hid, dropFinalBreak_of_isNumber hdigits⟩
      · rw [List.append_assoc] at hid
        exact ⟨_, hid, dropFinalBreak_concat digits⟩
    obtain ⟨rest, hid, hdrop⟩ := hrest
    have hlead : generatedLead.isPrefixOf (generatedLead ++ rest) = true :=
      List.isPrefixOf_iff_prefix.2 (List.prefix_append _ _)
    have hall : digits.all isDigit = true := List.all_eq_true.2 hdigits.digits
    rw [hid, if_pos hlead, List.drop_left, hdrop]
    simp [hdigits.ne_nil, hall]

theorem natText_eq_toDigits (n : Nat) : natText n = Nat.toDigits 10 n := by
  have hchar : ∀ d < 10, digitChar d = Nat.digitChar d := by decide
  fun_induction natText n with
  | case1 n h => rw [Nat.toDigits_of_lt_base h, hchar n h]
  | case2 n h ih =>
    rw [Nat.toDigits_of_base_le (by decide) (Nat.not_lt.1 h), ih,
      hchar _ (Nat.mod_lt n (by decide))]

theorem generatedId_eq (n : Nat) : generatedId n = "pattern_" ++ toString n := by
  apply String.toList_injective
  rw [generatedId, String.toList_ofList, String.toList_append, natText_eq_toDigits,
    Nat.toString_eq_repr, Nat.toList_repr]
  rfl

theorem madeUp_generatedId (n : Nat) : MadeUp (generatedId n) n :=
  ⟨natText n, isNumber_natText n, digitsValue_natText n, .inl String.toList_ofList⟩

/-! ## The greatest number in use -/

theorem isGreatest_foldl_max (a : Nat) (ns : List Nat) :
    IsGreatest (insert a {n | n ∈ ns}) (ns.foldl max a) := by
  induction ns generalizing a with
  | nil => simp [IsGreatest, upperBounds]
  | cons n rest ih =>
    obtain ⟨hmem, hbound⟩ := ih (max a n)
    rw [List.foldl_cons]
    have hle : max a n ≤ rest.foldl max (max a n) := hbound (Set.mem_insert _ _)
    constructor
    · rcases hmem with hmem | hmem
      · rw [hmem]
        rcases max_choice a n with h | h
        · rw [h]
          exact .inl rfl
        · rw [h]
          exact .inr List.mem_cons_self
      · exact .inr (List.mem_cons_of_mem _ hmem)
    · rintro k (rfl | hk)
      · exact (le_max_left _ _).trans hle
      · rcases List.mem_cons.1 hk with rfl | hk
        · exact (le_max_right _ _).trans hle
        · exact hbound (.inr hk)

theorem isGreatest_greatestNumber (ids : List String) :
    IsGreatest (insert 0 {n | ∃ id ∈ ids, MadeUp id n}) (greatestNumber ids) := by
  have hnumbers : {n | n ∈ ids.filterMap generatedNumber?} = {n | ∃ id ∈ ids, MadeUp id n} := by
    ext n
    simp only [Set.mem_ofPred_eq, List.mem_filterMap, generatedNumber?_eq_some_iff]
  rw [← hnumbers]
  exact isGreatest_foldl_max 0 _

theorem nextId_not_mem (ids : List String) : nextId ids ∉ ids := by
  intro hmem
  have hbound := (isGreatest_greatestNumber ids).2 (.inr ⟨_, hmem, madeUp_generatedId _⟩)
  exact absurd hbound (Nat.not_succ_le_self _)

example :
    nextId ["pattern_007", "pattern_٣", "pattern_9\n", "pattern_11 ", "hub"] = "pattern_10" := by
  decide +kernel

theorem greatestNumber_concat_nextId (ids : List String) :
    greatestNumber (ids ++ [nextId ids]) = greatestNumber ids + 1 := by
  have hnext : generatedNumber? (nextId ids) = some (greatestNumber ids + 1) :=
    generatedNumber?_eq_some_iff.2 (madeUp_generatedId _)
  have hfold : ∀ n, (ids.filterMap generatedNumber? ++ [n]).foldl max 0 =
      max (greatestNumber ids) n := by
    intro n
    rw [List.foldl_append]
    rfl
  rw [greatestNumber, List.filterMap_append, List.filterMap_cons_some hnext, List.filterMap_nil,
    hfold]
  omega

/-! ## Runs of creations -/

namespace Dictionary

/-- Creates empty patterns of some kinds one after the other, without giving them ids; also returns
the ids that were made up. -/
def createAll (d : Dictionary) : List Value → Logged Notice Error (Dictionary × List String)
  | [] => pure (d, [])
  | kind :: rest => do
    let (d, id) ← d.create none kind
    let (d, ids) ← createAll d rest
    pure (d, id :: ids)

theorem result_create_none (d : Dictionary) (kind : Value) :
    (d.create none kind).result =
      .ok (d.insert (nextId d.keys) { Pattern.blank with kind }, nextId d.keys) := by
  refine result_create_iff.2 ⟨rfl, ?_, rfl⟩
  rw [← Bool.not_eq_true, Table.contains_eq_true_iff]
  exact nextId_not_mem d.keys

theorem entries_insert_nextId (d : Dictionary) (p : Pattern) :
    (d.insert (nextId d.keys) p).entries = d.entries ++ [(nextId d.keys, p)] := by
  refine Table.entries_insert_of_new p fun e he => ?_
  rw [beq_eq_false_iff_ne]
  rintro heq
  exact nextId_not_mem d.keys (heq ▸ List.mem_map_of_mem he)

/-- The made-up ids from a number on. -/
def idsFrom (m k : Nat) : List String := (List.range k).map fun i => generatedId (m + (i + 1))

theorem idsFrom_succ (m k : Nat) :
    idsFrom m (k + 1) = generatedId (m + 1) :: idsFrom (m + 1) k := by
  rw [idsFrom, List.range_succ_eq_map, List.map_cons, List.map_map, idsFrom]
  refine congrArg _ (List.map_congr_left fun i _ => ?_)
  simp only [Function.comp_apply]
  congr 1
  omega

theorem result_createAll (d : Dictionary) (kinds : List Value) :
    ∃ d', (d.createAll kinds).result = .ok (d', idsFrom (greatestNumber d.keys) kinds.length) ∧
      d'.entries = d.entries ++ (idsFrom (greatestNumber d.keys) kinds.length).zip
        (kinds.map fun kind => { Pattern.blank with kind }) := by
  induction kinds generalizing d with
  | nil => exact ⟨d, rfl, (List.append_nil _).symm⟩
  | cons kind rest ih =>
    let first : Pattern := { Pattern.blank with kind }
    have hfirst : (d.create none kind).result =
        .ok (d.insert (nextId d.keys) first, generatedId (greatestNumber d.keys + 1)) :=
      result_create_none d kind
    have hentries := entries_insert_nextId d first
    have hkeys : (d.insert (nextId d.keys) first).keys = d.keys ++ [nextId d.keys] := by
      rw [Table.keys, hentries, List.map_append]
      rfl
    obtain ⟨d', hrun, hd'⟩ := ih (d.insert (nextId d.keys) first)
    -- the id just made up carries the greatest number, so the rest of the run starts after it
    rw [hkeys, greatestNumber_concat_nextId] at hrun hd'
    rw [List.length_cons, idsFrom_succ]
    refine ⟨d', ?_, ?_⟩
    · rw [createAll, result_bind, hfirst, ok_bind, result_bind, hrun]
      rfl
    · rw [hd', hentries, List.map_cons, List.zip_cons_cons, List.append_assoc]
      rfl

/-- **Made-up ids are new.** Let `m` be the greatest number that an id in use carries, zero if there
is none. The next id is not in use, so creating under it succeeds; and a run of creations makes up
`pattern_(m+1)`, `pattern_(m+2)` and so on, no two of them alike and none in use before. -/
theorem created_ids_fresh (d : Dictionary) :
    ∃ m, IsGreatest (insert 0 {n | ∃ id ∈ d.keys, MadeUp id n}) m ∧
      nextId d.keys ∉ d.keys ∧
      (∀ kind, (d.create none kind).result =
        .ok (d.insert (nextId d.keys) { Pattern.blank with kind }, nextId d.keys)) ∧
      ∀ kinds, ∃ d' ids, (d.createAll kinds).result = .ok (d', ids) ∧
        ids = (List.range kinds.length).map (fun i => "pattern_" ++ toString (m + (i + 1))) ∧
        d'.entries = d.entries ++ ids.zip (kinds.map fun kind => { Pattern.blank with kind }) ∧
        (d.keys ++ ids).Nodup := by
  refine ⟨_, isGreatest_greatestNumber d.keys, nextId_not_mem d.keys, result_create_none d, ?_⟩
  intro kinds
  obtain ⟨d', hrun, hentries⟩ := result_createAll d kinds
  refine ⟨d', _, hrun, ?_, hentries, ?_⟩
  · exact List.map_congr_left fun i _ => generatedId_eq _
  · have hkeys : d'.keys = d.keys ++ idsFrom (greatestNumber d.keys) kinds.length := by
      rw [Table.keys, hentries, List.map_append, List.map_fst_zip]
      · rfl
      · simp [idsFrom]
    rw [← hkeys]
    exact distinctKeys_iff_nodup.1 d'.distinct

end Dictionary

end LayoutGrammar
