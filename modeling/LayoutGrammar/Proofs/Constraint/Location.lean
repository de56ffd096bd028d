import LayoutGrammar.Constraint.Shorthand
import LayoutGrammar.Pattern.Data
import LayoutGrammar.Proofs.Constraint.OffsetText
import LayoutGrammar.Proofs.Logged
import LayoutGrammar.Proofs.Table
import Mathlib.Data.List.Nodup

/-!
# Written locations read back

Lenient reading of a location always succeeds, and `Location.lenient` is what it gives, without the
notices: every form of a raw value comes down to one list of keys and values (`rawEntries`), whose
entries compete for the sides one after the other (`Contest.step`). A written location reads back
side by side (`lenient_toValue`), so a well-formed one reads back as itself
(`reread_of_wellFormed`).
-/

namespace LayoutGrammar

theorem Side.name_injective : Function.Injective Side.name := by
  intro s t h
  have hs := Side.ofName?_name s
  rw [h, Side.ofName?_name] at hs
  exact (Option.some.inj hs).symm

/-! ## Shorthands as lists of entries -/

namespace Shorthand

/-- The keys and values that one item of a sequence gives. -/
def itemEntries : Value → List (String × Value)
  | .str s => [(Text.lowered (Text.stripped s), .str "0")]
  | .map entries => ofMap entries
  | _ => []

/-- The keys and values that a raw location gives, in order and with repetitions. -/
def rawEntries : Value → List (String × Value)
  | .map entries => ofMap entries
  | .str s => ofText s
  | .list items | .tuple items => items.flatMap itemEntries
  | _ => []

theorem result_addItem (table : Table String Value) (item : Value) :
    (addItem table item).result = .ok (table.insertAll (itemEntries item)) := by
  cases item <;> rfl

/-- Bringing a raw location to a table never fails. -/
theorem result_flatten (raw : Value) : (flatten raw).result = .ok (.ofList (rawEntries raw)) := by
  cases raw with
  | list items | tuple items =>
    rw [flatten, Logged.result_foldlM_of_ok result_addItem, Table.foldl_insertAll]
    rfl
  | _ => rfl

end Shorthand

namespace Location

/-! ## Lenient reading -/

/-- `Contest.enter` without its notice. -/
def Contest.step (contest : Contest) (entry : Value × Value) : Contest :=
  match readSideKey? entry.1.text with
  | none => contest
  | some (spelling, side) =>
    if (contest.get side).all fun held => held.1.rank ≤ spelling.rank then
      contest.set side (some (spelling, entry.2))
    else contest

theorem Contest.result_enter (contest : Contest) (entry : Value × Value) :
    (contest.enter entry).result = .ok (contest.step entry) := by
  unfold Contest.enter Contest.step
  cases readSideKey? entry.1.text with
  | none => rfl
  | some key =>
    obtain ⟨spelling, side⟩ := key
    dsimp only
    cases contest.get side with
    | none => rfl
    | some held =>
      by_cases h : held.1.rank ≤ spelling.rank
      · simp [h]
      · simp [h]

/-- No value competes for any side. -/
def Contest.empty : Contest := ⟨none, none, none, none⟩

/-- The offset that the winner of a side gives; what is malformed gives no distance. -/
def winnerOffset (winner : Spelling × Value) : Offset := (Offset.ofValue? winner.2).getD .zero

/-- The location of the winners of a contest. -/
def ofContest (contest : Contest) : Location := contest.map (Option.map winnerOffset)

theorem result_readWinner (winner : Option (Spelling × Value)) :
    (readWinner false winner).result = .ok (winner.map winnerOffset) := by
  unfold readWinner
  split
  · rfl
  · rw [Logged.result_bind, Offset.result_read_lenient]
    rfl

/-- What lenient reading makes of a raw location. -/
def lenient (raw : Value) : Location :=
  ofContest <| (Table.ofList (Shorthand.rawEntries raw)).entries.foldl
    (fun contest e => contest.step (.str e.1, e.2)) Contest.empty

/-- Lenient reading never fails. -/
theorem result_ofValue_lenient (raw : Value) : (ofValue false raw).result = .ok (lenient raw) := by
  unfold ofValue ofEntries lenient
  simp only [Logged.result_bind, Shorthand.result_flatten,
    Logged.result_foldlM_of_ok Contest.result_enter, result_readWinner, Logged.result_pure,
    List.foldl_map]
  rfl

/-- Every offset of a location that was read is one that a raw value gives, or none at all. -/
theorem ordered_of_lenient {raw : Value} {side : Side} {o : Offset}
    (h : (lenient raw).get side = some o) : o.Ordered := by
  rw [lenient, ofContest, Sides.get_map, Option.map_eq_some_iff] at h
  obtain ⟨winner, -, rfl⟩ := h
  unfold winnerOffset
  cases hw : Offset.ofValue? winner.2 with
  | none => exact Offset.ordered_exactly 0
  | some o => exact Offset.ordered_of_ofValue? hw

/-! ## Written locations -/

theorem mem_offsets {l : Location} {side : Side} {o : Offset} :
    (side, o) ∈ l.offsets ↔ l.get side = some o := by
  simp only [offsets, Sides.toList, List.mem_filterMap, List.mem_map]
  constructor
  · rintro ⟨_, ⟨s, -, rfl⟩, h⟩
    obtain ⟨o', ho', heq⟩ := Option.map_eq_some_iff.1 h
    obtain ⟨rfl, rfl⟩ := Prod.mk.inj heq
    exact ho'
  · intro h
    exact ⟨_, ⟨side, side.mem_all, rfl⟩, by simp [h]⟩

theorem isFree_iff {l : Location} : l.isFree = true ↔ l = free := by
  constructor
  · intro h
    refine Sides.ext_get fun side => ?_
    rw [isFree, List.isEmpty_iff] at h
    cases hs : l.get side with
    | none => cases side <;> rfl
    | some o =>
      have := mem_offsets.2 hs
      rw [h] at this
      cases this
  · rintro rfl
    rfl

theorem sides_nodup (l : Location) : (l.offsets.map (·.1)).Nodup := by
  have hsub : (l.offsets.map (·.1)).Sublist Side.all := by
    have hmap : Side.all = l.toList.map (·.1) := rfl
    rw [hmap, offsets, List.map_filterMap]
    generalize l.toList = entries
    induction entries with
    | nil => exact List.Sublist.refl _
    | cons e rest ih =>
      cases h : e.2 with
      | none => simpa [h] using ih.cons _
      | some o => simpa [h] using ih
  exact hsub.nodup (by decide)

theorem readSideKey?_name (side : Side) : readSideKey? side.name = some (.bare, side) := by
  cases side <;> decide

theorem Contest.step_name {contest : Contest} {side : Side} (h : contest.get side = none)
    (v : Value) : contest.step (.str side.name, v) = contest.set side (some (.bare, v)) := by
  unfold Contest.step
  simp [readSideKey?_name, h]

/-- Bare sides that are new to a contest win it. -/
theorem Contest.get_foldl_step {entries : List (Side × Value)} (hd : (entries.map (·.1)).Nodup)
    (contest : Contest) (hnew : ∀ e ∈ entries, contest.get e.1 = none) (side : Side) :
    (entries.foldl (fun c e => c.step (.str e.1.name, e.2)) contest).get side =
      ((valueAt? side entries).map (Spelling.bare, ·)).or (contest.get side) := by
  induction entries generalizing contest with
  | nil => simp [valueAt?]
  | cons e rest ih =>
    obtain ⟨s, v⟩ := e
    rw [List.map_cons, List.nodup_cons] at hd
    have hs : contest.get s = none := hnew _ List.mem_cons_self
    have hrest : ∀ e ∈ rest, (contest.set s (some (.bare, v))).get e.1 = none := by
      intro e he
      have hne : e.1 ≠ s := fun heq => hd.1 (List.mem_map.2 ⟨e, he, heq⟩)
      rw [Sides.get_set, if_neg hne]
      exact hnew e (List.mem_cons_of_mem _ he)
    rw [List.foldl_cons, Contest.step_name hs, ih hd.2 _ hrest, Sides.get_set, valueAt?]
    by_cases heq : side = s
    · subst heq
      have hnone : valueAt? side rest = none := by
        cases hv : valueAt? side rest with
        | none => rfl
        | some a =>
          have hmem := (valueAt?_eq_some_iff (distinctKeys_iff_nodup.2 hd.2)).1 hv
          exact absurd (List.mem_map_of_mem hmem) hd.1
      simp [hnone]
    · rw [if_neg heq, if_neg (by simpa using fun h => heq h.symm)]

/-- An offset as its written token reads. -/
def rereadOffset (o : Offset) : Offset :=
  (Offset.ofToken? (Text.strip o.text.toList)).getD .zero

/-- A location as it reads once it is written. -/
def reread (l : Location) : Location := l.map (Option.map rereadOffset)

/-- A written location reads back side by side. -/
theorem lenient_toValue (l : Location) : lenient l.toValue = l.reread := by
  let written : List (Side × Value) := l.offsets.map fun e => (e.1, .str e.2.text)
  have hsides : written.map (·.1) = l.offsets.map (·.1) := by simp [written]
  have hraw : Shorthand.rawEntries l.toValue = written.map fun e => (e.1.name, e.2) := by
    simp [toValue, Shorthand.rawEntries, Shorthand.ofMap, tokens, written]
  have hnames : DistinctKeys (written.map fun e => (e.1.name, e.2)) := by
    have hmap : (written.map fun e => (e.1.name, e.2)).map (·.1) =
        (l.offsets.map (·.1)).map Side.name := by simp [written]
    rw [distinctKeys_iff_nodup, hmap]
    exact List.Nodup.map Side.name_injective l.sides_nodup
  have hlookup : ∀ side, valueAt? side written = (l.get side).map fun o => .str o.text := by
    intro side
    have hdistinct : DistinctKeys written := distinctKeys_iff_nodup.2 (hsides ▸ l.sides_nodup)
    cases hs : l.get side with
    | none =>
      cases hv : valueAt? side written with
      | none => rfl
      | some v =>
        obtain ⟨e, he, heq⟩ := List.mem_map.1 ((valueAt?_eq_some_iff hdistinct).1 hv)
        obtain ⟨rfl, -⟩ := Prod.mk.inj heq
        rw [mem_offsets.1 he] at hs
        cases hs
    | some o =>
      rw [Option.map_some, valueAt?_eq_some_iff hdistinct]
      exact List.mem_map.2 ⟨(side, o), mem_offsets.2 hs, rfl⟩
  refine Sides.ext_get fun side => ?_
  have hcontest := Contest.get_foldl_step (hsides ▸ l.sides_nodup) Contest.empty
    (fun e _ => by cases e.1 <;> rfl) side
  rw [lenient, hraw, Table.entries_ofList hnames, List.foldl_map, ofContest, Sides.get_map,
    hcontest, hlookup, reread, Sides.get_map]
  cases l.get side <;> cases side <;> rfl

theorem reread_of_wellFormed {l : Location}
    (h : ∀ side o, l.get side = some o → o.WellFormed) : l.reread = l := by
  refine Sides.ext_get fun side => ?_
  rw [reread, Sides.get_map]
  cases hs : l.get side with
  | none => rfl
  | some o => rw [Option.map_some, rereadOffset, Offset.ofToken?_strip_text (h side o hs)]; rfl

/-- What a token gives is well-formed. -/
theorem wellFormed_rereadOffset (o : Offset) : (rereadOffset o).WellFormed := by
  unfold rereadOffset
  cases h : Offset.ofToken? (Text.strip o.text.toList) with
  | none => exact Offset.wellFormed_exactly 0
  | some o' => exact Offset.wellFormed_of_ofToken? h

end Location

end LayoutGrammar
