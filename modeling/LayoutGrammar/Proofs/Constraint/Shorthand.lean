import LayoutGrammar.Proofs.Constraint.Precedence
import LayoutGrammar.Proofs.Text.Lowercase
import Mathlib.Data.List.Forall2

/-!
# Shorthands that say the same

Pairs of a key and a token can be written as one map, as a sequence of maps and bare keys, or as one
text (`Writes`). Each form comes down to a list of entries that tells the pairs in their order
(`Tells`): every entry has the key of its pair, blanks at its ends and case aside, and gives the
same offset; a pair without a key may be left out. Lists that tell the same pairs lead to contests
with the same readings (`readings_foldl`), by induction on the pairs, and what is read from a
contest, or fails to be, is a matter of its readings.
-/

namespace LayoutGrammar

open Text

/-- A key with its token. -/
abbrev Pair := String × String

/-! ## Forms -/

/-- A token that may be left out, since it is blank or a zero. -/
def Omissible (token : String) : Prop := isBlankText token = true ∨ token = "0"

instance (token : String) : Decidable (Omissible token) := inferInstanceAs (Decidable (_ ∨ _))

/-- The map of some pairs. -/
def mapOf (pairs : List Pair) : Value := .map (pairs.map fun p => (.str p.1, .str p.2))

/-- Sequences of maps and bare keys that give some pairs in their order. -/
inductive Items : List Pair → List Value → Prop
  | nil : Items [] []
  | bare {key token : String} {pairs : List Pair} {items : List Value} (h : Omissible token) :
      Items pairs items → Items ((key, token) :: pairs) (.str key :: items)
  | map (group : List Pair) {pairs : List Pair} {items : List Value} :
      Items pairs items → Items (group ++ pairs) (mapOf group :: items)

/-- The parts of a text that a pair can be written as. -/
inductive Part : Pair → String → Prop
  | bare {key token : String} (h : Omissible token) : Part (key, token) key
  | pair {key token : String} : Part (key, token) (key ++ ":" ++ token)

/-- The raw values that some pairs can be written as. -/
inductive Writes (pairs : List Pair) : Value → Prop
  | map : Writes pairs (mapOf pairs)
  | list {items : List Value} (h : Items pairs items) : Writes pairs (.list items)
  | tuple {items : List Value} (h : Items pairs items) : Writes pairs (.tuple items)
  | text {parts : List String} (h : List.Forall₂ Part pairs parts) :
      Writes pairs (.str (",".intercalate parts))

/-- A pair that no separator of the text form breaks. -/
structure Separable (pair : Pair) : Prop where
  comma_key : ',' ∉ pair.1.toList
  colon_key : ':' ∉ pair.1.toList
  comma_token : ',' ∉ pair.2.toList

instance (pair : Pair) : Decidable (Separable pair) :=
  decidable_of_iff (',' ∉ pair.1.toList ∧ ':' ∉ pair.1.toList ∧ ',' ∉ pair.2.toList)
    ⟨fun h => ⟨h.1, h.2.1, h.2.2⟩, fun h => ⟨h.comma_key, h.colon_key, h.comma_token⟩⟩

/-! ## Entries that tell pairs -/

/-- An entry has the key of a pair and gives the same offset. -/
structure Says (pair : Pair) (entry : String × Value) : Prop where
  key : lowered (stripped entry.1) = lowered (stripped pair.1)
  value : Offset.ofValue? entry.2 = Offset.ofValue? (.str pair.2)

/-- Entries that say some pairs in their order; a pair without a key may be missing. -/
inductive Tells : List Pair → List (String × Value) → Prop
  | nil : Tells [] []
  | skip {pair : Pair} {pairs : List Pair} {entries : List (String × Value)}
      (h : lowered (stripped pair.1) = "") : Tells pairs entries → Tells (pair :: pairs) entries
  | cons {pair : Pair} {entry : String × Value} {pairs : List Pair}
      {entries : List (String × Value)} (h : Says pair entry) :
      Tells pairs entries → Tells (pair :: pairs) (entry :: entries)

/-- The entries of the map of some pairs. -/
def entriesOf (pairs : List Pair) : List (String × Value) := pairs.map fun p => (p.1, .str p.2)

namespace Tells

variable {pairs pairs' : List Pair} {entries entries' : List (String × Value)}

theorem of_entriesOf (pairs : List Pair) : Tells pairs (entriesOf pairs) := by
  induction pairs with
  | nil => exact .nil
  | cons pair rest ih => exact .cons ⟨rfl, rfl⟩ ih

theorem append (h : Tells pairs entries) (h' : Tells pairs' entries') :
    Tells (pairs ++ pairs') (entries ++ entries') := by
  induction h with
  | nil => exact h'
  | skip hkey _ ih => exact .skip hkey ih
  | cons hsays _ ih => exact .cons hsays ih

theorem keys_sublist (h : Tells pairs entries) :
    (entries.map fun e => lowered (stripped e.1)).Sublist
      (pairs.map fun p => lowered (stripped p.1)) := by
  induction h with
  | nil => exact .slnil
  | skip _ _ ih => exact ih.cons _
  | cons hsays _ ih =>
    rw [List.map_cons, List.map_cons, hsays.key]
    exact ih.cons_cons _

theorem distinctKeys (h : Tells pairs entries)
    (hd : (pairs.map fun p => lowered (stripped p.1)).Nodup) : DistinctKeys entries := by
  have hplain := h.keys_sublist.nodup hd
  rw [distinctKeys_iff_nodup]
  refine List.Nodup.of_map (fun key => lowered (stripped key)) ?_
  rwa [List.map_map]

end Tells

/-! ## The entries of each form -/

namespace Shorthand

theorem splitCommas_eq_splitOn (cs : List Char) : splitCommas cs = cs.splitOn ',' := by
  induction cs with
  | nil => rw [splitCommas, List.splitOn_nil]
  | cons c rest ih =>
    rw [List.splitOn_cons_eq_if_modifyHead, ← ih]
    by_cases h : c = ','
    · subst h
      rfl
    · rw [if_neg (by simpa using h), splitCommas]
      · cases hrest : splitCommas rest with
        | nil => exact absurd (ih.symm.trans hrest) (List.splitOn_ne_nil ',' rest)
        | cons part parts => rfl
      · exact h

theorem ofValue?_of_omissible {token : String} (h : Omissible token) :
    Offset.ofValue? (.str token) = some .zero := by
  rcases h with hblank | rfl
  · rw [Offset.ofValue?, strip_of_blank (List.all_eq_true.1 hblank)]
    rfl
  · rfl

theorem says_of_omissible {key key' token : String} (h : Omissible token)
    (hkey : lowered (stripped key') = lowered (stripped key)) :
    Says (key, token) (key', .str "0") :=
  ⟨hkey, (ofValue?_of_omissible h).symm⟩

theorem tells_items {pairs : List Pair} {items : List Value} (h : Items pairs items) :
    Tells pairs (items.flatMap itemEntries) := by
  induction h with
  | nil => exact .nil
  | bare homissible _ ih => exact .cons (says_of_omissible homissible (lowered_stripped _)) ih
  | map group _ ih =>
    have hgroup : itemEntries (mapOf group) = entriesOf group := by
      simp [itemEntries, mapOf, ofMap, entriesOf, Value.text]
    rw [List.flatMap_cons, hgroup]
    exact (Tells.of_entriesOf group).append ih

/-- The entries of one part of a text. -/
def partEntries (part : List Char) : List (String × Value) :=
  if (strip part).isEmpty then [] else [readPart (strip part)]

theorem ofText_eq_flatMap (s : String) : ofText s = (splitCommas s.toList).flatMap partEntries := by
  unfold ofText
  induction splitCommas s.toList with
  | nil => rfl
  | cons part rest ih =>
    rw [List.map_cons, List.filterMap_cons, List.flatMap_cons, ← ih, partEntries]
    cases (strip part).isEmpty <;> rfl

theorem bne_colon {key : List Char} (h : ':' ∉ key) : ∀ c ∈ key, (c != ':') = true :=
  fun _ hc => bne_iff_ne.2 (ne_of_mem_of_not_mem hc h)

theorem readPart_of_key {key : List Char} (h : ':' ∉ key) :
    readPart key = (String.ofList (strip key), .str "0") := by
  rw [readPart, List.takeWhile_eq_self_iff.2 (bne_colon h),
    List.dropWhile_eq_nil_iff.2 (bne_colon h)]
  rfl

theorem readPart_of_pair {key : List Char} (h : ':' ∉ key) (token : List Char) :
    readPart (key ++ ':' :: token) = (String.ofList (strip key),
      .str (if (strip token).isEmpty then "0" else String.ofList (strip token))) := by
  rw [readPart, List.takeWhile_append_of_pos (bne_colon h),
    List.dropWhile_append_of_pos (bne_colon h), List.takeWhile_cons_of_neg (by decide),
    List.dropWhile_cons_of_neg (by decide), List.append_nil]
  rfl

/-- A token gives the same offset without the blanks at its ends, and the one of a zero if nothing
is left. -/
theorem ofValue?_stripped_token (token : String) :
    Offset.ofValue? (.str (if (strip token.toList).isEmpty then "0"
      else String.ofList (strip token.toList))) = Offset.ofValue? (.str token) := by
  rw [Offset.ofValue?_str, Offset.ofValue?_str]
  split
  · next hempty =>
    rw [List.isEmpty_iff.1 hempty]
    rfl
  · rw [String.toList_ofList, strip_strip]

theorem tells_part {pair : Pair} {part : String} (hsep : Separable pair) (h : Part pair part) :
    Tells [pair] (partEntries part.toList) := by
  cases h with
  | bare homissible =>
    unfold partEntries
    split
    · next hempty =>
      -- nothing is left of the key, and the part is skipped
      refine .skip ?_ .nil
      rw [stripped, List.isEmpty_iff.1 hempty]
      rfl
    · have hcolon : ':' ∉ strip part.toList := fun hmem => hsep.colon_key (mem_of_mem_strip hmem)
      rw [readPart_of_key hcolon]
      refine .cons (says_of_omissible homissible ?_) .nil
      rw [stripped, String.toList_ofList, strip_strip, strip_strip, stripped]
  | @pair key token =>
    have hpart : (key ++ ":" ++ token).toList = key.toList ++ ':' :: token.toList := by simp
    have hcolon : ':' ∉ stripLeft key.toList := fun hmem =>
      hsep.colon_key ((List.dropWhile_suffix isBlank).subset hmem)
    rw [partEntries, hpart, strip_append_cons (by decide), if_neg (by simp),
      readPart_of_pair hcolon, strip_stripLeft, strip_stripRight]
    refine .cons ⟨?_, ofValue?_stripped_token token⟩ .nil
    rw [stripped, String.toList_ofList, strip_strip, stripped]

theorem tells_parts {pairs : List Pair} {parts : List String} (hsep : ∀ p ∈ pairs, Separable p)
    (h : List.Forall₂ Part pairs parts) :
    Tells pairs ((parts.map String.toList).flatMap partEntries) := by
  induction h with
  | nil => exact .nil
  | cons hpart _ ih =>
    rw [List.map_cons, List.flatMap_cons]
    obtain ⟨hhead, hrest⟩ := List.forall_mem_cons.1 hsep
    exact (tells_part hhead hpart).append (ih hrest)

theorem comma_part {pair : Pair} {part : String} (hsep : Separable pair) (h : Part pair part) :
    ',' ∉ part.toList := by
  cases h with
  | bare => exact hsep.comma_key
  | pair => simpa using ⟨hsep.comma_key, hsep.comma_token⟩

theorem comma_parts {pairs : List Pair} {parts : List String} (hsep : ∀ p ∈ pairs, Separable p)
    (h : List.Forall₂ Part pairs parts) : ∀ part ∈ parts, ',' ∉ part.toList := by
  induction h with
  | nil => exact nofun
  | cons hpart _ ih =>
    obtain ⟨hhead, hrest⟩ := List.forall_mem_cons.1 hsep
    exact List.forall_mem_cons.2 ⟨comma_part hhead hpart, ih hrest⟩

theorem ofText_intercalate {parts : List String} (h : ∀ part ∈ parts, ',' ∉ part.toList) :
    ofText (",".intercalate parts) = (parts.map String.toList).flatMap partEntries := by
  rw [ofText_eq_flatMap, splitCommas_eq_splitOn, String.toList_intercalate]
  cases parts with
  | nil => rfl
  | cons part rest =>
    have hcomma : ∀ cs ∈ (part :: rest).map String.toList, ',' ∉ cs := by simpa using h
    have hsplit := List.splitOn_intercalate ',' hcomma (List.cons_ne_nil _ _)
    exact congrArg (List.flatMap partEntries) hsplit

/-- The entries of every form tell the pairs. -/
theorem tells_rawEntries {pairs : List Pair} {raw : Value} (hsep : ∀ p ∈ pairs, Separable p)
    (h : Writes pairs raw) : Tells pairs (rawEntries raw) := by
  cases h with
  | map =>
    have hmap : rawEntries (mapOf pairs) = entriesOf pairs := by
      simp [rawEntries, mapOf, ofMap, entriesOf, Value.text]
    rw [hmap]
    exact Tells.of_entriesOf pairs
  | list hitems => exact tells_items hitems
  | tuple hitems => exact tells_items hitems
  | text hparts =>
    rw [rawEntries, ofText_intercalate (comma_parts hsep hparts)]
    exact tells_parts hsep hparts

end Shorthand

namespace Location

/-! ## Readings of a contest -/

/-- What a contest holds once the values are read. -/
def Contest.readings (contest : Contest) : Sides (Option (Spelling × Option Offset)) :=
  contest.map (Option.map fun held => (held.1, Offset.ofValue? held.2))

section

variable {contest contest' : Contest} {side : Side} {spelling : Spelling}

theorem Contest.get_readings (contest : Contest) (side : Side) :
    contest.readings.get side =
      (contest.get side).map fun held => (held.1, Offset.ofValue? held.2) := Sides.get_map _ _ _

theorem Contest.get_readings_step {key : String} (h : Spells key spelling side) (v : Value) :
    (contest.step (.str key, v)).readings.get side =
      if (contest.readings.get side).all fun held => held.1.rank ≤ spelling.rank then
        some (spelling, Offset.ofValue? v)
      else contest.readings.get side := by
  rw [Contest.get_readings, Contest.get_readings,
    Contest.get_step_of_spells (e := (.str key, v)) h, Option.all_map, apply_ite (Option.map _)]
  rfl

theorem Contest.get_readings_step_of_not {key : String}
    (h : ∀ spelling, ¬ Spells key spelling side) (contest : Contest) (v : Value) :
    (contest.step (.str key, v)).readings.get side = contest.readings.get side := by
  rw [Contest.get_readings, Contest.get_readings,
    Contest.get_step_of_not_spells (e := (.str key, v)) h]

/-- Entries with the same key and the same offset keep contests with the same readings so. -/
theorem Contest.readings_step (h : contest.readings = contest'.readings) {key key' : String}
    (hkey : lowered (stripped key) = lowered (stripped key')) {v v' : Value}
    (hvalue : Offset.ofValue? v = Offset.ofValue? v') :
    (contest.step (.str key, v)).readings = (contest'.step (.str key', v')).readings := by
  have hspells : ∀ spelling side, Spells key spelling side ↔ Spells key' spelling side := by
    intro spelling side
    rw [Spells, Spells, hkey]
  refine Sides.ext_get fun side => ?_
  by_cases hside : ∃ spelling, Spells key spelling side
  · obtain ⟨spelling, hspelling⟩ := hside
    rw [Contest.get_readings_step hspelling,
      Contest.get_readings_step ((hspells _ _).1 hspelling), h, hvalue]
  · have hnot : ∀ spelling, ¬ Spells key spelling side := fun s hs => hside ⟨s, hs⟩
    have hnot' : ∀ spelling, ¬ Spells key' spelling side := fun s hs =>
      hnot s ((hspells _ _).2 hs)
    rw [Contest.get_readings_step_of_not hnot, Contest.get_readings_step_of_not hnot', h]

theorem Contest.step_of_empty_key {key : String} (h : lowered (stripped key) = "")
    (contest : Contest) (v : Value) : contest.step (.str key, v) = contest := by
  have hkey : readSideKey? key = none := by
    rw [readSideKey?_eq_valueAt?, h]
    rfl
  rw [Contest.step, Value.text_str, hkey]

end

/-- Entries as they compete. -/
def competitors (entries : List (String × Value)) : List (Value × Value) :=
  entries.map fun e => (.str e.1, e.2)

theorem foldl_competitors_cons (contest : Contest) (e : String × Value)
    (entries : List (String × Value)) :
    (competitors (e :: entries)).foldl Contest.step contest =
      (competitors entries).foldl Contest.step (contest.step (.str e.1, e.2)) := by
  rw [competitors, List.map_cons, List.foldl_cons, competitors]

theorem entriesOf_cons (pair : Pair) (pairs : List Pair) :
    entriesOf (pair :: pairs) = (pair.1, .str pair.2) :: entriesOf pairs := rfl

/-- Entries that tell some pairs lead to the readings that the pairs themselves lead to. -/
theorem readings_foldl {pairs : List Pair} {entries : List (String × Value)}
    (h : Tells pairs entries) {contest contest' : Contest}
    (hreadings : contest.readings = contest'.readings) :
    ((competitors entries).foldl Contest.step contest).readings =
      ((competitors (entriesOf pairs)).foldl Contest.step contest').readings := by
  -- the contests so far need not be the same, only their readings
  induction h generalizing contest contest' with
  | nil => exact hreadings
  | skip hkey _ ih =>
    rw [entriesOf_cons, foldl_competitors_cons, Contest.step_of_empty_key hkey]
    exact ih hreadings
  | cons hsays _ ih =>
    rw [entriesOf_cons, foldl_competitors_cons, foldl_competitors_cons]
    exact ih (Contest.readings_step hreadings hsays.key hsays.value)

/-! ## Locations by readings -/

/-- The location of some readings; what is malformed gives no distance. -/
def ofReadings (readings : Sides (Option (Spelling × Option Offset))) : Location :=
  readings.map (Option.map fun held => held.2.getD .zero)

/-- No reading is malformed. -/
def Readable (readings : Sides (Option (Spelling × Option Offset))) : Prop :=
  ∀ side, ∀ held ∈ readings.get side, held.2.isSome

section

variable {entries : List (Value × Value)}

theorem result_ofEntries_lenient (entries : List (Value × Value)) :
    (ofEntries false entries).result = .ok (ofReadings (contest entries).readings) := by
  refine result_ofEntries_eq_ok_iff.2 fun side => ?_
  rw [result_readWinner, ofReadings, Sides.get_map, Contest.get_readings, Option.map_map]
  rfl

theorem result_ofEntries_of_readable (h : Readable (contest entries).readings) :
    (ofEntries true entries).result = .ok (ofReadings (contest entries).readings) := by
  refine result_ofEntries_eq_ok_iff.2 fun side => ?_
  have hside := h side
  rw [Contest.get_readings] at hside
  rw [ofReadings, Sides.get_map, Contest.get_readings]
  cases hwinner : (contest entries).get side with
  | none => rfl
  | some held =>
    obtain ⟨spelling, v⟩ := held
    rw [hwinner] at hside
    obtain ⟨o, ho⟩ : ∃ o, Offset.ofValue? v = some o := Option.isSome_iff_exists.1 (hside _ rfl)
    rw [result_readWinner_some, Offset.result_read_strict, Option.map_some, Option.map_some, ho]
    rfl

theorem exists_error_of_not_readable (h : ¬ Readable (contest entries).readings) :
    ∃ token, (ofEntries true entries).result = .error (.malformedToken token) := by
  unfold Readable at h
  push Not at h
  obtain ⟨side, held, hheld, hmalformed⟩ := h
  rw [Option.mem_def, Contest.get_readings, Option.map_eq_some_iff] at hheld
  obtain ⟨⟨spelling, v⟩, hwinner, rfl⟩ := hheld
  have hwins := get_contest_eq_some_iff.1 hwinner
  cases hresult : (ofEntries true entries).result with
  | ok l =>
    have hnone := Option.not_isSome_iff_eq_none.1 hmalformed
    exact absurd hresult (ne_ok_of_wins hwins hnone l)
  | error e =>
    obtain ⟨_, _, token, -, -, rfl⟩ := exists_wins_of_error hresult
    exact ⟨token, rfl⟩

end

theorem result_ofValue_of_distinctKeys {raw : Value} (h : DistinctKeys (Shorthand.rawEntries raw))
    (strict : Bool) : (ofValue strict raw).result =
      (ofEntries strict (competitors (Shorthand.rawEntries raw))).result := by
  rw [ofValue, Logged.result_bind, Shorthand.result_flatten, ok_bind, Table.entries_ofList h]
  rfl

/-- **All ways to write some pairs are read alike.** The keys have no separators and differ, blanks
at their ends and case aside, and the tokens have no comma. Reading gives the same location for
every form; strict reading does so for all of them or finds a malformed token in each. -/
theorem ofValue_of_writes {pairs : List Pair} (hsep : ∀ p ∈ pairs, Separable p)
    (hd : (pairs.map fun p => lowered (stripped p.1)).Nodup) :
    ∃ l, (∀ raw, Writes pairs raw → (ofValue false raw).result = .ok l) ∧
      ((∀ raw, Writes pairs raw → (ofValue true raw).result = .ok l) ∨
        ∀ raw, Writes pairs raw →
          ∃ token, (ofValue true raw).result = .error (.malformedToken token)) := by
  let readings := (contest (competitors (entriesOf pairs))).readings
  have hwrites : ∀ raw, Writes pairs raw → ∃ entries, (contest entries).readings = readings ∧
      ∀ strict, (ofValue strict raw).result = (ofEntries strict entries).result := by
    intro raw hraw
    have htells := Shorthand.tells_rawEntries hsep hraw
    exact ⟨competitors (Shorthand.rawEntries raw), readings_foldl htells rfl,
      result_ofValue_of_distinctKeys (htells.distinctKeys hd)⟩
  refine ⟨ofReadings readings, fun raw hraw => ?_, ?_⟩
  · obtain ⟨entries, hreadings, hresult⟩ := hwrites raw hraw
    rw [hresult, result_ofEntries_lenient, hreadings]
  · by_cases hreadable : Readable readings
    · refine .inl fun raw hraw => ?_
      obtain ⟨entries, hreadings, hresult⟩ := hwrites raw hraw
      rw [hresult, ← hreadings]
      exact result_ofEntries_of_readable (hreadings ▸ hreadable)
    · refine .inr fun raw hraw => ?_
      obtain ⟨entries, hreadings, hresult⟩ := hwrites raw hraw
      rw [hresult]
      exact exists_error_of_not_readable (hreadings ▸ hreadable)

theorem ofValue_of_writes_keys :
    let pairs : List Pair := [(" LEFT", " "), ("padding-top", "2+"), ("left side", "?")]
    let l : Location := ⟨some (.atLeast 2), none, none, some .zero⟩
    (ofValue true (mapOf pairs)).result = .ok l ∧
      (ofValue true (.list [.str " LEFT", mapOf [], mapOf pairs.tail])).result = .ok l ∧
      (ofValue true (.str (",".intercalate [" LEFT", "padding-top:2+", "left side:?"]))).result =
        .ok l ∧
      (ofValue false (.str (",".intercalate [" LEFT: ", "padding-top:2+", "left side:?"]))).result =
        .ok l := by
  intro pairs l
  have hsep : ∀ p ∈ pairs, Separable p := by decide
  have hread : (ofValue true (mapOf pairs)).result = .ok l := rfl
  have hlenient : (ofValue false (mapOf pairs)).result = .ok l := rfl
  obtain ⟨l', hsame, hstrict⟩ := ofValue_of_writes hsep (by decide)
  obtain rfl := Except.ok.inj (hlenient.symm.trans (hsame _ .map))
  have hstrict : ∀ raw, Writes pairs raw → (ofValue true raw).result = .ok l := by
    refine hstrict.resolve_right fun herror => ?_
    obtain ⟨token, htoken⟩ := herror _ .map
    rw [hread] at htoken
    cases htoken
  refine ⟨hread, hstrict _ (.list ?_), hstrict _ (.text ?_), hsame _ (.text ?_)⟩
  · exact .bare (by decide) (.map [] (.map pairs.tail .nil))
  · exact .cons (.bare (by decide)) (.cons .pair (.cons .pair .nil))
  · exact .cons .pair (.cons .pair (.cons .pair .nil))

end Location

end LayoutGrammar
