import LayoutGrammar.Proofs.Constraint.Location
import LayoutGrammar.Proofs.Constraint.RawOffset

/-!
# The spelling that wins a side

A key spells a side when, blanks at its ends and case aside, it is the name of the side with or
without the lead of a margin or a padding (`Spells`). Of the entries that spell a side, the last one
with the strongest spelling wins it (`Wins`). Letting the entries compete one after the other comes
to the same (`get_contest_eq_some_iff`), by induction on the entries from the back: the new last
entry wins or changes nothing. The location that is read holds what the winners give, and reading
fails at a malformed winner only (`ofEntries_follows_precedence`). Where no spelling of a side is
used twice, the winner does not depend on the order (`wins_iff_of_spelledOnce`).
-/

namespace LayoutGrammar

open Text

/-! ## Spellings -/

theorem Spelling.rank_injective : Function.Injective rank := by
  intro s t h
  cases s <;> cases t <;> first | rfl | cases h

/-- A key stands for a side in a spelling. -/
def Spells (key : String) (spelling : Spelling) (side : Side) : Prop :=
  lowered (stripped key) = sideKey spelling side

instance (key : String) (spelling : Spelling) (side : Side) :
    Decidable (Spells key spelling side) :=
  inferInstanceAs (Decidable (_ = _))

theorem sideKeys_distinct : DistinctKeys sideKeys := by
  rw [distinctKeys_iff_nodup]
  decide

theorem mem_sideKeys_iff {plain : String} {spelling : Spelling} {side : Side} :
    (plain, spelling, side) ∈ sideKeys ↔ plain = sideKey spelling side := by
  unfold sideKeys
  simp only [List.mem_flatMap, List.mem_map, Prod.mk.injEq]
  constructor
  · rintro ⟨_, -, _, -, rfl, rfl, rfl⟩
    rfl
  · rintro rfl
    exact ⟨spelling, by cases spelling <;> decide, side, side.mem_all, rfl, rfl, rfl⟩

theorem readSideKey?_eq_valueAt? (key : String) :
    readSideKey? key = valueAt? (lowered (stripped key)) sideKeys := by
  unfold readSideKey?
  dsimp only
  generalize sideKeys = keys
  induction keys with
  | nil => rfl
  | cons e rest ih =>
    rw [List.find?_cons, valueAt?]
    cases e.1 == lowered (stripped key)
    · exact ih
    · rfl

theorem readSideKey?_eq_some_iff {key : String} {spelling : Spelling} {side : Side} :
    readSideKey? key = some (spelling, side) ↔ Spells key spelling side := by
  rw [readSideKey?_eq_valueAt?, valueAt?_eq_some_iff sideKeys_distinct, mem_sideKeys_iff, Spells]

theorem Spells.unique {key : String} {spelling spelling' : Spelling} {side side' : Side}
    (h : Spells key spelling side) (h' : Spells key spelling' side') :
    spelling = spelling' ∧ side = side' := by
  rw [← readSideKey?_eq_some_iff] at h h'
  exact Prod.mk.inj (Option.some.inj (h.symm.trans h'))

namespace Location

/-! ## Winners -/

/-- The entries that spell a side in a given spelling. -/
def spelled (spelling : Spelling) (side : Side) (entries : List (Value × Value)) :
    List (Value × Value) :=
  entries.filter fun e => Spells e.1.text spelling side

/-- A spelling of a side is as strong as any that some entries have. -/
def Strongest (side : Side) (entries : List (Value × Value)) (spelling : Spelling) : Prop :=
  ∀ e ∈ entries, ∀ other, Spells e.1.text other side → other.rank ≤ spelling.rank

/-- The last entry with the strongest spelling of a side has a given spelling and value. -/
structure Wins (side : Side) (entries : List (Value × Value)) (spelling : Spelling)
    (v : Value) : Prop where
  strongest : Strongest side entries spelling
  last : ∃ key, (spelled spelling side entries).getLast? = some (key, v)

section

variable {side : Side} {entries : List (Value × Value)} {spelling spelling' : Spelling}
  {v v' : Value}

theorem mem_spelled {e : Value × Value} :
    e ∈ spelled spelling side entries ↔ e ∈ entries ∧ Spells e.1.text spelling side := by
  rw [spelled, List.mem_filter, decide_eq_true_eq]

theorem spelled_concat (e : Value × Value) :
    spelled spelling side (entries ++ [e]) =
      if Spells e.1.text spelling side then spelled spelling side entries ++ [e]
      else spelled spelling side entries := by
  unfold spelled
  split <;> simp [*]

theorem strongest_concat {e : Value × Value} :
    Strongest side (entries ++ [e]) spelling ↔ Strongest side entries spelling ∧
      ∀ other, Spells e.1.text other side → other.rank ≤ spelling.rank := by
  unfold Strongest
  rw [List.forall_mem_append, List.forall_mem_singleton]

theorem Wins.exists_mem (h : Wins side entries spelling v) :
    ∃ key, (key, v) ∈ entries ∧ Spells key.text spelling side := by
  obtain ⟨key, hkey⟩ := h.last
  exact ⟨key, mem_spelled.1 (List.mem_of_getLast? hkey)⟩

theorem Wins.unique (h : Wins side entries spelling v) (h' : Wins side entries spelling' v') :
    spelling = spelling' ∧ v = v' := by
  have hspelling : spelling = spelling' := by
    obtain ⟨_, hmem, hspells⟩ := h.exists_mem
    obtain ⟨_, hmem', hspells'⟩ := h'.exists_mem
    exact Spelling.rank_injective
      (Nat.le_antisymm (h'.strongest _ hmem _ hspells) (h.strongest _ hmem' _ hspells'))
  subst hspelling
  obtain ⟨_, hlast⟩ := h.last
  obtain ⟨_, hlast'⟩ := h'.last
  exact ⟨rfl, (Prod.mk.inj (Option.some.inj (hlast.symm.trans hlast'))).2⟩

/-- A new last entry that is as strong as all others wins. -/
theorem Wins.of_last {key : Value} (hkey : Spells key.text spelling side)
    (h : Strongest side entries spelling) : Wins side (entries ++ [(key, v)]) spelling v := by
  refine ⟨strongest_concat.2 ⟨h, fun other hother => ?_⟩, key, ?_⟩
  · rw [(hother.unique hkey).1]
  · rw [spelled_concat, if_pos hkey]
    exact List.getLast?_concat

/-- A new last entry that is weaker than the winner changes nothing. -/
theorem Wins.concat (h : Wins side entries spelling v) {e : Value × Value}
    (hweaker : ∀ other, Spells e.1.text other side → other.rank < spelling.rank) :
    Wins side (entries ++ [e]) spelling v := by
  have hnot : ¬ Spells e.1.text spelling side := fun hspells =>
    Nat.lt_irrefl _ (hweaker _ hspells)
  refine ⟨strongest_concat.2 ⟨h.strongest, fun other hother => (hweaker other hother).le⟩, ?_⟩
  rw [spelled_concat, if_neg hnot]
  exact h.last

end

/-! ## The contest -/

section

variable {contest : Contest} {e : Value × Value} {side : Side} {spelling : Spelling}

theorem Contest.get_step_of_not_spells (h : ∀ spelling, ¬ Spells e.1.text spelling side) :
    (contest.step e).get side = contest.get side := by
  unfold Contest.step
  split
  · rfl
  · next spelling' side' hkey =>
    have hne : side ≠ side' := by
      rintro rfl
      exact h _ (readSideKey?_eq_some_iff.1 hkey)
    split
    · rw [Sides.get_set, if_neg hne]
    · rfl

theorem Contest.get_step_of_spells (h : Spells e.1.text spelling side) :
    (contest.step e).get side =
      if (contest.get side).all fun held => held.1.rank ≤ spelling.rank then some (spelling, e.2)
      else contest.get side := by
  unfold Contest.step
  rw [readSideKey?_eq_some_iff.2 h]
  dsimp only
  rw [apply_ite (Sides.get · side), Sides.get_set_self]

end

/-- The contest after all of some entries have competed. -/
def contest (entries : List (Value × Value)) : Contest := entries.foldl Contest.step Contest.empty

theorem contest_concat (entries : List (Value × Value)) (e : Value × Value) :
    contest (entries ++ [e]) = (contest entries).step e := by
  unfold contest
  rw [List.foldl_append, List.foldl_cons, List.foldl_nil]

section

variable {side : Side} {entries : List (Value × Value)} {spelling : Spelling} {v : Value}

/-- What a contest holds at a side: the winner, or nothing as long as no entry spells the side. -/
def Settled (side : Side) (entries : List (Value × Value)) : Option (Spelling × Value) → Prop
  | none => ∀ e ∈ entries, ∀ spelling, ¬ Spells e.1.text spelling side
  | some (spelling, v) => Wins side entries spelling v

theorem settled_step {held : Contest} (h : Settled side entries (held.get side))
    (e : Value × Value) : Settled side (entries ++ [e]) ((held.step e).get side) := by
  by_cases hspells : ∃ spelling, Spells e.1.text spelling side
  · obtain ⟨spelling, hspelling⟩ := hspells
    rw [Contest.get_step_of_spells hspelling]
    cases hheld : held.get side with
    | none =>
      rw [hheld] at h
      exact Wins.of_last hspelling fun e' he' other hother => absurd hother (h e' he' other)
    | some winner =>
      obtain ⟨held, v⟩ := winner
      rw [hheld] at h
      rw [Option.all_some]
      by_cases hle : held.rank ≤ spelling.rank
      · -- whatever the old winner beat, the new entry beats
        rw [if_pos (decide_eq_true hle)]
        exact Wins.of_last hspelling fun e' he' other hother =>
          (h.strongest e' he' other hother).trans hle
      · rw [if_neg (by rwa [decide_eq_true_eq])]
        refine Wins.concat h fun other hother => ?_
        rw [(hother.unique hspelling).1]
        exact Nat.lt_of_not_le hle
  · have hnot : ∀ spelling, ¬ Spells e.1.text spelling side := fun s hs => hspells ⟨s, hs⟩
    rw [Contest.get_step_of_not_spells hnot]
    cases hheld : held.get side with
    | none =>
      rw [hheld] at h
      exact List.forall_mem_append.2 ⟨h, List.forall_mem_singleton.2 hnot⟩
    | some winner =>
      rw [hheld] at h
      exact Wins.concat h fun other hother => absurd hother (hnot other)

theorem settled_contest (side : Side) (entries : List (Value × Value)) :
    Settled side entries ((contest entries).get side) := by
  induction entries using List.reverseRecOn with
  | nil => cases side <;> exact nofun
  | append_singleton entries e ih =>
    rw [contest_concat]
    exact settled_step ih e

theorem get_contest_eq_none_iff :
    (contest entries).get side = none ↔
      ∀ e ∈ entries, ∀ spelling, ¬ Spells e.1.text spelling side := by
  have hsettled := settled_contest side entries
  cases h : (contest entries).get side with
  | none =>
    rw [h] at hsettled
    exact iff_of_true rfl hsettled
  | some winner =>
    rw [h] at hsettled
    obtain ⟨_, hmem, hspells⟩ := hsettled.exists_mem
    exact iff_of_false nofun fun hnot => hnot _ hmem _ hspells

/-- The contest holds the winner of every side. -/
theorem get_contest_eq_some_iff :
    (contest entries).get side = some (spelling, v) ↔ Wins side entries spelling v := by
  have hsettled := settled_contest side entries
  constructor
  · intro h
    rw [h] at hsettled
    exact hsettled
  · intro hwins
    cases h : (contest entries).get side with
    | none =>
      obtain ⟨_, hmem, hspells⟩ := hwins.exists_mem
      exact absurd hspells (get_contest_eq_none_iff.1 h _ hmem _)
    | some winner =>
      rw [h] at hsettled
      obtain ⟨rfl, rfl⟩ := hwins.unique hsettled
      rfl

end

/-! ## Reading the winners -/

section

variable {strict : Bool} {entries : List (Value × Value)}

theorem result_readWinner_some (spelling : Spelling) (v : Value) :
    (readWinner strict (some (spelling, v))).result = some <$> (Offset.read strict v).result := by
  rw [readWinner, Logged.result_bind]
  cases (Offset.read strict v).result <;> rfl

theorem result_ofEntries (strict : Bool) (entries : List (Value × Value)) :
    (ofEntries strict entries).result = (do
      let top ← (readWinner strict ((contest entries).get .top)).result
      let right ← (readWinner strict ((contest entries).get .right)).result
      let bottom ← (readWinner strict ((contest entries).get .bottom)).result
      let left ← (readWinner strict ((contest entries).get .left)).result
      pure ⟨top, right, bottom, left⟩) := by
  unfold ofEntries
  simp only [Logged.result_bind, Logged.result_foldlM_of_ok Contest.result_enter,
    Logged.result_pure]
  rfl

theorem result_ofEntries_eq_ok_iff {l : Location} :
    (ofEntries strict entries).result = .ok l ↔
      ∀ side, (readWinner strict ((contest entries).get side)).result = .ok (l.get side) := by
  rw [result_ofEntries]
  constructor
  · intro h
    obtain ⟨top, htop, h⟩ := except_bind_ok.1 h
    obtain ⟨right, hright, h⟩ := except_bind_ok.1 h
    obtain ⟨bottom, hbottom, h⟩ := except_bind_ok.1 h
    obtain ⟨left, hleft, ⟨⟩⟩ := except_bind_ok.1 h
    intro side
    cases side with
    | top => exact htop
    | right => exact hright
    | bottom => exact hbottom
    | left => exact hleft
  · intro h
    rw [h .top, h .right, h .bottom, h .left]
    rfl

/-- Reading fails with the error of some winner. -/
theorem exists_readWinner_error {e : Error} (h : (ofEntries strict entries).result = .error e) :
    ∃ side, (readWinner strict ((contest entries).get side)).result = .error e := by
  rw [result_ofEntries] at h
  rcases except_bind_error.1 h with htop | ⟨_, -, h⟩
  · exact ⟨.top, htop⟩
  rcases except_bind_error.1 h with hright | ⟨_, -, h⟩
  · exact ⟨.right, hright⟩
  rcases except_bind_error.1 h with hbottom | ⟨_, -, h⟩
  · exact ⟨.bottom, hbottom⟩
  rcases except_bind_error.1 h with hleft | ⟨_, -, ⟨⟩⟩
  exact ⟨.left, hleft⟩

/-- A side is read from the value of its winner, and stays free without one. -/
theorem get_of_ofEntries {l : Location} (h : (ofEntries strict entries).result = .ok l)
    (side : Side) :
    (l.get side = none ↔ ∀ e ∈ entries, ∀ spelling, ¬ Spells e.1.text spelling side) ∧
      ∀ o, l.get side = some o ↔
        ∃ spelling v, Wins side entries spelling v ∧ (Offset.read strict v).result = .ok o := by
  have hread := result_ofEntries_eq_ok_iff.1 h side
  rw [← get_contest_eq_none_iff]
  simp only [← get_contest_eq_some_iff]
  cases hwinner : (contest entries).get side with
  | none =>
    rw [hwinner] at hread
    obtain hfree := Except.ok.inj hread
    rw [← hfree]
    exact ⟨iff_of_true rfl rfl, fun o => iff_of_false nofun nofun⟩
  | some winner =>
    obtain ⟨spelling, v⟩ := winner
    rw [hwinner, result_readWinner_some] at hread
    obtain ⟨o, ho, hget⟩ := except_map_ok.1 hread
    rw [hget]
    refine ⟨iff_of_false nofun nofun, fun o' => ⟨?_, ?_⟩⟩
    · rintro ⟨⟩
      exact ⟨spelling, v, rfl, ho⟩
    · rintro ⟨_, _, ⟨⟩, ho'⟩
      exact congrArg some (Except.ok.inj (ho.symm.trans ho'))

/-- What strict reading fails with is a winner that is malformed. -/
theorem exists_wins_of_error {e : Error} (h : (ofEntries true entries).result = .error e) :
    ∃ side spelling v, Wins side entries spelling v ∧ Offset.ofValue? v = none ∧
      e = .malformedToken v := by
  obtain ⟨side, herror⟩ := exists_readWinner_error h
  cases hwinner : (contest entries).get side with
  | none =>
    rw [hwinner] at herror
    cases herror
  | some winner =>
    obtain ⟨spelling, v⟩ := winner
    rw [hwinner, result_readWinner_some, except_map_error, Offset.result_read_strict] at herror
    refine ⟨side, spelling, v, get_contest_eq_some_iff.1 hwinner, ?_⟩
    cases hvalue : Offset.ofValue? v with
    | some o =>
      rw [hvalue] at herror
      cases herror
    | none =>
      rw [hvalue] at herror
      exact ⟨rfl, (Except.error.inj herror).symm⟩

theorem ne_ok_of_wins {side : Side} {spelling : Spelling} {v : Value}
    (hwins : Wins side entries spelling v) (hvalue : Offset.ofValue? v = none) (l : Location) :
    (ofEntries true entries).result ≠ .ok l := by
  intro h
  have hread := result_ofEntries_eq_ok_iff.1 h side
  rw [get_contest_eq_some_iff.2 hwins, result_readWinner_some, Offset.result_read_strict,
    hvalue] at hread
  cases hread

end

/-! ## Spellings that are used once -/

/-- No two entries spell the same side in the same spelling. -/
def SpelledOnce (entries : List (Value × Value)) : Prop :=
  entries.Pairwise fun e e' => ∀ spelling side, Spells e.1.text spelling side →
    ¬ Spells e'.1.text spelling side

section

variable {entries entries' : List (Value × Value)} {side : Side} {spelling : Spelling}
  {v : Value}

theorem spelledOnce_iff : SpelledOnce entries ↔ entries.Pairwise fun e e' =>
    (readSideKey? e.1.text).isSome → readSideKey? e.1.text ≠ readSideKey? e'.1.text := by
  refine List.Pairwise.iff fun e e' => ?_
  simp only [← readSideKey?_eq_some_iff]
  cases readSideKey? e.1.text with
  | none => exact iff_of_true nofun nofun
  | some named =>
    refine ⟨fun h _ hsame => h named.1 named.2 rfl hsame.symm, ?_⟩
    rintro h spelling side ⟨⟩ hsame
    exact h rfl hsame.symm

instance (entries : List (Value × Value)) : Decidable (SpelledOnce entries) :=
  decidable_of_iff _ spelledOnce_iff.symm

theorem spelled_eq_singleton (h : SpelledOnce entries) {e : Value × Value} (he : e ∈ entries)
    (hspells : Spells e.1.text spelling side) : spelled spelling side entries = [e] := by
  have hmem : e ∈ spelled spelling side entries := mem_spelled.2 ⟨he, hspells⟩
  have honce : SpelledOnce (spelled spelling side entries) := h.sublist List.filter_sublist
  have hall : ∀ e ∈ spelled spelling side entries, Spells e.1.text spelling side :=
    fun e he => (mem_spelled.1 he).2
  generalize spelled spelling side entries = rest at hmem honce hall
  cases rest with
  | nil => cases hmem
  | cons first rest =>
    have hrest : rest = [] := List.eq_nil_iff_forall_not_mem.2 fun e' he' =>
      (List.pairwise_cons.1 honce).1 e' he' spelling side (hall _ List.mem_cons_self)
        (hall _ (List.mem_cons_of_mem _ he'))
    subst hrest
    rw [List.mem_singleton.1 hmem]

/-- Where no spelling is used twice, the entry with the strongest spelling wins, wherever it
stands. -/
theorem wins_iff_of_spelledOnce (h : SpelledOnce entries) :
    Wins side entries spelling v ↔ Strongest side entries spelling ∧
      ∃ key, (key, v) ∈ entries ∧ Spells key.text spelling side := by
  constructor
  · intro hwins
    exact ⟨hwins.strongest, hwins.exists_mem⟩
  · rintro ⟨hstrongest, key, hmem, hspells⟩
    refine ⟨hstrongest, key, ?_⟩
    rw [spelled_eq_singleton h hmem hspells]
    rfl

theorem SpelledOnce.perm (h : SpelledOnce entries) (hperm : entries'.Perm entries) :
    SpelledOnce entries' :=
  (hperm.pairwise_iff fun hnot spelling side hy hx => hnot spelling side hx hy).2 h

theorem contest_eq_of_wins_iff
    (h : ∀ side spelling v, Wins side entries' spelling v ↔ Wins side entries spelling v) :
    contest entries' = contest entries := by
  refine Sides.ext_get fun side => Option.ext fun winner => ?_
  obtain ⟨spelling, v⟩ := winner
  rw [get_contest_eq_some_iff, get_contest_eq_some_iff]
  exact h side spelling v

theorem contest_perm (h : SpelledOnce entries) (hperm : entries'.Perm entries) :
    contest entries' = contest entries := by
  refine contest_eq_of_wins_iff fun side spelling v => ?_
  rw [wins_iff_of_spelledOnce h, wins_iff_of_spelledOnce (h.perm hperm)]
  unfold Strongest
  simp only [hperm.mem_iff]

end

/-- **Each side is read from the last entry with its strongest spelling.** A side stays free exactly
when no entry spells it; strict reading fails exactly when a winner is malformed, and with that
winner; and where no spelling is used twice, the order of the entries does not matter. -/
theorem ofEntries_follows_precedence (entries : List (Value × Value)) :
    (∀ strict l, (ofEntries strict entries).result = .ok l → ∀ side,
      (l.get side = none ↔ ∀ e ∈ entries, ∀ spelling, ¬ Spells e.1.text spelling side) ∧
      ∀ o, l.get side = some o ↔
        ∃ spelling v, Wins side entries spelling v ∧ (Offset.read strict v).result = .ok o) ∧
    (∃ l, (ofEntries false entries).result = .ok l) ∧
    ((∃ e, (ofEntries true entries).result = .error e) ↔
      ∃ side spelling v, Wins side entries spelling v ∧ Offset.ofValue? v = none) ∧
    (∀ e, (ofEntries true entries).result = .error e →
      ∃ side spelling v, Wins side entries spelling v ∧ Offset.ofValue? v = none ∧
        e = .malformedToken v) ∧
    (SpelledOnce entries → ∀ strict entries', entries'.Perm entries →
      (ofEntries strict entries').result = (ofEntries strict entries).result) := by
  refine ⟨fun strict l h side => get_of_ofEntries h side, ?_, ⟨?_, ?_⟩,
    fun e h => exists_wins_of_error h, ?_⟩
  · refine ⟨ofContest (contest entries), result_ofEntries_eq_ok_iff.2 fun side => ?_⟩
    rw [result_readWinner, ofContest, Sides.get_map]
  · rintro ⟨e, h⟩
    obtain ⟨side, spelling, v, hwins, hvalue, -⟩ := exists_wins_of_error h
    exact ⟨side, spelling, v, hwins, hvalue⟩
  · rintro ⟨side, spelling, v, hwins, hvalue⟩
    cases h : (ofEntries true entries).result with
    | error e => exact ⟨e, rfl⟩
    | ok l => exact absurd h (ne_ok_of_wins hwins hvalue l)
  · intro h strict entries' hperm
    rw [result_ofEntries, result_ofEntries, contest_perm h hperm]

theorem ofEntries_follows_precedence_reversed :
    let entries : List (Value × Value) :=
      [(.str " LEFT", .str "-"), (.str "margin-left", .int 2), (.str "top", .null)]
    SpelledOnce entries ∧
      (ofEntries true entries).result = .ok ⟨some .zero, none, none, some (.exactly 2)⟩ ∧
      (ofEntries true entries.reverse).result = .ok ⟨some .zero, none, none, some (.exactly 2)⟩ ∧
      ∃ spelling v, Wins .left entries spelling v ∧
        (Offset.read true v).result = .ok (.exactly 2) := by
  intro entries
  have honce : SpelledOnce entries := by decide
  have hread : (ofEntries true entries).result =
      .ok ⟨some .zero, none, none, some (.exactly 2)⟩ := rfl
  obtain ⟨hsides, -, -, -, hperm⟩ := ofEntries_follows_precedence entries
  refine ⟨honce, hread, ?_, ((hsides true _ hread .left).2 _).1 rfl⟩
  rw [hperm honce true _ entries.reverse_perm, hread]

end Location

end LayoutGrammar
