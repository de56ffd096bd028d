import LayoutGrammar.Proofs.Constraint.OffsetText
import LayoutGrammar.Proofs.Text.Strip

/-!
# Offsets of raw values

A raw value gives a well-formed offset unless it is a map that starts below zero
(`wellFormed_iff_of_ofValue?`): integers and doubles are refused when they are negative and tokens
have no sign, but the bounds of a map are only compared with each other. An offset that starts below
zero has a text that begins with a sign, and no token does (`ofToken?_strip_text_of_neg`), so the
well-formed offsets are the ones whose text reads back. `read_wellFormed_iff` is the summary.
-/

namespace LayoutGrammar.Offset

open Text

/-! ## Bounds -/

/-- A bound that is not below a number of cells. -/
def Bound.NotBelow (n : Int) : Bound → Prop
  | .unbounded => True
  | .cells m => n ≤ m

/-- The maximum of an offset as a bound. -/
def Bound.ofMax : Option Int → Bound
  | none => .unbounded
  | some m => .cells m

theorem Bound.ofMax_surjective (b : Bound) : ∃ m, ofMax m = b := by
  cases b with
  | unbounded => exact ⟨none, rfl⟩
  | cells m => exact ⟨some m, rfl⟩

theorem Bound.notBelow_ofMax {o : Offset} : (ofMax o.max).NotBelow o.min ↔ o.Ordered := by
  unfold Ordered
  cases o.max with
  | none => exact iff_of_true trivial nofun
  | some m => exact ⟨fun h _ hm => Option.some.inj hm ▸ h, fun h => h m rfl⟩

/-- Only an integer gives a bound below zero. -/
theorem Bound.eq_int_of_ofValue? {v : Value} {n : Int} (h : ofValue? v = some (.cells n))
    (hn : n < 0) : v = .int n := by
  unfold ofValue? at h
  split at h
  · cases h
  · obtain ⟨⟩ := h
    rfl
  · split at h <;> cases h
  · split at h
    · cases h
    · dsimp only at h
      split at h
      · cases h
      · obtain ⟨⟩ := h
        exact absurd hn (Int.not_lt.2 (Int.natCast_nonneg _))
  · cases h

/-- What a map gives: its minimum, which is zero if it is missing, and a maximum that is not below
it; a missing maximum is the minimum. -/
theorem ofEntries?_eq_some_iff {entries : List (Value × Value)} {o : Offset} :
    ofEntries? entries = some o ↔
      Bound.ofValue? ((Value.field? "min" entries).getD (.int 0)) = some (.cells o.min) ∧
      (Value.field? "max" entries).elim (some (.cells o.min)) Bound.ofValue? =
        some (Bound.ofMax o.max) ∧
      o.Ordered := by
  constructor
  · intro h
    have hordered := ordered_of_ofEntries? h
    unfold ofEntries? at h
    split at h
    · next low hlow =>
      split at h
      · next high hhigh =>
        split at h
        · cases h
        · obtain ⟨⟩ := h
          exact ⟨hlow, hhigh, hordered⟩
      · next hhigh =>
        obtain ⟨⟩ := h
        exact ⟨hlow, hhigh, hordered⟩
      · cases h
    · cases h
  · rintro ⟨hlow, hhigh, hordered⟩
    obtain ⟨low, high⟩ := o
    unfold ofEntries?
    rw [hlow]
    dsimp only at hhigh ⊢
    rw [hhigh]
    cases high with
    | none => rfl
    | some m => exact if_neg (Int.not_lt.2 (hordered m rfl))

/-! ## Maps that start below zero -/

/-- A map whose minimum is an integer below zero, and whose maximum, if it has one, is a bound that
is not below it. -/
def StartsBelowZero (raw : Value) : Prop :=
  ∃ entries n, raw = .map entries ∧ Value.field? "min" entries = some (.int n) ∧ n < 0 ∧
    ∀ v, Value.field? "max" entries = some v → ∃ b, Bound.ofValue? v = some b ∧ b.NotBelow n

theorem exists_of_startsBelowZero {raw : Value} (h : StartsBelowZero raw) :
    ∃ o, ofValue? raw = some o ∧ o.min < 0 := by
  obtain ⟨entries, n, rfl, hmin, hn, hmax⟩ := h
  have hbound : ∃ b, (Value.field? "max" entries).elim (some (.cells n)) Bound.ofValue? = some b ∧
      b.NotBelow n := by
    cases hfield : Value.field? "max" entries with
    | none => exact ⟨.cells n, rfl, Int.le_refl n⟩
    | some v => exact hmax v hfield
  obtain ⟨b, hb, hnot⟩ := hbound
  obtain ⟨m, rfl⟩ := b.ofMax_surjective
  refine ⟨⟨n, m⟩, ?_, hn⟩
  refine ofEntries?_eq_some_iff.2 ⟨?_, hb, ?_⟩
  · rw [hmin]
    rfl
  · exact Bound.notBelow_ofMax.1 hnot

theorem startsBelowZero_of_ofEntries? {entries : List (Value × Value)} {o : Offset}
    (h : ofEntries? entries = some o) (hneg : o.min < 0) : StartsBelowZero (.map entries) := by
  obtain ⟨hlow, hhigh, hordered⟩ := ofEntries?_eq_some_iff.1 h
  have hint := Bound.eq_int_of_ofValue? hlow hneg
  refine ⟨entries, o.min, rfl, ?_, hneg, ?_⟩
  · cases hfield : Value.field? "min" entries with
    | none =>
      rw [hfield] at hint
      injection hint with hzero
      omega
    | some v =>
      rw [hfield] at hint
      exact congrArg some hint
  · intro v hv
    rw [hv] at hhigh
    exact ⟨_, hhigh, Bound.notBelow_ofMax.2 hordered⟩

/-- Whatever starts below zero came from such a map. -/
theorem startsBelowZero_of_ofValue? {raw : Value} {o : Offset} (h : ofValue? raw = some o)
    (hneg : o.min < 0) : StartsBelowZero raw := by
  unfold ofValue? at h
  split at h
  · obtain ⟨⟩ := h
    exact absurd hneg (Int.lt_irrefl 0)
  · split at h
    · next hn =>
      obtain ⟨⟩ := h
      exact absurd hneg (Int.not_lt.2 hn)
    · cases h
  · split at h
    · split at h
      · next hn =>
        obtain ⟨⟩ := h
        exact absurd hneg (Int.not_lt.2 hn)
      · cases h
    · cases h
  · exact startsBelowZero_of_ofEntries? h hneg
  · exact absurd hneg (Int.not_lt.2 (wellFormed_of_ofToken? h).1)
  · cases h

theorem wellFormed_iff_of_ofValue? {raw : Value} {o : Offset} (h : ofValue? raw = some o) :
    o.WellFormed ↔ ¬ StartsBelowZero raw := by
  constructor
  · intro hformed hbelow
    obtain ⟨o', ho', hneg⟩ := exists_of_startsBelowZero hbelow
    obtain rfl := Option.some.inj (h.symm.trans ho')
    exact Int.not_lt.2 hformed.1 hneg
  · intro hbelow
    have hmin : 0 ≤ o.min := Int.not_lt.1 fun hneg => hbelow (startsBelowZero_of_ofValue? h hneg)
    exact ⟨hmin, ordered_of_ofValue? h⟩

/-! ## Texts that begin with a sign -/

theorem ofToken?_of_not_digit {c : Char} (h : isDigit c = false) (rest : List Char) :
    ofToken? (c :: rest) = none := by
  simp [ofToken?, h]

theorem exists_text_of_neg {o : Offset} (h : o.min < 0) : ∃ rest, o.text.toList = '-' :: rest := by
  obtain ⟨k, hk⟩ : ∃ k, intText o.min = '-' :: natText k := by
    cases hmin : o.min with
    | ofNat n => rw [hmin] at h; exact absurd h (Int.not_lt.2 (Int.natCast_nonneg n))
    | negSucc n => exact ⟨n + 1, rfl⟩
  have hlead : (intString o.min).toList = '-' :: natText k := by
    rw [intString, String.toList_ofList, hk]
  unfold text
  split
  · rw [String.toList_append, hlead]
    exact ⟨_, rfl⟩
  · split
    · exact ⟨_, hlead⟩
    · rw [String.toList_append, String.toList_append, hlead]
      exact ⟨_, rfl⟩

/-- The text of an offset that starts below zero is no token. -/
theorem ofToken?_strip_text_of_neg {o : Offset} (h : o.min < 0) :
    ofToken? (strip o.text.toList) = none := by
  obtain ⟨rest, hrest⟩ := exists_text_of_neg h
  have hstrip : strip ('-' :: rest) = '-' :: stripRight rest :=
    strip_append_cons (by decide) [] rest
  rw [hrest, hstrip]
  exact ofToken?_of_not_digit (by decide) _

/-! ## Reading -/

/-- What is read is what the value gives; lenient reading takes a malformed value for no
distance. -/
theorem result_read_eq_ok_iff {strict : Bool} {raw : Value} {o : Offset} :
    (read strict raw).result = .ok o ↔
      ofValue? raw = some o ∨ ofValue? raw = none ∧ strict = false ∧ o = zero := by
  cases hvalue : ofValue? raw with
  | some o' => cases strict <;> simp [hvalue, eq_comm]
  | none => cases strict <;> simp [hvalue, eq_comm]

/-- **What is read is ordered, and well-formed unless the raw value is a map that starts below
zero.** Reading the text of the offset again tells the two apart: that of a well-formed offset gives
the same offset, and that of any other one is malformed. -/
theorem read_wellFormed_iff {strict : Bool} {raw : Value} {o : Offset}
    (h : (read strict raw).result = .ok o) :
    o.Ordered ∧ (o.WellFormed ↔ ¬ StartsBelowZero raw) ∧
      (¬ StartsBelowZero raw → (read true (.str o.text)).result = .ok o) ∧
      (StartsBelowZero raw →
        (read true (.str o.text)).result = .error (.malformedToken (.str o.text))) := by
  have hformed : o.Ordered ∧ (o.WellFormed ↔ ¬ StartsBelowZero raw) := by
    rcases result_read_eq_ok_iff.1 h with hvalue | ⟨hvalue, -, rfl⟩
    · exact ⟨ordered_of_ofValue? hvalue, wellFormed_iff_of_ofValue? hvalue⟩
    · refine ⟨ordered_exactly 0, iff_of_true (wellFormed_exactly 0) ?_⟩
      intro hbelow
      obtain ⟨o, ho, -⟩ := exists_of_startsBelowZero hbelow
      rw [hvalue] at ho
      cases ho
  obtain ⟨hordered, hiff⟩ := hformed
  refine ⟨hordered, hiff, ?_, ?_⟩
  · intro habove
    rw [result_read_strict, ofValue?_str, ofToken?_strip_text (hiff.2 habove)]
    rfl
  · intro hbelow
    have hneg : o.min < 0 := by
      by_contra hmin
      exact hiff.1 ⟨Int.not_lt.1 hmin, hordered⟩ hbelow
    rw [result_read_strict, ofValue?_str, ofToken?_strip_text_of_neg hneg]
    rfl

theorem read_wellFormed_iff_signed :
    (read true (.map [(.str "min", .int (-3)), (.str "max", .str " 5 ")])).result =
        .ok ⟨-3, some 5⟩ ∧
      ¬ (⟨-3, some 5⟩ : Offset).WellFormed ∧
      (read true (.str (⟨-3, some 5⟩ : Offset).text)).result =
        .error (.malformedToken (.str (⟨-3, some 5⟩ : Offset).text)) ∧
      (read false (.map [(.str "min", .int 3), (.str "max", .null)])).result = .ok (atLeast 3) ∧
      (read true (.str (atLeast 3).text)).result = .ok (atLeast 3) := by
  have hread : (read true (.map [(.str "min", .int (-3)), (.str "max", .str " 5 ")])).result =
      .ok ⟨-3, some 5⟩ := rfl
  have hopen : (read false (.map [(.str "min", .int 3), (.str "max", .null)])).result =
      .ok (atLeast 3) := rfl
  have hsigned : ¬ (⟨-3, some 5⟩ : Offset).WellFormed := by decide
  have hbelow : StartsBelowZero (.map [(.str "min", .int (-3)), (.str "max", .str " 5 ")]) := by
    by_contra habove
    exact hsigned ((read_wellFormed_iff hread).2.1.2 habove)
  have habove : ¬ StartsBelowZero (.map [(.str "min", .int 3), (.str "max", .null)]) :=
    (read_wellFormed_iff hopen).2.1.1 (by decide)
  exact ⟨hread, hsigned, (read_wellFormed_iff hread).2.2.2 hbelow, hopen,
    (read_wellFormed_iff hopen).2.2.1 habove⟩

end LayoutGrammar.Offset
