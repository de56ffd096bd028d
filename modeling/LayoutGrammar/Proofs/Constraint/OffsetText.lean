import LayoutGrammar.Proofs.Constraint.Token

/-!
# Written offsets read back

The text of a well-formed offset is a token that denotes that offset (`denotes_text`), so it reads
back as itself (`ofToken?_strip_text`). `read_follows_grammar` puts this together with the grammar:
it says what reading makes of any text. Raw values that are no texts promise less: the maximum is
not below the minimum (`ordered_of_ofValue?`), but a map may give a negative minimum.
-/

namespace LayoutGrammar

namespace Text

theorem toList_intString (n : Nat) : (intString n).toList = natText n :=
  String.toList_ofList

end Text

namespace Offset

open Text

/-! ## Tokens -/

/-- The text of an offset is a token that denotes it. -/
theorem denotes_text {o : Offset} (h : o.WellFormed) : Denotes o.text.toList o := by
  obtain ⟨low, high⟩ := o
  obtain ⟨hlow, hhigh⟩ := h
  obtain ⟨n, rfl⟩ := Int.eq_ofNat_of_zero_le hlow
  have hnone : IsGap [] := nofun
  have hn := isNumber_natText n
  cases high with
  | none =>
    have hplus := Denotes.plus hn hnone
    rw [digitsValue_natText] at hplus
    simpa [text, toList_intString, atLeast] using hplus
  | some m =>
    have hm : (n : Int) ≤ m := hhigh m rfl
    obtain ⟨k, rfl⟩ := Int.eq_ofNat_of_zero_le (Int.le_trans hlow hm)
    by_cases he : (k : Int) = n
    · have hnumber := Denotes.number hn
      rw [digitsValue_natText] at hnumber
      simpa [text, toList_intString, exactly, he] using hnumber
    · have hle : digitsValue (natText n) ≤ digitsValue (natText k) := by
        rw [digitsValue_natText, digitsValue_natText]
        omega
      have hrange := Denotes.range hn hnone hnone (isNumber_natText k) hle
      rw [digitsValue_natText, digitsValue_natText] at hrange
      simpa [text, toList_intString, he] using hrange

theorem strip_text {o : Offset} (h : o.WellFormed) : strip o.text.toList = o.text.toList :=
  (denotes_text h).strip_eq

theorem ofToken?_strip_text {o : Offset} (h : o.WellFormed) :
    ofToken? (strip o.text.toList) = some o := by
  rw [strip_text h]
  exact ofToken?_eq_some_iff.2 (denotes_text h)

theorem wellFormed_of_ofToken? {token : List Char} {o : Offset} (h : ofToken? token = some o) :
    o.WellFormed :=
  (ofToken?_eq_some_iff.1 h).wellFormed

/-- **Reading a text follows the token grammar.** A text whose middle is a token gives what the
token denotes; for any other text, strict reading ends with an error that carries the text, and
lenient reading gives no distance. The text of an offset is a token and denotes that offset
alone. -/
theorem read_follows_grammar :
    (∀ (s : String) (o : Offset), Denotes (strip s.toList) o →
      (read true (.str s)).result = .ok o ∧ (read false (.str s)).result = .ok o) ∧
    (∀ s : String, (¬ ∃ o, Denotes (strip s.toList) o) →
      (read true (.str s)).result = .error (.malformedToken (.str s)) ∧
        (read false (.str s)).result = .ok zero) ∧
    ∀ o : Offset, o.WellFormed → (∀ o', Denotes o.text.toList o' ↔ o' = o) ∧
      ∀ strict, (read strict (.str o.text)).result = .ok o := by
  refine ⟨?_, ?_, ?_⟩
  · intro s o h
    rw [← ofToken?_eq_some_iff, ← ofValue?_str] at h
    rw [result_read_strict, result_read_lenient, h]
    exact ⟨rfl, rfl⟩
  · intro s h
    rw [← ofToken?_eq_none_iff, ← ofValue?_str] at h
    rw [result_read_strict, result_read_lenient, h]
    exact ⟨rfl, rfl⟩
  · intro o h
    have hvalue : ofValue? (.str o.text) = some o := ofToken?_strip_text h
    refine ⟨?_, ?_⟩
    · intro o'
      constructor
      · exact (denotes_text h).unique
      · rintro rfl
        exact denotes_text h
    · intro strict
      cases strict with
      | true => rw [result_read_strict, hvalue]; rfl
      | false => rw [result_read_lenient, hvalue]; rfl

theorem read_follows_grammar_range :
    Denotes (strip " ٢ ..5 ".toList) ⟨2, some 5⟩ ∧
      (read true (.str " ٢ ..5 ")).result = .ok ⟨2, some 5⟩ ∧
      (¬ ∃ o, Denotes (strip " 5..2".toList) o) ∧
      (read true (.str " 5..2")).result = .error (.malformedToken (.str " 5..2")) ∧
      (atLeast 12).WellFormed ∧
      (read false (.str (atLeast 12).text)).result = .ok (atLeast 12) := by
  obtain ⟨haccepted, hrefused, hwritten⟩ := read_follows_grammar
  have htoken : Denotes (strip " ٢ ..5 ".toList) ⟨2, some 5⟩ := ofToken?_eq_some_iff.1 (by decide)
  have hinverted : ¬ ∃ o, Denotes (strip " 5..2".toList) o := ofToken?_eq_none_iff.1 (by decide)
  have hopen : (atLeast 12).WellFormed := by decide
  exact ⟨htoken, (haccepted _ _ htoken).1, hinverted, (hrefused _ hinverted).1, hopen,
    (hwritten _ hopen).2 false⟩

/-! ## Raw values -/

/-- The maximum, if there is one, is not below the minimum. -/
def Ordered (o : Offset) : Prop := ∀ m ∈ o.max, o.min ≤ m

theorem ordered_exactly (n : Int) : (exactly n).Ordered :=
  fun _ hm => Int.le_of_eq (Option.some.inj hm)

theorem ordered_of_ofEntries? {entries : List (Value × Value)} {o : Offset}
    (h : ofEntries? entries = some o) : o.Ordered := by
  unfold ofEntries? at h
  split at h
  · split at h
    · split at h
      · cases h
      · next hlt =>
        obtain rfl := Option.some.inj h
        intro m hm
        obtain rfl := Option.some.inj hm
        exact Int.not_lt.1 hlt
    · obtain rfl := Option.some.inj h
      exact fun m hm => nomatch hm
    · cases h
  · cases h

/-- An offset that a raw value gives is ordered. -/
theorem ordered_of_ofValue? {raw : Value} {o : Offset} (h : ofValue? raw = some o) :
    o.Ordered := by
  unfold ofValue? at h
  split at h
  · obtain rfl := Option.some.inj h
    exact ordered_exactly 0
  · split at h
    · obtain rfl := Option.some.inj h
      exact ordered_exactly _
    · cases h
  · split at h
    · split at h
      · obtain rfl := Option.some.inj h
        exact ordered_exactly _
      · cases h
    · cases h
  · exact ordered_of_ofEntries? h
  · exact (wellFormed_of_ofToken? h).2
  · cases h

end Offset

end LayoutGrammar
