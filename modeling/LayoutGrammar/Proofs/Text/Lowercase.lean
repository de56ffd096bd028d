import LayoutGrammar.Text.Lowercase
import LayoutGrammar.Proofs.Text.Strip

/-!
# Lower case, twice

What lower case gives is not changed by it again (`lower_lower`), because no letter that a run of
upper-case letters is shifted to lies in a run itself (`not_covers_shifted`). Nor does it give a
blank for a character that is none, so a stripped text stays stripped (`strip_lower`). Both are read
off the table of runs: `runs_apart` compares the shifted letters of each run with every other run,
`runs_plain` with the blanks.
-/

namespace LayoutGrammar.Text

/-! ## The table of runs -/

/-- A run of upper-case letters: first, last, step between two letters, shift to lower case. -/
abbrev Run := Nat × Nat × Nat × Int

/-- The codes that the first and the last letter of a run are shifted to. -/
def shiftedEnds (run : Run) : Nat × Nat :=
  ((run.1 + run.2.2.2).toNat, (run.2.1 + run.2.2.2).toNat)

/-- A code is one of the letters of a run. -/
def Covers (run : Run) (n : Nat) : Prop :=
  run.1 ≤ n ∧ n ≤ run.2.1 ∧ (n - run.1) % run.2.2.1 = 0

/-- No letter of the second run lies where a letter of the first one is shifted to: the two ranges
do not meet, or both runs hold every second code and the shifted letters are the others. -/
def staysOff (shifted : Nat × Nat) (run other : Run) : Bool :=
  Nat.blt shifted.2 other.1 || Nat.blt other.2.1 shifted.1 ||
    (Nat.beq run.2.1 run.1 || Nat.beq run.2.2.1 2) && Nat.beq other.2.2.1 2 &&
      Nat.beq ((shifted.1 + other.1) % 2) 1

theorem runs_apart : (uppercaseRuns.all fun run =>
    let shifted := shiftedEnds run
    uppercaseRuns.all (staysOff shifted run)) = true := by
  decide +kernel

/-- Ranges of codes without surrogates, blanks and the dotted capital I. -/
def plainRanges : List (Nat × Nat) :=
  [(0x61, 0x84), (0xA1, 0x12F), (0x131, 0x167F), (0x1681, 0x1FFF), (0x2060, 0x2FFF),
    (0x3001, 0xD7FF), (0xE000, 0x10FFFF)]

theorem runs_plain : ∀ run ∈ uppercaseRuns, (0 ≤ run.1 + run.2.2.2) ∧ ∃ range ∈ plainRanges,
    range.1 ≤ (shiftedEnds run).1 ∧ (shiftedEnds run).2 ≤ range.2 := by
  decide +kernel

theorem not_covers_shifted {run other : Run} {n : Nat} (hrun : run ∈ uppercaseRuns)
    (hother : other ∈ uppercaseRuns) (hn : Covers run n) :
    ¬ Covers other (n + run.2.2.2).toNat := by
  have hoff := List.all_eq_true.1 (List.all_eq_true.1 runs_apart run hrun) other hother
  obtain ⟨hpos, -⟩ := runs_plain run hrun
  obtain ⟨first, last, step, shift⟩ := run
  obtain ⟨first', last', step', shift'⟩ := other
  obtain ⟨hfirst, hlast, hstep⟩ := hn
  rintro ⟨hfirst', hlast', hstep'⟩
  simp only [staysOff, shiftedEnds, Bool.or_eq_true, Bool.and_eq_true, Nat.blt_eq,
    Nat.beq_eq] at *
  rcases hoff with (hoff | hoff) | ⟨⟨hoff | rfl, rfl⟩, hodd⟩
  · omega
  · omega
  · omega
  · omega

/-! ## Characters -/

/-- A character that lower case leaves alone wherever it stands. -/
structure IsLower (c : Char) : Prop where
  lowerChar_eq : lowerChar c = c
  ne_dotted : c ≠ 'İ'

theorem toLower_ascii : ∀ n < 0x80, (Char.ofNat n).toLower ≠ Char.ofNat n →
    0x41 ≤ n ∧ n ≤ 0x5A ∧ (Char.ofNat n).toLower = Char.ofNat (n + 32) := by
  decide

/-- Lower case changes the letters of the runs only, and shifts them. -/
theorem exists_run_of_lowerChar_ne {c : Char} (h : lowerChar c ≠ c) :
    ∃ run ∈ uppercaseRuns, Covers run c.toNat ∧
      lowerChar c = Char.ofNat (c.toNat + run.2.2.2).toNat := by
  unfold lowerChar at h ⊢
  rw [Char.toNat_val] at h ⊢
  dsimp only at h ⊢
  split at h
  · next hascii =>
    rw [if_pos hascii]
    have hletter := toLower_ascii c.toNat hascii
    rw [Char.ofNat_toNat] at hletter
    obtain ⟨hlow, hhigh, hlower⟩ := hletter h
    refine ⟨(0x41, 0x5A, 1, 32), by decide, ⟨hlow, hhigh, Nat.mod_one _⟩, ?_⟩
    rw [hlower]
    rfl
  · next hascii =>
    rw [if_neg hascii]
    split at h
    · next hfind =>
      have hcovers := List.find?_some hfind
      simp only [Bool.and_eq_true, decide_eq_true_eq, beq_iff_eq] at hcovers
      exact ⟨_, List.mem_of_find?_eq_some hfind, ⟨hcovers.1.1, hcovers.1.2, hcovers.2⟩, rfl⟩
    · exact absurd rfl h

theorem plain_of_mem {n : Nat} {range : Nat × Nat} (hrange : range ∈ plainRanges)
    (hlow : range.1 ≤ n) (hhigh : n ≤ range.2) :
    (Char.ofNat n).toNat = n ∧ isBlank (Char.ofNat n) = false ∧ Char.ofNat n ≠ 'İ' := by
  simp only [plainRanges, List.mem_cons, List.not_mem_nil, or_false] at hrange
  have hcode : (Char.ofNat n).toNat = n := by
    have hvalid : n.isValidChar := by
      unfold Nat.isValidChar
      rcases hrange with rfl | rfl | rfl | rfl | rfl | rfl | rfl <;> dsimp only at * <;> omega
    rw [Char.ofNat, dif_pos hvalid]
    rfl
  refine ⟨hcode, ?_, ?_⟩
  · unfold isBlank
    rw [Char.toNat_val, hcode]
    rcases hrange with rfl | rfl | rfl | rfl | rfl | rfl | rfl <;>
      dsimp only at * <;> simp <;> omega
  · intro hdotted
    have hdot : n = 0x130 := by
      rw [← hcode, hdotted]
      rfl
    rcases hrange with rfl | rfl | rfl | rfl | rfl | rfl | rfl <;> dsimp only at * <;> omega

/-- Lower case leaves a character alone, or gives one that is not blank and stays. -/
theorem lowerChar_cases (c : Char) :
    lowerChar c = c ∨ IsLower (lowerChar c) ∧ isBlank (lowerChar c) = false := by
  by_cases h : lowerChar c = c
  · exact .inl h
  · obtain ⟨run, hrun, hcovers, hshift⟩ := exists_run_of_lowerChar_ne h
    obtain ⟨-, range, hrange, hlow, hhigh⟩ := runs_plain run hrun
    have hbetween : (shiftedEnds run).1 ≤ (c.toNat + run.2.2.2).toNat ∧
        (c.toNat + run.2.2.2).toNat ≤ (shiftedEnds run).2 := by
      obtain ⟨hfirst, hlast, -⟩ := hcovers
      unfold shiftedEnds
      omega
    obtain ⟨hcode, hblank, hdotted⟩ := plain_of_mem hrange (Nat.le_trans hlow hbetween.1)
      (Nat.le_trans hbetween.2 hhigh)
    rw [← hshift] at hcode hblank hdotted
    have hstays : lowerChar (lowerChar c) = lowerChar c := by
      by_contra hne
      obtain ⟨other, hother, hcovered, -⟩ := exists_run_of_lowerChar_ne hne
      rw [hcode] at hcovered
      exact not_covers_shifted hrun hother hcovers hcovered
    exact .inr ⟨⟨hstays, hdotted⟩, hblank⟩

theorem isLower_of_mem_lowerAt {before after : List Char} {c d : Char}
    (h : d ∈ lowerAt before after c) : IsLower d := by
  have hfinal : IsLower 'ς' := ⟨by decide, by decide⟩
  have hsigma : IsLower 'σ' := ⟨by decide, by decide⟩
  have hi : IsLower 'i' := ⟨by decide, by decide⟩
  have hdot : IsLower '\u0307' := ⟨by decide, by decide⟩
  unfold lowerAt at h
  split at h
  · split at h
    · rw [List.mem_singleton.1 h]
      exact hfinal
    · rw [List.mem_singleton.1 h]
      exact hsigma
  · split at h
    · rcases List.mem_cons.1 h with rfl | h
      · exact hi
      · rw [List.mem_singleton.1 h]
        exact hdot
    · next hdotted =>
      rw [List.mem_singleton.1 h]
      rcases lowerChar_cases c with hsame | ⟨hlower, -⟩
      · rw [hsame]
        exact ⟨hsame, by simpa using hdotted⟩
      · exact hlower

theorem not_blank_of_mem_lowerAt {before after : List Char} {c d : Char}
    (hc : isBlank c = false) (h : d ∈ lowerAt before after c) : isBlank d = false := by
  unfold lowerAt at h
  split at h
  · split at h
    · rw [List.mem_singleton.1 h]
      decide
    · rw [List.mem_singleton.1 h]
      decide
  · split at h
    · rcases List.mem_cons.1 h with rfl | h
      · decide
      · rw [List.mem_singleton.1 h]
        decide
    · rw [List.mem_singleton.1 h]
      rcases lowerChar_cases c with hsame | ⟨-, hblank⟩
      · rw [hsame]
        exact hc
      · exact hblank

theorem lowerAt_ne_nil (before after : List Char) (c : Char) : lowerAt before after c ≠ [] := by
  unfold lowerAt
  split
  · split <;> simp
  · split <;> simp

theorem lowerAt_of_isLower {c : Char} (h : IsLower c) (before after : List Char) :
    lowerAt before after c = [c] := by
  have hsigma : c ≠ 'Σ' := by
    rintro rfl
    exact absurd h.lowerChar_eq (by decide)
  unfold lowerAt
  simp [hsigma, h.ne_dotted, h.lowerChar_eq]

/-! ## Texts -/

theorem isLower_of_mem_lowerFrom {before cs : List Char} {d : Char}
    (h : d ∈ lowerFrom before cs) : IsLower d := by
  induction cs generalizing before with
  | nil => cases h
  | cons c after ih =>
    rw [lowerFrom] at h
    rcases List.mem_append.1 h with h | h
    · exact isLower_of_mem_lowerAt h
    · exact ih h

theorem lowerFrom_of_isLower {cs : List Char} (h : ∀ c ∈ cs, IsLower c) (before : List Char) :
    lowerFrom before cs = cs := by
  induction cs generalizing before with
  | nil => rfl
  | cons c after ih =>
    rw [lowerFrom, lowerAt_of_isLower (h c List.mem_cons_self),
      ih fun d hd => h d (List.mem_cons_of_mem _ hd)]
    rfl

theorem lower_lower (cs : List Char) : lower (lower cs) = lower cs :=
  lowerFrom_of_isLower (fun _ => isLower_of_mem_lowerFrom) []

theorem exists_lowerFrom_concat (before front : List Char) (c : Char) :
    ∃ lead context, lowerFrom before (front ++ [c]) = lead ++ lowerAt context [] c := by
  induction front generalizing before with
  | nil => exact ⟨[], before, by simp [lowerFrom]⟩
  | cons d front ih =>
    obtain ⟨lead, context, hlead⟩ := ih (d :: before)
    refine ⟨lowerAt before (front ++ [c]) d ++ lead, context, ?_⟩
    rw [List.cons_append, lowerFrom, hlead, List.append_assoc]

/-- A text without blanks at its ends has none in lower case. -/
theorem strip_lower {cs : List Char} (hhead : ∀ c ∈ cs.head?, isBlank c = false)
    (hlast : ∀ c ∈ cs.getLast?, isBlank c = false) : strip (lower cs) = lower cs := by
  refine strip_of_ends ?_ ?_
  · cases cs with
    | nil => exact nofun
    | cons c after =>
      intro d hd
      rw [lower, lowerFrom, List.head?_append_of_ne_nil _ (lowerAt_ne_nil _ _ _)] at hd
      exact not_blank_of_mem_lowerAt (hhead c rfl) (List.mem_of_mem_head? hd)
  · rcases cs.eq_nil_or_concat with rfl | ⟨front, c, rfl⟩
    · exact nofun
    · intro d hd
      rw [List.concat_eq_append] at hd hlast
      obtain ⟨lead, context, hlead⟩ := exists_lowerFrom_concat [] front c
      rw [lower, hlead, List.getLast?_append_of_ne_nil _ (lowerAt_ne_nil _ _ _)] at hd
      exact not_blank_of_mem_lowerAt (hlast c List.getLast?_concat) (List.mem_of_getLast? hd)

/-- Stripping and lower case change nothing that they have given. -/
theorem lowered_stripped (s : String) :
    lowered (stripped (lowered (stripped s))) = lowered (stripped s) := by
  have hlower : strip (lower (strip s.toList)) = lower (strip s.toList) :=
    strip_lower head_strip last_stripRight
  simp only [lowered, stripped, String.toList_ofList, hlower, lower_lower]

end LayoutGrammar.Text
