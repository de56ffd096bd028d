import LayoutGrammar.Constraint.OffsetText
import Mathlib.Data.List.TakeWhile

/-!
# The grammar of offset tokens

`Offset.Denotes` says which texts are tokens and which offset each of them denotes; what it says
does not depend on how tokens are read. `ofToken?_eq_some_iff` is the agreement of the two. A token
falls apart in one way only, because a digit is not blank and no sign is a digit or blank: the first
number is the longest run of digits, and the sign is the first character after it that is not blank.
-/

namespace LayoutGrammar

namespace Text

/-- A run of decimal digits of any script. -/
structure IsNumber (cs : List Char) : Prop where
  ne_nil : cs ≠ []
  digits : ∀ c ∈ cs, isDigit c = true

/-- A run of blanks, possibly empty. -/
def IsGap (cs : List Char) : Prop := ∀ c ∈ cs, isBlank c = true

/-- A digit of any script is not blank. -/
theorem isBlank_of_isDigit {c : Char} (h : isDigit c = true) : isBlank c = false := by
  have hscripts : ∀ first ∈ scriptZeros, ∀ d < 10, isBlank (Char.ofNat (first + d)) = false := by
    decide +kernel
  obtain ⟨d, hd⟩ := Option.isSome_iff_exists.1 h
  obtain ⟨first, hfind, rfl⟩ := Option.map_eq_some_iff.1 hd
  have hrange := List.find?_some hfind
  simp only [Bool.and_eq_true, decide_eq_true_eq] at hrange
  have hc : Char.ofNat (first + (c.val.toNat - first)) = c := by
    rw [Nat.add_sub_cancel' hrange.1]
    exact Char.ofNat_toNat c
  rw [← hc]
  exact hscripts first (List.mem_of_find?_eq_some hfind) _ (by omega)

theorem IsNumber.head_not_blank {digits : List Char} (h : IsNumber digits) (rest : List Char) :
    ∀ c ∈ (digits ++ rest).head?, isBlank c = false := by
  intro c hc
  obtain ⟨d, tail, rfl⟩ := List.exists_cons_of_ne_nil h.ne_nil
  obtain rfl := Option.some.inj hc
  exact isBlank_of_isDigit (h.digits d List.mem_cons_self)

theorem IsNumber.last_not_blank {digits : List Char} (h : IsNumber digits) (front : List Char) :
    ∀ c ∈ (front ++ digits).getLast?, isBlank c = false := by
  intro c hc
  rw [List.getLast?_append, List.getLast?_eq_some_getLast h.ne_nil, Option.some_or] at hc
  obtain rfl := Option.some.inj hc
  exact isBlank_of_isDigit (h.digits _ (List.getLast_mem h.ne_nil))

theorem IsNumber.ne_singleton {digits : List Char} (h : IsNumber digits) {sign : Char}
    (hsign : isDigit sign = false) : digits ≠ [sign] := by
  rintro rfl
  rw [h.digits sign (List.mem_singleton.2 rfl)] at hsign
  cases hsign

theorem isNumber_natText (n : Nat) : IsNumber (natText n) :=
  ⟨natText_ne_nil n, fun _ => isDigit_of_mem_natText⟩

section Splitting

variable {p : Char → Bool} {front rest : List Char}

theorem dropWhile_append_rest (hfront : ∀ c ∈ front, p c = true)
    (hrest : ∀ c ∈ rest.head?, p c = false) : (front ++ rest).dropWhile p = rest := by
  rw [List.dropWhile_append_of_pos hfront]
  cases rest with
  | nil => rfl
  | cons c rest => rw [List.dropWhile_cons_of_neg (by simp [hrest c rfl])]

theorem takeWhile_append_rest (hfront : ∀ c ∈ front, p c = true)
    (hrest : ∀ c ∈ rest.head?, p c = false) : (front ++ rest).takeWhile p = front := by
  rw [List.takeWhile_append_of_pos hfront]
  cases rest with
  | nil => rw [List.takeWhile_nil, List.append_nil]
  | cons c rest => rw [List.takeWhile_cons_of_neg (by simp [hrest c rfl]), List.append_nil]

theorem exists_gap (cs : List Char) : ∃ gap, IsGap gap ∧ cs = gap ++ stripLeft cs :=
  ⟨cs.takeWhile isBlank, fun _ => List.mem_takeWhile_imp, List.takeWhile_append_dropWhile.symm⟩

end Splitting

end Text

namespace Offset

open Text

/-- The tokens and what they denote: `N` is exact, `N+` and `N..*` have no upper bound, `N..M` is a
range that is not inverted, and the empty token is no distance. Gaps may stand beside the signs. -/
inductive Denotes : List Char → Offset → Prop
  | nothing : Denotes [] zero
  | number {digits : List Char} (h : IsNumber digits) :
      Denotes digits (exactly (digitsValue digits))
  | plus {digits gap : List Char} (h : IsNumber digits) (hgap : IsGap gap) :
      Denotes (digits ++ gap ++ ['+']) (atLeast (digitsValue digits))
  | star {digits gap gap' : List Char} (h : IsNumber digits) (hgap : IsGap gap)
      (hgap' : IsGap gap') :
      Denotes (digits ++ gap ++ ['.', '.'] ++ gap' ++ ['*']) (atLeast (digitsValue digits))
  | range {low gap gap' high : List Char} (hlow : IsNumber low) (hgap : IsGap gap)
      (hgap' : IsGap gap') (hhigh : IsNumber high) (hle : digitsValue low ≤ digitsValue high) :
      Denotes (low ++ gap ++ ['.', '.'] ++ gap' ++ high) ⟨digitsValue low, some (digitsValue high)⟩

/-! ## Tokens are read -/

/-- What follows the first number decides, from its sign on. -/
theorem ofToken?_of_sign {digits gap rest : List Char} {sign : Char} (h : IsNumber digits)
    (hgap : IsGap gap) (hdigit : isDigit sign = false) (hblank : isBlank sign = false) :
    ofToken? (digits ++ (gap ++ sign :: rest)) = ofTail? (digitsValue digits) (sign :: rest) := by
  -- the run of digits ends here: a blank is no digit, and the sign is none either
  have hhead : ∀ c ∈ (gap ++ sign :: rest).head?, isDigit c = false := by
    intro c hc
    cases gap with
    | nil =>
      obtain rfl := Option.some.inj hc
      exact hdigit
    | cons b gap =>
      obtain rfl := Option.some.inj hc
      refine Bool.eq_false_iff.2 fun hb => ?_
      have hnot := isBlank_of_isDigit hb
      rw [hgap b List.mem_cons_self] at hnot
      cases hnot
  have hstrip : stripLeft (gap ++ sign :: rest) = sign :: rest := by
    refine dropWhile_append_rest hgap ?_
    intro c hc
    obtain rfl := Option.some.inj hc
    exact hblank
  unfold ofToken?
  simp only [takeWhile_append_rest h.digits hhead, dropWhile_append_rest h.digits hhead, hstrip]
  simp [h.ne_nil]

theorem ofToken?_of_number {digits : List Char} (h : IsNumber digits) :
    ofToken? digits = some (exactly (digitsValue digits)) := by
  have htake : digits.takeWhile isDigit = digits := List.takeWhile_eq_self_iff.2 h.digits
  have hdrop : digits.dropWhile isDigit = [] := List.dropWhile_eq_nil_iff.2 h.digits
  unfold ofToken?
  rw [htake, hdrop]
  simp [h.ne_nil]

theorem upTo?_eq_some_iff {low : Nat} {bound : List Char} {o : Offset} :
    upTo? low bound = some o ↔
      IsNumber bound ∧ low ≤ digitsValue bound ∧ o = ⟨low, some (digitsValue bound)⟩ := by
  unfold upTo?
  constructor
  · intro h
    split at h
    · cases h
    · next hbound =>
      simp only [Bool.or_eq_true, List.isEmpty_iff, Bool.not_eq_true', not_or,
        Bool.not_eq_false, List.all_eq_true] at hbound
      dsimp only at h
      split at h
      · cases h
      · next hle => exact ⟨⟨hbound.1, hbound.2⟩, Nat.not_lt.1 hle, (Option.some.inj h).symm⟩
  · rintro ⟨hbound, hle, rfl⟩
    have hall : bound.all isDigit = true := List.all_eq_true.2 hbound.digits
    simp [hbound.ne_nil, hall, Nat.not_lt.2 hle]

theorem ofTail?_star {low : Nat} {gap : List Char} (hgap : IsGap gap) :
    ofTail? low ('.' :: '.' :: (gap ++ ['*'])) = some (atLeast low) := by
  have hstrip : stripLeft (gap ++ ['*']) = ['*'] := by
    refine dropWhile_append_rest hgap ?_
    intro c hc
    obtain rfl := Option.some.inj hc
    decide
  unfold ofTail?
  simp only [hstrip]

theorem ofTail?_range {low : Nat} {gap high : List Char} (hgap : IsGap gap)
    (hhigh : IsNumber high) (hle : low ≤ digitsValue high) :
    ofTail? low ('.' :: '.' :: (gap ++ high)) = some ⟨low, some (digitsValue high)⟩ := by
  have hstrip : stripLeft (gap ++ high) = high := by
    refine dropWhile_append_rest hgap ?_
    simpa using hhigh.head_not_blank []
  have hstar : isDigit '*' = false := by decide
  unfold ofTail?
  simp only [hstrip]
  split
  -- a bound of one character is a digit, so it is not taken for the star
  · exact absurd rfl (hhigh.ne_singleton hstar)
  · exact upTo?_eq_some_iff.2 ⟨hhigh, hle, rfl⟩

theorem Denotes.ofToken?_eq {token : List Char} {o : Offset} (h : Denotes token o) :
    ofToken? token = some o := by
  cases h with
  | nothing => rfl
  | number h => exact ofToken?_of_number h
  | plus h hgap =>
    rw [List.append_assoc, ofToken?_of_sign h hgap (by decide) (by decide)]
    rfl
  | star h hgap hgap' =>
    simp only [List.append_assoc, List.cons_append, List.nil_append]
    rw [ofToken?_of_sign h hgap (by decide) (by decide)]
    exact ofTail?_star hgap'
  | range hlow hgap hgap' hhigh hle =>
    simp only [List.append_assoc, List.cons_append, List.nil_append]
    rw [ofToken?_of_sign hlow hgap (by decide) (by decide)]
    exact ofTail?_range hgap' hhigh hle

/-! ## What is read is a token -/

theorem denotes_of_ofTail? {digits gap tail : List Char} {o : Offset} (h : IsNumber digits)
    (hgap : IsGap gap) (htail : ofTail? (digitsValue digits) tail = some o) :
    Denotes (digits ++ gap ++ tail) o := by
  unfold ofTail? at htail
  split at htail
  · obtain rfl := Option.some.inj htail
    exact .plus h hgap
  · next bound =>
    obtain ⟨gap', hgap', hbound⟩ := exists_gap bound
    split at htail
    · next hstar =>
      obtain rfl := Option.some.inj htail
      rw [hstar] at hbound
      subst hbound
      simpa using Denotes.star h hgap hgap'
    · obtain ⟨hhigh, hle, rfl⟩ := upTo?_eq_some_iff.1 htail
      have hrange := Denotes.range h hgap hgap' hhigh hle
      rw [List.append_assoc _ gap', ← hbound] at hrange
      simpa using hrange
  · cases htail

theorem denotes_of_ofToken? {token : List Char} {o : Offset} (h : ofToken? token = some o) :
    Denotes token o := by
  have hsplit : token.takeWhile isDigit ++ token.dropWhile isDigit = token :=
    List.takeWhile_append_dropWhile
  have hdigits : ∀ c ∈ token.takeWhile isDigit, isDigit c = true := fun _ =>
    List.mem_takeWhile_imp
  unfold ofToken? at h
  split at h
  · next hempty =>
    obtain rfl := Option.some.inj h
    rw [List.isEmpty_iff.1 hempty]
    exact .nothing
  · dsimp only at h
    split at h
    · cases h
    · next hne =>
      rw [List.isEmpty_iff] at hne
      have hnumber : IsNumber (token.takeWhile isDigit) := ⟨hne, hdigits⟩
      split at h
      · next hnil =>
        obtain rfl := Option.some.inj h
        rw [List.isEmpty_iff.1 hnil, List.append_nil] at hsplit
        rw [hsplit] at hnumber ⊢
        exact .number hnumber
      · obtain ⟨gap, hgap, hrest⟩ := exists_gap (token.dropWhile isDigit)
        have htoken := denotes_of_ofTail? hnumber hgap h
        rwa [List.append_assoc, ← hrest, hsplit] at htoken

/-- **Reading a token follows the grammar exactly.** -/
theorem ofToken?_eq_some_iff {token : List Char} {o : Offset} :
    ofToken? token = some o ↔ Denotes token o :=
  ⟨denotes_of_ofToken?, Denotes.ofToken?_eq⟩

theorem ofToken?_eq_none_iff {token : List Char} :
    ofToken? token = none ↔ ¬ ∃ o, Denotes token o := by
  simp only [← ofToken?_eq_some_iff, Option.eq_none_iff_forall_ne_some, ne_eq, not_exists]

/-- A token denotes one offset only. -/
theorem Denotes.unique {token : List Char} {o o' : Offset} (h : Denotes token o)
    (h' : Denotes token o') : o' = o := by
  rw [← ofToken?_eq_some_iff] at h h'
  exact Option.some.inj (h'.symm.trans h)

/-! ## Facts by the cases of the grammar -/

/-- A token has no blanks at its ends. -/
theorem Denotes.strip_eq {token : List Char} {o : Offset} (h : Denotes token o) :
    strip token = token := by
  cases h with
  | nothing => rfl
  | number h =>
    refine strip_of_ends ?_ (h.last_not_blank [])
    simpa using h.head_not_blank []
  | plus h hgap =>
    refine strip_of_ends ?_ ?_
    · rw [List.append_assoc]
      exact h.head_not_blank _
    · intro c hc
      rw [List.getLast?_concat] at hc
      obtain rfl := Option.some.inj hc
      decide
  | star h hgap hgap' =>
    refine strip_of_ends ?_ ?_
    · simp only [List.append_assoc]
      exact h.head_not_blank _
    · intro c hc
      rw [List.getLast?_concat] at hc
      obtain rfl := Option.some.inj hc
      decide
  | range hlow hgap hgap' hhigh hle =>
    refine strip_of_ends ?_ (hhigh.last_not_blank _)
    simp only [List.append_assoc]
    exact hlow.head_not_blank _

theorem wellFormed_exactly (n : Nat) : (exactly n).WellFormed :=
  ⟨Int.natCast_nonneg n, fun _ hm => Int.le_of_eq (Option.some.inj hm)⟩

/-- A token denotes nothing but well-formed offsets. -/
theorem Denotes.wellFormed {token : List Char} {o : Offset} (h : Denotes token o) :
    o.WellFormed := by
  cases h with
  | nothing => exact wellFormed_exactly 0
  | number h => exact wellFormed_exactly _
  | plus h hgap => exact ⟨Int.natCast_nonneg _, nofun⟩
  | star h hgap hgap' => exact ⟨Int.natCast_nonneg _, nofun⟩
  | range hlow hgap hgap' hhigh hle =>
    refine ⟨Int.natCast_nonneg _, ?_⟩
    intro m hm
    obtain rfl := Option.some.inj hm
    exact Int.ofNat_le.2 hle

end Offset

end LayoutGrammar
