import LayoutGrammar.Proofs.Constraint.Token
import LayoutGrammar.Proofs.Extract.Offences
import Mathlib.Data.List.Forall2
import Mathlib.Data.List.Nodup

/-!
# Parents in the order of their indices

Where the keys of an index map give different indices, there is one order in which its entries can
be listed: numbers first, by size, then words, by their letters (`IndexKey.Before`). Sorting finds
that order, in whatever order the entries come (`mergeSort_eq_of_perm`). A numeral reads back as
the number it was written for (`readInteger?_natString`), so a map from the places of a list to its
items gives the same parents as the list (`ofValue_by_index`).
-/

namespace LayoutGrammar

/-! ## Numerals as integers -/

namespace Text

theorem isNumeralBlank_of_isDigit {c : Char} (h : isDigit c = true) : isNumeralBlank c = false := by
  simp [isNumeralBlank, isBlank_of_isDigit h]

theorem dropWhile_numeralBlank {digits : List Char} (h : ∀ c ∈ digits, isDigit c = true) :
    digits.dropWhile isNumeralBlank = digits := by
  cases digits with
  | nil => rfl
  | cons c rest =>
    have hc := isNumeralBlank_of_isDigit (h c List.mem_cons_self)
    rw [List.dropWhile_cons_of_neg (by simp [hc])]

theorem stripNumeral_of_digits {digits : List Char} (h : ∀ c ∈ digits, isDigit c = true) :
    stripNumeral digits = digits := by
  have hreverse : ∀ c ∈ digits.reverse, isDigit c = true := fun c hc => h c (List.mem_reverse.1 hc)
  rw [stripNumeral, dropWhile_numeralBlank h, dropWhile_numeralBlank hreverse, List.reverse_reverse]

theorem splitSign_of_digits {digits : List Char} (h : ∀ c ∈ digits, isDigit c = true) :
    splitSign digits = (false, digits) := by
  unfold splitSign
  split
  · exact absurd (h '-' List.mem_cons_self) (by decide)
  · exact absurd (h '+' List.mem_cons_self) (by decide)
  · rfl

theorem spanGroupedDigits_of_digits {digits : List Char} (h : ∀ c ∈ digits, isDigit c = true) :
    spanGroupedDigits digits = (digits, []) := by
  fun_induction spanGroupedDigits digits with
  | case1 => rfl
  | case2 | case3 | case4 =>
    have hunderscore := h '_' (List.mem_cons_of_mem _ List.mem_cons_self)
    exact absurd hunderscore (by decide)
  | case5 c rest _ _ digits after hrest ih =>
    have hall := ih fun c hc => h c (List.mem_cons_of_mem _ hc)
    obtain ⟨rfl, rfl⟩ := Prod.mk.inj (hrest.symm.trans hall)
    rfl
  | case6 c rest _ hc => exact absurd (h c List.mem_cons_self) hc

/-- A written numeral reads back as the number it was written for. -/
theorem readInteger?_natString (n : Nat) : readInteger? (natString n) = some (n : Int) := by
  have hdigits : ∀ c ∈ natText n, isDigit c = true := (isNumber_natText n).digits
  have hvalue := digitsValue_natText n
  unfold readInteger?
  rw [natString, String.toList_ofList, stripNumeral_of_digits hdigits, splitSign_of_digits hdigits]
  dsimp only
  rw [spanGroupedDigits_of_digits hdigits]
  cases hn : natText n with
  | nil => exact absurd hn (natText_ne_nil n)
  | cons c rest =>
    rw [hn] at hvalue
    simp [hvalue]

end Text

namespace Parents

open Text

/-! ## The order of indices -/

namespace IndexKey

/-- Numbers stand before words, a smaller number before a greater one, and words in the order of
their letters. -/
def Before : IndexKey → IndexKey → Prop
  | .number m, .number n => m < n
  | .number _, .word _ => True
  | .word _, .number _ => False
  | .word s, .word t => s < t

theorem le_total (a b : IndexKey) : (a.le b || b.le a) = true := by
  cases a with
  | number m =>
    cases b with
    | number n =>
      simp only [le, Bool.or_eq_true, decide_eq_true_eq]
      omega
    | word t => rfl
  | word s =>
    cases b with
    | number n => rfl
    | word t =>
      simp only [le, Bool.or_eq_true, Bool.not_eq_true', decide_eq_false_iff_not, String.not_lt]
      exact String.le_total s t

theorem le_trans (a b c : IndexKey) (hab : a.le b = true) (hbc : b.le c = true) :
    a.le c = true := by
  cases a with
  | number m =>
    cases c with
    | word u => rfl
    | number k =>
      cases b with
      | word t => cases hbc
      | number n =>
        simp only [le, decide_eq_true_eq] at hab hbc ⊢
        omega
  | word s =>
    cases b with
    | number n => cases hab
    | word t =>
      cases c with
      | number k => cases hbc
      | word u =>
        simp only [le, Bool.not_eq_true', decide_eq_false_iff_not, String.not_lt] at hab hbc ⊢
        exact String.le_trans hab hbc

theorem le_antisymm {a b : IndexKey} (hab : a.le b = true) (hba : b.le a = true) : a = b := by
  cases a with
  | number m =>
    cases b with
    | word t => cases hba
    | number n =>
      simp only [le, decide_eq_true_eq] at hab hba
      rw [Int.le_antisymm hab hba]
  | word s =>
    cases b with
    | number n => cases hab
    | word t =>
      simp only [le, Bool.not_eq_true', decide_eq_false_iff_not, String.not_lt] at hab hba
      rw [String.le_antisymm hab hba]

theorem before_iff {a b : IndexKey} : Before a b ↔ a.le b = true ∧ a ≠ b := by
  cases a with
  | number m =>
    cases b with
    | number n =>
      simp only [Before, le, decide_eq_true_eq, ne_eq, IndexKey.number.injEq]
      omega
    | word t => simp [Before, le]
  | word s =>
    cases b with
    | number n => simp [Before, le]
    | word t =>
      simp only [Before, le, Bool.not_eq_true', decide_eq_false_iff_not, ne_eq,
        IndexKey.word.injEq, String.not_lt]
      constructor
      · intro h
        refine ⟨String.not_lt.1 (String.lt_asymm h), ?_⟩
        rintro rfl
        exact String.lt_irrefl s h
      · rintro ⟨hle, hne⟩
        exact Std.lt_of_le_of_ne hle hne

theorem exists_numbers_words {indices : List IndexKey} (h : indices.Pairwise Before) :
    ∃ (ns : List Int) (ws : List String), indices = ns.map .number ++ ws.map .word ∧
      ns.Pairwise (· < ·) ∧ ws.Pairwise (· < ·) := by
  induction indices with
  | nil => exact ⟨[], [], rfl, .nil, .nil⟩
  | cons index rest ih =>
    obtain ⟨hindex, hrest⟩ := List.pairwise_cons.1 h
    obtain ⟨ns, ws, rfl, hns, hws⟩ := ih hrest
    have hnumber : ∀ n ∈ ns, Before index (.number n) := fun n hn =>
      hindex _ (List.mem_append_left _ (List.mem_map_of_mem hn))
    have hword : ∀ w ∈ ws, Before index (.word w) := fun w hw =>
      hindex _ (List.mem_append_right _ (List.mem_map_of_mem hw))
    cases index with
    | number m => exact ⟨m :: ns, ws, rfl, List.pairwise_cons.2 ⟨hnumber, hns⟩, hws⟩
    | word s =>
      obtain rfl : ns = [] := List.eq_nil_iff_forall_not_mem.2 hnumber
      exact ⟨[], s :: ws, rfl, .nil, List.pairwise_cons.2 ⟨hword, hws⟩⟩

end IndexKey

/-- The index of a key that has one. -/
def indexOf (key : Value) : IndexKey := (IndexKey.ofValue key).toOption.getD (.word key.text)

theorem ofValue_eq_indexOf {key : Value} (h : isInfiniteIndex key = false) :
    IndexKey.ofValue key = .ok (indexOf key) := by
  obtain ⟨index, hindex⟩ := IndexKey.exists_ofValue h
  rw [indexOf, hindex]
  rfl

/-! ## Sorting by index -/

def byIndex (a b : Value × Value) : Bool := (indexOf a.1).le (indexOf b.1)

/-- Every entry stands before those that follow it. -/
def InOrder (entries : List (Value × Value)) : Prop :=
  entries.Pairwise fun a b => IndexKey.Before (indexOf a.1) (indexOf b.1)

theorem pairwise_mergeSort_byIndex (entries : List (Value × Value)) :
    (entries.mergeSort byIndex).Pairwise fun a b => byIndex a b = true :=
  List.pairwise_mergeSort
    (fun a b c => IndexKey.le_trans (indexOf a.1) (indexOf b.1) (indexOf c.1))
    (fun a b => IndexKey.le_total (indexOf a.1) (indexOf b.1)) entries

/-- There is one way to put entries in order. -/
theorem mergeSort_eq_of_perm {entries ordered : List (Value × Value)} (h : InOrder ordered)
    (hperm : entries.Perm ordered) : entries.mergeSort byIndex = ordered := by
  have hsorted : ordered.Pairwise fun a b => byIndex a b = true :=
    h.imp fun hab => (IndexKey.before_iff.1 hab).1
  have hnodup : (ordered.map fun e => indexOf e.1).Nodup :=
    List.pairwise_map.2 (h.imp fun hab => (IndexKey.before_iff.1 hab).2)
  have hsame := (List.mergeSort_perm entries byIndex).trans hperm
  refine List.Perm.eq_of_pairwise (fun a b ha hb hab hba => ?_)
    (pairwise_mergeSort_byIndex entries) hsorted hsame
  exact List.inj_on_of_nodup_map hnodup (hsame.mem_iff.1 ha) hb (IndexKey.le_antisymm hab hba)

theorem inOrder_mergeSort {entries : List (Value × Value)}
    (h : entries.Pairwise fun a b => indexOf a.1 ≠ indexOf b.1) :
    InOrder (entries.mergeSort byIndex) := by
  have hdistinct : (entries.mergeSort byIndex).Pairwise fun a b => indexOf a.1 ≠ indexOf b.1 :=
    (List.mergeSort_perm entries byIndex).symm.pairwise h fun hab => hab.symm
  exact ((pairwise_mergeSort_byIndex entries).and hdistinct).imp IndexKey.before_iff.2

theorem ofValue_map_eq {entries : List (Value × Value)}
    (h : ∀ e ∈ entries, isInfiniteIndex e.1 = false) :
    ofValue (.map entries) = pure ((entries.mergeSort byIndex).map (·.2.text)) := by
  let indexed := entries.map fun e => (indexOf e.1, e.2)
  have hindexed : (entries.mapM fun e => (IndexKey.ofValue e.1).map (·, e.2)) = .ok indexed := by
    rw [mapM_eq_ok_iff, List.forall₂_map_right_iff, List.forall₂_same]
    intro e he
    rw [ofValue_eq_indexOf (h e he)]
    rfl
  have hsorted : (entries.mergeSort byIndex).map (fun e => (indexOf e.1, e.2)) =
      indexed.mergeSort fun a b => a.1.le b.1 :=
    List.map_mergeSort fun a _ b _ => rfl
  have hparents : ofEntries entries = .ok ((entries.mergeSort byIndex).map (·.2.text)) := by
    rw [ofEntries, hindexed, ok_bind, ← hsorted, List.map_map]
    rfl
  rw [ofValue, hparents]
  rfl

theorem ofValue_of_inOrder {entries ordered : List (Value × Value)} (h : InOrder ordered)
    (hfinite : ∀ e ∈ ordered, isInfiniteIndex e.1 = false) (hperm : entries.Perm ordered) :
    ofValue (.map entries) = pure (ordered.map (·.2.text)) := by
  rw [ofValue_map_eq fun e he => hfinite e (hperm.mem_iff.1 he), mergeSort_eq_of_perm h hperm]

/-! ## Places of a list -/

/-- A key that stands for a place in a list: its number, or the numeral of it. -/
def IsPlace (key : Value) (n : Nat) : Prop :=
  key = .int n ∨ key = .str (natString n)

theorem IsPlace.ofValue_eq {key : Value} {n : Nat} (h : IsPlace key n) :
    IndexKey.ofValue key = .ok (.number n) := by
  obtain rfl | rfl := h
  · rfl
  · rw [IndexKey.ofValue, IndexKey.ofText, readInteger?_natString]
    rfl

theorem IsPlace.indexOf_eq {key : Value} {n : Nat} (h : IsPlace key n) :
    indexOf key = .number n := by
  rw [indexOf, h.ofValue_eq]
  rfl

theorem IsPlace.finite {key : Value} {n : Nat} (h : IsPlace key n) :
    isInfiniteIndex key = false := by
  obtain rfl | rfl := h <;> rfl

theorem indexOf_places {keys : List Value} {places : List Nat}
    (h : List.Forall₂ IsPlace keys places) :
    keys.map indexOf = places.map fun n => .number n := by
  induction h with
  | nil => rfl
  | cons hkey _ ih => rw [List.map_cons, List.map_cons, hkey.indexOf_eq, ih]

theorem inOrder_places {keys items : List Value}
    (h : List.Forall₂ IsPlace keys (List.range items.length)) : InOrder (keys.zip items) := by
  have hlength : keys.length ≤ items.length := by rw [h.length_eq, List.length_range]
  have hkeys : (keys.zip items).map (fun e => indexOf e.1) = keys.map indexOf := by
    conv_rhs => rw [← List.map_fst_zip hlength, List.map_map]
    rfl
  have hplaces : ((keys.zip items).map fun e => indexOf e.1).Pairwise IndexKey.Before := by
    rw [hkeys, indexOf_places h, List.pairwise_map]
    exact List.pairwise_lt_range.imp fun hmn => Int.ofNat_lt.2 hmn
  exact List.pairwise_map.1 hplaces

theorem finite_of_places {keys : List Value} {places : List Nat}
    (h : List.Forall₂ IsPlace keys places) : ∀ key ∈ keys, isInfiniteIndex key = false := by
  induction h with
  | nil => exact fun _ hkey => (nomatch hkey)
  | cons hkey _ ih => exact List.forall_mem_cons.2 ⟨hkey.finite, ih⟩

theorem ofValue_map_of_places {keys items : List Value} {entries : List (Value × Value)}
    (hkeys : List.Forall₂ IsPlace keys (List.range items.length))
    (hperm : entries.Perm (keys.zip items)) : ofValue (.map entries) = ofValue (.list items) := by
  have hfinite : ∀ e ∈ keys.zip items, isInfiniteIndex e.1 = false := fun e he =>
    finite_of_places hkeys e.1 (List.of_mem_zip he).1
  have hlength : items.length ≤ keys.length := by rw [hkeys.length_eq, List.length_range]
  have hitems : (keys.zip items).map (·.2.text) = items.map Value.text := by
    conv_rhs => rw [← List.map_snd_zip hlength, List.map_map]
    rfl
  rw [ofValue_of_inOrder (inOrder_places hkeys) hfinite hperm, hitems, ofValue]

/-! ## Any index map -/

theorem pairwise_indexOf_ne {entries : List (Value × Value)}
    (hfinite : ∀ e ∈ entries, isInfiniteIndex e.1 = false)
    (h : entries.Pairwise fun a b => IndexKey.ofValue a.1 ≠ IndexKey.ofValue b.1) :
    entries.Pairwise fun a b => indexOf a.1 ≠ indexOf b.1 := by
  refine h.imp_of_mem fun ha hb hab hsame => hab ?_
  rw [ofValue_eq_indexOf (hfinite _ ha), ofValue_eq_indexOf (hfinite _ hb), hsame]

theorem exists_numbered_worded {ordered : List (Value × Value)} (h : InOrder ordered) :
    ∃ (numbered worded : List (Value × Value)) (ns : List Int) (ws : List String),
      ordered = numbered ++ worded ∧
      numbered.map (fun e => indexOf e.1) = ns.map .number ∧ ns.Pairwise (· < ·) ∧
      worded.map (fun e => indexOf e.1) = ws.map .word ∧ ws.Pairwise (· < ·) := by
  obtain ⟨ns, ws, hindices, hns, hws⟩ :=
    IndexKey.exists_numbers_words (List.pairwise_map.2 h : (ordered.map _).Pairwise _)
  obtain ⟨numbered, worded, hsplit, hnumbered, hworded⟩ := List.map_eq_append_iff.1 hindices
  exact ⟨numbered, worded, ns, ws, hsplit, hnumbered, hns, hworded, hws⟩

theorem map_ofValue_eq {entries : List (Value × Value)}
    (h : ∀ e ∈ entries, isInfiniteIndex e.1 = false) :
    entries.map (fun e => IndexKey.ofValue e.1) =
      (entries.map fun e => indexOf e.1).map Except.ok := by
  rw [List.map_map]
  exact List.map_congr_left fun e he => ofValue_eq_indexOf (h e he)

/-- **Parents given under indices stand in the order of the indices.** A map from the places of a
list to its items reads as the list, in whatever order its entries come. So does the order of the
entries of any map not matter whose keys have different indices: numbers come first, by size, and
then the other keys, by their texts. -/
theorem ofValue_by_index :
    (∀ (items keys : List Value) (entries : List (Value × Value)),
      List.Forall₂ IsPlace keys (List.range items.length) → entries.Perm (keys.zip items) →
        ofValue (.map entries) = ofValue (.list items)) ∧
    ∀ entries : List (Value × Value),
      (∀ e ∈ entries, isInfiniteIndex e.1 = false) →
      (entries.Pairwise fun a b => IndexKey.ofValue a.1 ≠ IndexKey.ofValue b.1) →
        (∀ shuffled : List (Value × Value), shuffled.Perm entries →
          ofValue (.map shuffled) = ofValue (.map entries)) ∧
        ∃ (numbered worded : List (Value × Value)) (ns : List Int) (ws : List String),
          (numbered ++ worded).Perm entries ∧
          ofValue (.map entries) = pure ((numbered ++ worded).map (·.2.text)) ∧
          numbered.map (fun e => IndexKey.ofValue e.1) = ns.map (fun n => .ok (.number n)) ∧
          ns.Pairwise (· < ·) ∧
          worded.map (fun e => IndexKey.ofValue e.1) = ws.map (fun w => .ok (.word w)) ∧
          ws.Pairwise (· < ·) := by
  refine ⟨fun items keys entries hkeys hperm => ofValue_map_of_places hkeys hperm, ?_⟩
  intro entries hfinite hdistinct
  have horder : InOrder (entries.mergeSort byIndex) :=
    inOrder_mergeSort (pairwise_indexOf_ne hfinite hdistinct)
  have hsame := List.mergeSort_perm entries byIndex
  have hfinite' : ∀ e ∈ entries.mergeSort byIndex, isInfiniteIndex e.1 = false := fun e he =>
    hfinite e (hsame.mem_iff.1 he)
  have hread : ∀ shuffled : List (Value × Value), shuffled.Perm entries →
      ofValue (.map shuffled) = pure ((entries.mergeSort byIndex).map (·.2.text)) :=
    fun shuffled hperm => ofValue_of_inOrder horder hfinite' (hperm.trans hsame.symm)
  refine ⟨fun shuffled hperm => (hread shuffled hperm).trans (hread entries (.refl _)).symm, ?_⟩
  obtain ⟨numbered, worded, ns, ws, hsplit, hnumbered, hns, hworded, hws⟩ :=
    exists_numbered_worded horder
  rw [hsplit] at hsame hfinite' hread
  refine ⟨numbered, worded, ns, ws, hsame, hread entries (.refl _), ?_, hns, ?_, hws⟩
  · rw [map_ofValue_eq fun e he => hfinite' e (List.mem_append_left _ he), hnumbered, List.map_map]
    rfl
  · rw [map_ofValue_eq fun e he => hfinite' e (List.mem_append_right _ he), hworded, List.map_map]
    rfl

theorem ofValue_by_index_mixed :
    ofValue (.map [(.str "2", .str "c"), (.int 0, .str "a"), (.str "1", .str "b")]) =
        ofValue (.list [.str "a", .str "b", .str "c"]) ∧
      ofValue (.map [(.str "x", .str "e"), (.str " 2", .str "c"), (.str "10", .str "d")]) =
        ofValue (.map [(.str " 2", .str "c"), (.str "10", .str "d"), (.str "x", .str "e")]) := by
  obtain ⟨hplaces, hindices⟩ := ofValue_by_index
  constructor
  · have hone : IsPlace (.str "1") 1 := .inr (by rw [natString, natText]; rfl)
    have htwo : IsPlace (.str "2") 2 := .inr (by rw [natString, natText]; rfl)
    refine hplaces _ [.int 0, .str "1", .str "2"] _ ?_ (List.perm_append_singleton _ _).symm
    exact .cons (.inl rfl) (.cons hone (.cons htwo .nil))
  · have h2 : IndexKey.ofValue (.str " 2") = .ok (.number 2) := rfl
    have h10 : IndexKey.ofValue (.str "10") = .ok (.number 10) := rfl
    have hx : IndexKey.ofValue (.str "x") = .ok (.word "x") := rfl
    refine (hindices _ ?_ ?_).1 _ (List.perm_append_singleton _ _).symm
    · simp [isInfiniteIndex]
    · simp [h2, h10, hx]

end Parents

end LayoutGrammar
