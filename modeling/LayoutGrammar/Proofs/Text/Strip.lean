import LayoutGrammar.Text.Blank
import Mathlib.Data.List.DropRight
import Mathlib.Data.List.TakeWhile

/-!
# Stripping blanks

A character that is not blank stops the stripping at both ends: what is in front of it loses its
leading blanks and what is behind it its trailing ones (`strip_append_cons`). A text either is blank
or falls apart at such a character (`blank_or_split`), and the other facts follow from these two
cases: stripping one end first, or twice, makes no difference, and a stripped text has no blanks at
its ends.
-/

namespace LayoutGrammar.Text

variable {c : Char} {cs : List Char}

theorem stripRight_eq_rdropWhile (cs : List Char) : stripRight cs = cs.rdropWhile isBlank := rfl

theorem stripLeft_eq_nil_iff : stripLeft cs = [] ↔ ∀ c ∈ cs, isBlank c = true :=
  List.dropWhile_eq_nil_iff

theorem stripLeft_append_cons (h : isBlank c = false) (front rest : List Char) :
    stripLeft (front ++ c :: rest) = stripLeft front ++ c :: rest := by
  unfold stripLeft
  rw [List.dropWhile_append]
  split
  · next hempty =>
    rw [List.isEmpty_iff.1 hempty, List.dropWhile_cons_of_neg (by simp [h]), List.nil_append]
  · rfl

theorem stripRight_append_cons (h : isBlank c = false) (front rest : List Char) :
    stripRight (front ++ c :: rest) = front ++ c :: stripRight rest := by
  have hreverse : (front ++ c :: rest).reverse = rest.reverse ++ c :: front.reverse := by simp
  rw [stripRight, hreverse, stripLeft_append_cons h, stripRight]
  simp

theorem strip_append_cons (h : isBlank c = false) (front rest : List Char) :
    strip (front ++ c :: rest) = stripLeft front ++ c :: stripRight rest := by
  rw [strip, stripLeft_append_cons h, stripRight_append_cons h]

/-- A text is blank, or it falls apart at a character that is not. -/
theorem blank_or_split (cs : List Char) :
    (∀ c ∈ cs, isBlank c = true) ∨ ∃ front c rest, cs = front ++ c :: rest ∧ isBlank c = false := by
  by_cases h : ∀ c ∈ cs, isBlank c = true
  · exact .inl h
  · simp only [not_forall, Bool.not_eq_true] at h
    obtain ⟨c, hc, hblank⟩ := h
    obtain ⟨front, rest, rfl⟩ := List.append_of_mem hc
    exact .inr ⟨front, c, rest, rfl, hblank⟩

theorem strip_of_blank (h : ∀ c ∈ cs, isBlank c = true) : strip cs = [] := by
  rw [strip, stripLeft_eq_nil_iff.2 h]
  rfl

theorem strip_stripLeft (cs : List Char) : strip (stripLeft cs) = strip cs := by
  have hleft : stripLeft (stripLeft cs) = stripLeft cs := List.dropWhile_idempotent isBlank cs
  rw [strip, hleft, strip]

theorem strip_stripRight (cs : List Char) : strip (stripRight cs) = strip cs := by
  rcases blank_or_split cs with hblank | ⟨front, c, rest, rfl, hc⟩
  · rw [stripRight_eq_rdropWhile, List.rdropWhile_eq_nil_iff.2 hblank, strip_of_blank hblank]
    rfl
  · have hright : stripRight (stripRight rest) = stripRight rest :=
      List.rdropWhile_idempotent isBlank rest
    rw [stripRight_append_cons hc, strip_append_cons hc, strip_append_cons hc, hright]

theorem strip_strip (cs : List Char) : strip (strip cs) = strip cs :=
  (strip_stripRight (stripLeft cs)).trans (strip_stripLeft cs)

/-- Of what is left after the leading blanks, stripping keeps the front. -/
theorem exists_stripLeft_eq_append (cs : List Char) : ∃ rest, stripLeft cs = strip cs ++ rest := by
  obtain ⟨rest, hrest⟩ := List.rdropWhile_prefix isBlank (stripLeft cs)
  exact ⟨rest, hrest.symm⟩

theorem mem_of_mem_strip (h : c ∈ strip cs) : c ∈ cs := by
  obtain ⟨rest, hrest⟩ := exists_stripLeft_eq_append cs
  have hsuffix : stripLeft cs <:+ cs := List.dropWhile_suffix isBlank
  refine hsuffix.subset ?_
  rw [hrest]
  exact List.mem_append_left rest h

theorem head_stripLeft : ∀ c ∈ (stripLeft cs).head?, isBlank c = false := by
  intro c hc
  have hhead := List.head?_dropWhile_not isBlank cs
  rw [← stripLeft, Option.mem_def.1 hc] at hhead
  exact hhead

theorem last_stripRight : ∀ c ∈ (stripRight cs).getLast?, isBlank c = false := by
  intro c hc
  rw [stripRight, List.getLast?_reverse] at hc
  exact head_stripLeft c hc

/-- A stripped text does not begin with a blank. -/
theorem head_strip : ∀ c ∈ (strip cs).head?, isBlank c = false := by
  intro c hc
  obtain ⟨rest, hrest⟩ := exists_stripLeft_eq_append cs
  obtain ⟨tail, htail⟩ := List.head?_eq_some_iff.1 hc
  have hleft : (stripLeft cs).head? = some c := by
    rw [hrest, htail]
    rfl
  exact head_stripLeft c hleft

end LayoutGrammar.Text
