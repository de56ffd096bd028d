/-!
# Blank characters

The white space of the location language: the code points that separate words in any script, with
the four information separators and the next-line control. `strip` removes blanks at both ends;
`strip_of_ends` says that a text that neither begins nor ends with a blank is left alone.
-/

namespace LayoutGrammar.Text

/-- White space in any script; zero-width spaces are not blank. -/
def isBlank (c : Char) : Bool :=
  let n := c.val.toNat
  (9 ≤ n && n ≤ 13) || (28 ≤ n && n ≤ 32) || n == 0x85 || n == 0xA0 || n == 0x1680 ||
    (0x2000 ≤ n && n ≤ 0x200A) || n == 0x2028 || n == 0x2029 || n == 0x202F || n == 0x205F ||
    n == 0x3000

/-- A text without its leading blanks. -/
def stripLeft (cs : List Char) : List Char := cs.dropWhile isBlank

/-- A text without its trailing blanks. -/
def stripRight (cs : List Char) : List Char := (stripLeft cs.reverse).reverse

/-- A text without the blanks at its two ends. -/
def strip (cs : List Char) : List Char := stripRight (stripLeft cs)

/-- The blanks that may surround a numeral: the four information separators are none of them. -/
def isNumeralBlank (c : Char) : Bool :=
  let n := c.val.toNat
  isBlank c && !(28 ≤ n && n ≤ 31)

/-- A text without the blanks at its two ends that a numeral may have. -/
def stripNumeral (cs : List Char) : List Char :=
  ((cs.dropWhile isNumeralBlank).reverse.dropWhile isNumeralBlank).reverse

/-- `strip` on strings. -/
def stripped (s : String) : String := String.ofList (strip s.toList)

/-- A text of blanks only, or of nothing. -/
def isBlankText (s : String) : Bool := s.toList.all isBlank

/-- A text without one final line break. -/
def dropFinalBreak (cs : List Char) : List Char :=
  if cs.getLast? = some '\n' then cs.dropLast else cs

theorem stripLeft_of_head {c : Char} {cs : List Char} (h : isBlank c = false) :
    stripLeft (c :: cs) = c :: cs := by
  simp [stripLeft, h]

theorem stripRight_of_last {c : Char} {cs : List Char} (h : isBlank c = false) :
    stripRight (cs ++ [c]) = cs ++ [c] := by
  simp [stripRight, stripLeft_of_head h]

/-- A text that begins and ends with characters that are not blank is its own strip. -/
theorem strip_of_ends {cs : List Char} (hh : ∀ c ∈ cs.head?, isBlank c = false)
    (hl : ∀ c ∈ cs.getLast?, isBlank c = false) : strip cs = cs := by
  rcases cs.eq_nil_or_concat with h | ⟨front, l, h⟩
  · subst h; rfl
  · rw [List.concat_eq_append] at h
    subst h
    have hl' : isBlank l = false := hl l (by simp)
    have hleft : stripLeft (front ++ [l]) = front ++ [l] := by
      cases front with
      | nil => exact stripLeft_of_head hl'
      | cons c front => exact stripLeft_of_head (hh c (by simp))
    rw [strip, hleft, stripRight_of_last hl']

end LayoutGrammar.Text
