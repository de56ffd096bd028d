import LayoutGrammar.Text.Blank
import LayoutGrammar.Text.Digit

/-!
# Numerals

Writing integers in decimal and reading them back. Written numerals are the shortest ones in common
digits; reading is more generous: digits of any script, blanks around the numeral, a sign, and
single underscores between digits. `digitsValue_natText` is the round trip.

Numerals have any number of digits. An interpreter may be set to refuse conversions between integers
and texts beyond some number of digits; that is a guard of the process, which can be changed or
turned off, and is not modelled.
-/

namespace LayoutGrammar.Text

/-- The common digit worth `d`. -/
def digitChar (d : Nat) : Char := Char.ofNat (48 + d)

/-- The decimal numeral of a natural number, without leading zeros. -/
def natText (n : Nat) : List Char :=
  if n < 10 then [digitChar n] else natText (n / 10) ++ [digitChar (n % 10)]

/-- The decimal numeral of an integer. -/
def intText : Int → List Char
  | .ofNat n => natText n
  | .negSucc n => '-' :: natText (n + 1)

/-- `natText` as a string. -/
def natString (n : Nat) : String := String.ofList (natText n)

/-- `intText` as a string. -/
def intString (n : Int) : String := String.ofList (intText n)

/-- The last `width` digits of a number in base sixteen, in lower case. -/
def hexText : (width : Nat) → Nat → List Char
  | 0, _ => []
  | width + 1, n => hexText width (n / 16) ++ [(Nat.toDigits 16 (n % 16)).getD 0 '0']

/-- A leading run of digits in which single underscores may stand between two digits, without the
underscores, and what follows it. -/
def spanGroupedDigits : List Char → List Char × List Char
  | [] => ([], [])
  | c :: '_' :: d :: rest =>
    if isDigit c then
      if isDigit d then
        let (digits, after) := spanGroupedDigits (d :: rest)
        (c :: digits, after)
      else ([c], '_' :: d :: rest)
    else ([], c :: '_' :: d :: rest)
  | c :: rest =>
    if isDigit c then
      let (digits, after) := spanGroupedDigits rest
      (c :: digits, after)
    else ([], c :: rest)

/-- Whether a minus sign leads the text, and the text after the sign, if there is one. -/
def splitSign : List Char → Bool × List Char
  | '-' :: rest => (true, rest)
  | '+' :: rest => (false, rest)
  | cs => (false, cs)

/-- The integer that a text spells: blanks around it, a sign, digits in groups. -/
def readInteger? (s : String) : Option Int :=
  let (negative, body) := splitSign (stripNumeral s.toList)
  match spanGroupedDigits body with
  | (c :: digits, []) =>
    let n : Int := digitsValue (c :: digits)
    some (if negative then -n else n)
  | _ => none

theorem digitValue?_digitChar {d : Nat} (h : d < 10) : digitValue? (digitChar d) = some d :=
  digitValue?_ascii d h

theorem digitsValue_append_singleton (cs : List Char) (c : Char) :
    digitsValue (cs ++ [c]) = 10 * digitsValue cs + (digitValue? c).getD 0 := by
  simp [digitsValue]

/-- A written numeral is worth the number it was written for. -/
theorem digitsValue_natText (n : Nat) : digitsValue (natText n) = n := by
  fun_induction natText n with
  | case1 n h => simp [digitsValue, digitValue?_digitChar h]
  | case2 n h ih =>
    rw [digitsValue_append_singleton, ih, digitValue?_digitChar (Nat.mod_lt _ (by decide))]
    simp only [Option.getD_some]
    omega

/-- A written numeral holds digits only. -/
theorem isDigit_of_mem_natText {n : Nat} {c : Char} (h : c ∈ natText n) : isDigit c = true := by
  fun_induction natText n with
  | case1 n hn =>
    rw [List.mem_singleton] at h
    simp [isDigit, h, digitValue?_digitChar hn]
  | case2 n hn ih =>
    rcases List.mem_append.1 h with h | h
    · exact ih h
    · rw [List.mem_singleton] at h
      simp [isDigit, h, digitValue?_digitChar (Nat.mod_lt n (by decide : 0 < 10))]

theorem natText_ne_nil (n : Nat) : natText n ≠ [] := by
  rw [natText]; split <;> simp

end LayoutGrammar.Text
