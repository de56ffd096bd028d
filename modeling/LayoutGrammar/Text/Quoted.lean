import LayoutGrammar.Text.Numeral
import LayoutGrammar.Text.Printable

/-!
# Quoted texts

How a text is quoted in a message: in single quotes, or in double quotes when it holds a single
quote and no double one. The quote in use and the backslash are escaped, and so is every character
that would not print, by its name where it has a common one and by its code point otherwise. Bytes
are quoted the same way, except that only common characters count as printing.
-/

namespace LayoutGrammar.Text

/-- The quote that needs the fewest escapes; single quotes are preferred. -/
def quoteFor (cs : List Char) : Char :=
  if cs.contains '\'' && !cs.contains '"' then '"' else '\''

/-- One character inside quotes. -/
def escape (quote c : Char) : List Char :=
  if c == quote || c == '\\' then ['\\', c]
  else if c == '\t' then ['\\', 't']
  else if c == '\n' then ['\\', 'n']
  else if c == '\r' then ['\\', 'r']
  else if isPrintable c then [c]
  else
    let n := c.val.toNat
    if n < 0x100 then '\\' :: 'x' :: hexText 2 n
    else if n < 0x10000 then '\\' :: 'u' :: hexText 4 n
    else '\\' :: 'U' :: hexText 8 n

/-- A text in quotes. -/
def quoteChars (cs : List Char) : List Char :=
  let quote := quoteFor cs
  quote :: cs.flatMap (escape quote) ++ [quote]

/-- A string in quotes. -/
def quoted (s : String) : String := String.ofList (quoteChars s.toList)

/-- One byte inside quotes. -/
def escapeByte (quote : Char) (b : UInt8) : List Char :=
  if b.toNat < 0x7F then escape quote (Char.ofNat b.toNat) else '\\' :: 'x' :: hexText 2 b.toNat

/-- Bytes in quotes. -/
def quotedBytes (bs : List UInt8) : String :=
  let quote := quoteFor (bs.map fun b => Char.ofNat b.toNat)
  String.ofList ('b' :: quote :: bs.flatMap (escapeByte quote) ++ [quote])

end LayoutGrammar.Text
