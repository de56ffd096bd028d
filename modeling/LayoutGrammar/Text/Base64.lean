/-!
# Bytes in base 64

Four characters of an alphabet of sixty-four stand for three bytes. Characters outside the alphabet
are passed over; a text ends with its padding, and one that breaks off inside a group without
padding stands for nothing.
-/

namespace LayoutGrammar.Text

/-- What a character of the alphabet is worth. -/
def sextet? (c : Char) : Option Nat :=
  if 'A' ≤ c && c ≤ 'Z' then some (c.toNat - 65)
  else if 'a' ≤ c && c ≤ 'z' then some (c.toNat - 71)
  else if '0' ≤ c && c ≤ '9' then some (c.toNat + 4)
  else if c == '+' then some 62
  else if c == '/' then some 63
  else none

/-- A group of sextets that is being filled: how many it holds, the bits that are left over, and the
padding that followed them. -/
structure Group where
  held : Nat
  left : Nat
  pads : Nat

namespace Group

/-- A group before its first sextet. -/
def empty : Group := ⟨0, 0, 0⟩

/-- The group after one more sextet, and the byte that it completes. -/
def push (g : Group) (sextet : Nat) : Group × Option UInt8 :=
  match g.held with
  | 0 => (⟨1, sextet, 0⟩, none)
  | 1 => (⟨2, sextet % 16, 0⟩, some (g.left * 4 + sextet / 16).toUInt8)
  | 2 => (⟨3, sextet % 4, 0⟩, some (g.left * 16 + sextet / 4).toUInt8)
  | _ => (empty, some (g.left * 64 + sextet).toUInt8)

end Group

/-- The bytes that a text stands for, given the group that is being filled. -/
def bytesFrom (g : Group) : List Char → Option (List UInt8)
  | [] => if g.held = 0 then some [] else none
  | '=' :: rest =>
    if 2 ≤ g.held then
      if 4 ≤ g.held + (g.pads + 1) then some []
      else bytesFrom { g with pads := g.pads + 1 } rest
    else bytesFrom g rest
  | c :: rest =>
    match sextet? c with
    | none => bytesFrom g rest
    | some sextet =>
      let (g', byte) := g.push sextet
      (bytesFrom g' rest).map (byte.toList ++ ·)

/-- The bytes that a text in base 64 stands for. -/
def base64Bytes (cs : List Char) : Option (List UInt8) := bytesFrom .empty cs

end LayoutGrammar.Text
