import LayoutGrammar.Tree.Value

/-!
# The order of sets

A set shows its items in an order of its own: each item has a place in a row of slots, given by its
residue, and takes the next free slot of its search if the place is taken. The row grows fourfold
when three fifths of it are taken, and its items are placed anew. Only numbers, and tuples of them,
have residues; a set with other items keeps the order in which they came.
-/

namespace LayoutGrammar

namespace Residue

/-- The modulus of the residues of numbers. -/
def modulus : Nat := Decimal.twoTo 61 - 1

/-- A residue with a sign in the integers modulo a power of two; minus one gives way to
minus two. -/
def signed (negative : Bool) (residue : Nat) : UInt64 :=
  let n : Int := if negative then -(residue : Int) else residue
  UInt64.ofInt (if n = -1 then -2 else n)

/-- The residue of a double. A double that is a whole number has the residue of that number, because
multiplying by two sixty-one times changes no residue. -/
def ofFloat? (x : Float) : Option UInt64 :=
  match Decimal.Binary64.ofFloat x with
  | .finite negative mantissa exponent =>
    some (signed negative (mantissa * Decimal.twoTo (exponent % 61).toNat % modulus))
  | .infinite negative => some (signed negative 314159)
  | .notANumber => none

/-- Turns the binary digits of a word round by 31 places. -/
def turn (w : UInt64) : UInt64 := (w <<< 31) ||| (w >>> 33)

/-- The residue of a tuple, from the residues of its items. -/
def ofItems (items : List UInt64) : UInt64 :=
  let start : UInt64 := 2870177450012600261
  let mixed := items.foldl
    (fun w item => turn (w + item * 14029467366897019727) * 11400714785074694791) start
  let w := mixed + (items.length.toUInt64 ^^^ (start ^^^ 3527539))
  if w = UInt64.ofInt (-1) then 1546275796 else w

mutual

/-- The residue of a value, if it is known. -/
def ofValue? : Value → Option UInt64
  | .bool b => some (if b then 1 else 0)
  | .int n => some (signed (n < 0) (n.natAbs % modulus))
  | .float x => ofFloat? x
  | .tuple items => (ofValues? items).map ofItems
  | _ => none

/-- The residues of values, if they all are known. -/
def ofValues? : List Value → Option (List UInt64)
  | [] => some []
  | v :: rest =>
    match ofValue? v, ofValues? rest with
    | some w, some ws => some (w :: ws)
    | _, _ => none

end

end Residue

namespace SetOrder

variable {β : Type}

/-- A row of slots, whose number is a power of two, and how many of them are taken. -/
structure Slots (β : Type) where
  row : Array (Option (UInt64 × β))
  taken : Nat

namespace Slots

/-- A row without items. -/
def empty (size : Nat) : Slots β := ⟨Array.replicate size none, 0⟩

/-- The first free slot among ten in a row, or at the place itself if the row is too short. -/
def near? (s : Slots β) (place : Nat) : Option Nat :=
  let reach := if place + 9 < s.row.size then 10 else 1
  (List.range reach).map (place + ·) |>.find? fun i => (s.row.getD i none).isNone

/-- The first free slot of a search from a place on. -/
def free : (steps : Nat) → (s : Slots β) → (shift : UInt64) → (place : Nat) → Nat
  | 0, _, _, place => place
  | steps + 1, s, shift, place =>
    match s.near? place with
    | some i => i
    | none =>
      let shift := shift >>> 5
      free steps s shift ((place * 5 + 1 + shift.toNat) % s.row.size)

/-- Puts an item into the free slot of its search. -/
def place (s : Slots β) (item : UInt64 × β) : Slots β :=
  let i := free (s.row.size + 14) s item.1 (item.1.toNat % s.row.size)
  ⟨s.row.set! i (some item), s.taken + 1⟩

/-- The items in order. -/
def items (s : Slots β) : List (UInt64 × β) := s.row.toList.filterMap id

/-- The least number of slots, a power of two from eight on, that is greater than a number. -/
def sizeAbove (n : Nat) : (steps : Nat) → Nat → Nat
  | 0, size => size
  | steps + 1, size => if size ≤ n then sizeAbove n steps (2 * size) else size

/-- A row with more than `least` slots and the same items, placed anew. -/
def resize (s : Slots β) (least : Nat) : Slots β :=
  s.items.foldl place (empty (sizeAbove least least 8))

/-- Adds an item; a row that is full by three fifths grows. -/
def add (s : Slots β) (item : UInt64 × β) : Slots β :=
  let s := s.place item
  if s.taken * 5 < (s.row.size - 1) * 3 then s
  else s.resize (if 50000 < s.taken then s.taken * 2 else s.taken * 4)

end Slots

/-- Items of which none equals an earlier one. -/
def distinct {κ : Type} [BEq κ] (entries : List (κ × β)) : List (κ × β) :=
  entries.foldl (fun kept e => if kept.any (·.1 == e.1) then kept else kept ++ [e]) []

/-- Items in the order of a set, given what each is compared by and its residue. If there is a known
number of items, room is made for them in advance. -/
def arrange {κ : Type} [BEq κ] (residue? : κ → Option UInt64) (known : Bool)
    (entries : List (κ × β)) : List β :=
  let kept := distinct entries
  match kept.mapM fun e => (residue? e.1).map (·, e.2) with
  | none => kept.map (·.2)
  | some placed =>
    let start : Slots β := .empty 8
    let start := if known && 21 ≤ placed.length * 5 then start.resize (placed.length * 2) else start
    (placed.foldl Slots.add start).items.map (·.2)

end SetOrder

namespace Value

/-- The set of the keys of a map. -/
def setOfKeys (keys : List Value) : Value :=
  .set (SetOrder.arrange Residue.ofValue? true (keys.map fun k => (k, k)))

end Value

end LayoutGrammar
