import LayoutGrammar.Notice

/-!
# Lists of parents

The patterns that a pattern extends may be given as one text, as a sequence, or as a map whose keys
are indices. Keys that read as integers come first, in increasing order, then the other keys in the
order of their texts; keys that are equal as indices keep their order.
-/

namespace LayoutGrammar.Parents

/-- What a key of an index map is sorted by. -/
inductive IndexKey where
  | number (n : Int)
  | word (s : String)
deriving DecidableEq, Repr

namespace IndexKey

/-- Numbers stand before words. -/
def le : IndexKey → IndexKey → Bool
  | .number m, .number n => m ≤ n
  | .number _, .word _ => true
  | .word _, .number _ => false
  | .word s, .word t => !(t < s)

/-- The index that a text gives: its number, or else the text that stands for the key. -/
def ofText (s word : String) : IndexKey := ((Text.readInteger? s).map number).getD (.word word)

/-- The index that a key gives; doubles lose their fraction, and bytes are read as letters. -/
def ofValue : Value → Except Error IndexKey
  | .bool b => .ok (.number (if b then 1 else 0))
  | .int n => .ok (.number n)
  | .float x =>
    match Decimal.Binary64.ofFloat x with
    | .infinite _ => .error .infiniteIndex
    | parts =>
      match parts.truncate? with
      | some n => .ok (.number n)
      | none => .ok (.word (Value.float x).text)
  | .str s => .ok (ofText s s)
  | .bytes bs =>
    let word := (Value.bytes bs).text
    if bs.all (·.toNat < 128) then
      .ok (ofText (String.ofList (bs.map fun b => Char.ofNat b.toNat)) word)
    else .ok (.word word)
  | key => .ok (.word key.text)

end IndexKey

/-- The values of an index map, sorted by their keys. -/
def ofEntries (entries : List (Value × Value)) : Except Error (List String) := do
  let indexed ← entries.mapM fun e => (IndexKey.ofValue e.1).map (·, e.2)
  pure ((indexed.mergeSort fun a b => a.1.le b.1).map (·.2.text))

/-- The list of parents that a raw value gives. -/
def ofValue : Value → Logged Notice Error (List String)
  | .null => pure []
  | .str s => pure [s]
  | .list items | .tuple items => pure (items.map Value.text)
  | .map entries => Logged.ofExcept (ofEntries entries)
  | raw => do
    Logged.say (.ignoredExtends raw)
    pure []

end LayoutGrammar.Parents
