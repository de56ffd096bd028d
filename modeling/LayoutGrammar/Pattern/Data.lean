import LayoutGrammar.Pattern.Basic

/-!
# Patterns as plain data

A dictionary is written as a tree in which every pattern is one flat map: kind and size where they
are given, the free properties, the item pattern, the components with their locations as tokens, and
the parents.
-/

namespace LayoutGrammar

/-- A location as a map of tokens. -/
def Location.toValue (l : Location) : Value :=
  .map (l.tokens.map fun e => (.str e.1.name, .str e.2))

/-- A component as a map. -/
def Component.toValue (c : Component) : Value :=
  .map ((.str "pattern", .str c.pattern) ::
    if c.location.isFree then [] else [(.str "location", c.location.toValue)])

namespace Pattern

/-- Components as an entry of the pattern's map, if there are any. -/
def componentsEntry (placement : Placement) (cs : Table String Component) :
    List (Value × Value) :=
  if cs.isEmpty then []
  else [(.str placement.name, .map (cs.entries.map fun e => (.str e.1, e.2.toValue)))]

/-- The entries of the pattern's map in the order in which they are written. -/
def dataEntries (p : Pattern) : List (Value × Value) :=
  (if p.kind.isGiven then [(.str "kind", p.kind)] else []) ++
    (if p.size.isGiven then [(.str "size", p.size)] else []) ++
    p.properties.entries ++
    (p.itemPattern.elim [] fun item => [(.str "item_pattern", .str item)]) ++
    componentsEntry .inner p.inner ++
    componentsEntry .outer p.outer ++
    (if p.parents.isEmpty then [] else [(.str "extends", .list (p.parents.map .str))])

/-- A pattern as one flat map; a key written twice keeps its place and its last value. -/
def toValue (p : Pattern) : Value := .ofEntries p.dataEntries

end Pattern

/-- A dictionary as a tree. -/
def Dictionary.toValue (d : Dictionary) : Value :=
  .map [(.str "patterns", .map (d.entries.map fun e => (.str e.1, e.2.toValue)))]

/-! ## Comparing

Patterns compare as their values do: numbers by what they stand for, maps and tables without regard
to order. -/

/-- Whether two tables hold the same components. -/
def sameComponents (cs cs' : Table String Component) : Bool :=
  cs.size == cs'.size && cs.entries.all fun e => cs'.get? e.1 == some e.2

/-- Whether two patterns agree in every part. -/
def Pattern.alike (p q : Pattern) : Bool :=
  p.kind.alike q.kind && p.size.alike q.size &&
    (Value.map p.properties.entries).alike (.map q.properties.entries) &&
    sameComponents p.inner q.inner && sameComponents p.outer q.outer &&
    p.parents == q.parents && p.itemPattern == q.itemPattern

/-- Whether two dictionaries hold patterns that agree under the same ids, in any order. -/
def Dictionary.alike (d d' : Dictionary) : Bool :=
  d.size == d'.size && d.entries.all fun e => (d'.get? e.1).any e.2.alike

end LayoutGrammar
