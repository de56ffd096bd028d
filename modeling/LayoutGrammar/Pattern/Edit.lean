import LayoutGrammar.Extends.Check
import LayoutGrammar.Pattern.Name

/-!
# Edits to a dictionary

Every edit takes a dictionary to a new one or is refused; a refused edit changes nothing. Renaming
follows every reference, removing leaves references dangling, and an extends edge is added only when
`Extends.checkEdge` accepts it. `Edit` lists the edits, `Edit.apply` carries one out, and `History`
keeps what is needed to take edits back.
-/

namespace LayoutGrammar

open Logged

namespace Dictionary

/-- The pattern of an id, which has to exist. -/
def require (d : Dictionary) (id : String) : Except Error Pattern :=
  match d.get? id with
  | some p => .ok p
  | none => .error (.unknownPattern id)

/-- Refuses an edit with a note. -/
def refuse {α : Type} (cause : Error) : Logged Notice Error α := do
  say (.rejectedEdit cause)
  fail cause

/-- Goes on with a value; an error refuses the edit with a note. -/
def orRefuse {α : Type} : Except Error α → Logged Notice Error α
  | .ok a => pure a
  | .error cause => refuse cause

/-! ## Whole patterns -/

/-- Adds an empty pattern, under a made-up id if none is given; also returns the id. -/
def create (d : Dictionary) (id : Option Value) (kind : Value) :
    Logged Notice Error (Dictionary × String) := do
  let new ← ofExcept (id.elim (.ok (nextId d.keys)) patternName)
  if d.contains new then refuse (.duplicatePattern new)
  else pure (d.insert new { Pattern.blank with kind }, new)

/-- `new` in place of `old`. -/
def substitute (old new id : String) : String := if id = old then new else id

/-- A component that points at `new` wherever it pointed at `old`. -/
def renameComponent (old new : String) (c : Component) : Component :=
  { c with pattern := substitute old new c.pattern }

/-- A pattern that points at `new` wherever it pointed at `old`. -/
def renameReferences (old new : String) (p : Pattern) : Pattern :=
  { p with
    inner := p.inner.mapValues (renameComponent old new)
    outer := p.outer.mapValues (renameComponent old new)
    parents := p.parents.map (substitute old new)
    itemPattern := p.itemPattern.map (substitute old new) }

/-- Renames a pattern and every reference to it. -/
def rename (d : Dictionary) (old : String) (raw : Value) : Logged Notice Error Dictionary := do
  let _ ← ofExcept (d.require old)
  let new ← orRefuse (patternName raw)
  if new = old then pure d
  else if d.contains new then refuse (.duplicatePattern new)
  else do
    say (.renamed old new)
    pure (.ofList (d.entries.map fun e => (substitute old new e.1, renameReferences old new e.2)))

/-- Removes a pattern; references to it stay. -/
def remove (d : Dictionary) (id : String) : Logged Notice Error Dictionary := do
  let _ ← ofExcept (d.require id)
  pure (d.erase id)

/-! ## Fields -/

/-- The fields that have edits of their own. -/
def separateFields : List String := ["inner", "outer", "extends", "item_pattern"]

/-- The names that a field cannot have, because they stand for the dictionary and the pattern. -/
def reservedFields : List String := ["patterns", "pattern_id"]

/-- Sets the kind, the size or a free property; a property set to null is removed. -/
def updateField (p : Pattern) (field : String × Value) : Except Error Pattern :=
  if field.1 = "kind" then .ok { p with kind := field.2 }
  else if field.1 = "size" then .ok { p with size := field.2 }
  else if separateFields.contains field.1 then .error (.separateEdit (.str field.1))
  else if field.2.isGiven then
    .ok { p with properties := p.properties.insert (.str field.1) field.2 }
  else .ok { p with properties := p.properties.erase (.str field.1) }

/-- Sets several fields of a pattern in order. -/
def update (d : Dictionary) (id : String) (fields : List (String × Value)) :
    Logged Notice Error Dictionary := do
  match fields.find? fun field => reservedFields.contains field.1 with
  | some field => fail (.reservedField field.1)
  | none => do
    let p ← ofExcept (d.require id)
    let p ← ofExcept (fields.foldlM updateField p)
    pure (d.insert id p)

/-- Sets or clears the item pattern. -/
def setItem (d : Dictionary) (id : String) (item : Option String) :
    Logged Notice Error Dictionary := do
  let p ← ofExcept (d.require id)
  pure (d.insert id { p with itemPattern := item })

/-! ## Components -/

/-- The owner of a component and its components at a known placement. -/
def owner (d : Dictionary) (id : String) (placement : Placement) :
    Except Error (Pattern × Table String Component) := do
  unless placement.isKnown do throw (.unknownPlacement placement.name)
  let p ← d.require id
  let cs ← p.components placement
  pure (p, cs)

/-- Adds a component; without a pattern it shows the pattern of its own name. -/
def addComponent (d : Dictionary) (id : String) (placement : Placement) (name : String)
    (pattern : Option String) (location : Location) : Logged Notice Error Dictionary := do
  let (p, cs) ← ofExcept (d.owner id placement)
  if Text.isBlankText name then fail .blankComponentName
  else if cs.contains name then refuse (.componentCollision id placement.name name)
  else do
    let shown := (pattern.filter (· ≠ "")).getD name
    pure (d.insert id (p.mapComponents placement (·.insert name ⟨shown, location⟩)))

/-- Removes a component. -/
def removeComponent (d : Dictionary) (id : String) (placement : Placement) (name : String) :
    Logged Notice Error Dictionary := do
  let (p, cs) ← ofExcept (d.owner id placement)
  if cs.contains name then pure (d.insert id (p.mapComponents placement (·.erase name)))
  else fail (.unknownComponent id placement.name name)

/-- Sets one side of a component's location from a token; a missing or blank token clears it. -/
def setSide (d : Dictionary) (id : String) (placement : Placement) (name key : String)
    (token : Option String) : Logged Notice Error Dictionary := do
  let (p, cs) ← ofExcept (d.owner id placement)
  match cs.get? name with
  | none => fail (.unknownComponent id placement.name name)
  | some c => do
    let location ← c.location.setToken key token true
    pure (d.insert id (p.mapComponents placement (·.insert name { c with location })))

/-! ## Parents -/

/-- Adds an extends edge. -/
def addParent (d : Dictionary) (id target : String) : Logged Notice Error Dictionary := do
  let p ← ofExcept (d.require id)
  orRefuse (Extends.checkEdge d id target)
  pure (d.insert id { p with parents := p.parents ++ [target] })

/-- Removes an extends edge, if it is there. -/
def removeParent (d : Dictionary) (id target : String) : Logged Notice Error Dictionary := do
  let p ← ofExcept (d.require id)
  pure (d.insert id { p with parents := p.parents.erase target })

/-! ## Looking around -/

/-- The pattern that a component shows, if it exists. -/
def shownPattern (d : Dictionary) (c : Component) : Logged Notice Error (Option Pattern) :=
  match d.get? c.pattern with
  | some p => pure (some p)
  | none => do
    say (.danglingComponent c.pattern)
    pure none

/-- The pattern that a component shows, found by its owner, its placement and its name. -/
def shownBy (d : Dictionary) (owner : String) (placement : Placement) (name : String) :
    Logged Notice Error (Option Pattern) := do
  let p ← ofExcept (d.require owner)
  let cs ← ofExcept (p.components placement)
  match cs.get? name with
  | some c => d.shownPattern c
  | none => fail (.noEntry name)

/-- The ids of the patterns that point at a pattern in any way. -/
def referrers (d : Dictionary) (id : String) : List String :=
  (d.entries.filter fun e => e.2.references.contains id).map (·.1)

end Dictionary

/-- One edit with its arguments. -/
inductive Edit where
  | create (id : Option Value) (kind : Value)
  | rename (old : String) (new : Value)
  | remove (id : String)
  | update (id : String) (fields : List (String × Value))
  | setItem (id : String) (item : Option String)
  | addComponent (owner : String) (placement : Placement) (name : String)
      (pattern : Option String) (location : Location)
  | removeComponent (owner : String) (placement : Placement) (name : String)
  | setSide (owner : String) (placement : Placement) (name key : String) (token : Option String)
  | addParent (id target : String)
  | removeParent (id target : String)

namespace Edit

/-- Carries out an edit. -/
def apply (d : Dictionary) : Edit → Logged Notice Error Dictionary
  | .create id kind => do
    let (d', _) ← d.create id kind
    pure d'
  | .rename old new => d.rename old new
  | .remove id => d.remove id
  | .update id fields => d.update id fields
  | .setItem id item => d.setItem id item
  | .addComponent owner placement name pattern location =>
    d.addComponent owner placement name pattern location
  | .removeComponent owner placement name => d.removeComponent owner placement name
  | .setSide owner placement name key token => d.setSide owner placement name key token
  | .addParent id target => d.addParent id target
  | .removeParent id target => d.removeParent id target

/-- Carries out an edit; a refused one leaves the dictionary as it is. -/
def applyOrKeep (d : Dictionary) (e : Edit) : Dictionary :=
  match (e.apply d).result with
  | .ok d' => d'
  | .error _ => d

/-- Carries out edits one after the other. -/
def applyAll (d : Dictionary) (edits : List Edit) : Dictionary := edits.foldl applyOrKeep d

end Edit

/-- A dictionary with the dictionaries before the edits that can be taken back, latest first. -/
structure History where
  current : Dictionary
  past : List Dictionary

namespace History

/-- A history without edits. -/
def start (d : Dictionary) : History := ⟨d, []⟩

/-- Goes on with the outcome of an edit. -/
def record (h : History) (d : Dictionary) : History := ⟨d, h.current :: h.past⟩

/-- Takes the last edit back, if there is one. -/
def undo (h : History) : History :=
  match h.past with
  | [] => h
  | d :: past => ⟨d, past⟩

end History

end LayoutGrammar
