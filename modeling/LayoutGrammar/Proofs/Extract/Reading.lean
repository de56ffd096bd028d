import LayoutGrammar.Pattern.Extract
import LayoutGrammar.Proofs.Constraint.Location

/-!
# What an entry reads as

Reading the map of an entry does two things side by side: it enters the patterns that its
components define, which changes the dictionary, and it builds the entry's own pattern. The two do
not meet. `definedBy` lists the definitions in the order in which they are entered, `ownFields` and
`ownParents` are the pattern as a function of the map alone, and `result_readPattern` takes the
reading apart into the three.
-/

namespace LayoutGrammar

/-- A loop over pairs whose first halves are threaded through lists of steps and whose second halves
are folded splits into the two. -/
theorem foldlM_split {ε α β σ τ : Type} {f : σ × τ → α → Except ε (σ × τ)} {g : α → List β}
    {step : σ → β → Except ε σ} {fold : τ → α → τ}
    (hf : ∀ d p a, f (d, p) a = (g a).foldlM step d >>= fun d' => .ok (d', fold p a))
    (items : List α) (d : σ) (p : τ) :
    items.foldlM f (d, p) =
      (items.flatMap g).foldlM step d >>= fun d' => .ok (d', items.foldl fold p) := by
  induction items generalizing d p with
  | nil => rfl
  | cons a rest ih =>
    rw [List.foldlM_cons, hf, List.flatMap_cons, List.foldlM_append, bind_assoc, bind_assoc]
    refine bind_congr fun d' => ?_
    exact ih d' (fold p a)

namespace Extract

open Logged

/-! ## Fields -/

theorem isText_iff {s : String} {k : Value} : isText s k = true ↔ k = .str s := by
  cases k <;> simp [isText]

theorem isStructural_iff {k : Value} :
    isStructural k = true ↔ ∃ name ∈ structuralKeys, k = .str name := by
  cases k <;> simp [isStructural]

/-- `takeField` without its notice. -/
def setField (p : Pattern) (key value : Value) : Pattern :=
  if isText "kind" key then { p with kind := value }
  else if isText "size" key then { p with size := (textOf? value).elim .null .str }
  else { p with properties := p.properties.insert key value }

theorem result_takeField (p : Pattern) (key value : Value) :
    (takeField p key value).result = .ok (setField p key value) := by
  unfold takeField setField
  split
  · split <;> simp
  · split <;> rfl

/-- `hoistField` without its notice. -/
def setHoisted (isArray : Bool) (p : Pattern) (entry : Value × Value) : Pattern :=
  if isText "item_pattern" entry.1 then
    if isArray then { p with itemPattern := textOf? entry.2 } else p
  else setField p entry.1 entry.2

theorem result_hoistField (isArray : Bool) (p : Pattern) (entry : Value × Value) :
    (hoistField isArray p entry).result = .ok (setHoisted isArray p entry) := by
  unfold hoistField setHoisted
  split
  · rfl
  · exact result_takeField p entry.1 entry.2

/-- The pattern that a definition gives by itself. -/
def hoisted (definition : List (Value × Value)) : Pattern :=
  definition.foldl (setHoisted ((Value.field? "kind" definition).any (isText "array"))) .blank

theorem result_hoist (definition : List (Value × Value)) :
    (hoist .blank definition).result = .ok (hoisted definition) :=
  result_foldlM_of_ok (result_hoistField _) _ _

/-! ## Components -/

section Source

variable {ν : Type} (source : Source ν) (inline : Inline ν)

/-- The location that the map of a component gives. -/
def locationOf (entries : List (Value × Slot ν)) : Location :=
  Location.lenient (Slot.fieldValue source.innerParts "location" entries)

/-- The component that a child of an `inner` or `outer` map gives. -/
def componentOf? (child : Value × Slot ν) : Option Component :=
  match child.2 with
  | .leaf .null => some ⟨child.1.text, .free⟩
  | .leaf _ | .row _ => none
  | .node n =>
    some ⟨targetOf source child.1.text (source.entries n), locationOf source (source.entries n)⟩

/-- Adds the component that a child gives. -/
def withChild (placement : Placement) (p : Pattern) (child : Value × Slot ν) : Pattern :=
  match componentOf? source child with
  | some c => p.mapComponents placement (·.insert child.1.text c)
  | none => p

/-- The id and the map of the pattern that a child defines, if it defines one. -/
def defined (child : Value × Slot ν) : List (String × ν) :=
  match child.2 with
  | .node n =>
    if (Slot.field? "pattern_definition" (source.entries n)).isSome then
      [(inlineId child.1.text, n)]
    else []
  | _ => []

/-- Enters the pattern that a child defines. -/
def enterDefined (d : Dictionary) (child : String × ν) : Except Error Dictionary :=
  (inline child.1 child.2 d).result

theorem result_addChild (owner : String) (placement : Placement) (d : Dictionary) (p : Pattern)
    (child : Value × Slot ν) :
    (addChild source inline owner placement (d, p) child).result =
      (defined source child).foldlM (enterDefined inline) d >>=
        fun d' => .ok (d', withChild source placement p child) := by
  obtain ⟨key, slot⟩ := child
  cases slot with
  | leaf v => cases v <;> rfl
  | row n => rfl
  | node n =>
    simp only [addChild, defined, withChild, componentOf?, locationOf, targetOf, result_bind,
      Location.result_ofValue_lenient, ok_bind]
    by_cases h : (Slot.field? "pattern_definition" (source.entries n)).isSome
    · simp only [h, if_true, List.foldlM_cons, List.foldlM_nil, bind_pure]
      rw [result_bind]
      rfl
    · simp only [h, Bool.false_eq_true, if_false, List.foldlM_nil, pure_bind]
      rfl

/-- The children of an `inner` or `outer` map; anything but a map has none. -/
def childrenOf : Slot ν → List (Value × Slot ν)
  | .node n => source.entries n
  | _ => []

/-- Adds the components that the children of a slot give. -/
def withChildren (placement : Placement) (p : Pattern) (slot : Slot ν) : Pattern :=
  (childrenOf source slot).foldl (withChild source placement) p

/-- The patterns that the children of a slot define, in order. -/
def definedIn (slot : Slot ν) : List (String × ν) :=
  (childrenOf source slot).flatMap (defined source)

theorem result_addChildren (owner : String) (placement : Placement) (d : Dictionary) (p : Pattern)
    (slot : Slot ν) :
    (addChildren source inline owner placement (d, p) slot).result =
      (definedIn source slot).foldlM (enterDefined inline) d >>=
        fun d' => .ok (d', withChildren source placement p slot) := by
  cases slot with
  | leaf v => cases v <;> rfl
  | row n => rfl
  | node n =>
    rw [addChildren, result_foldlM]
    exact foldlM_split (result_addChild source inline owner placement) _ d p

/-! ## Entries -/

/-- The placement of the components that a key announces. -/
def placementOf? (key : Value) : Option Placement :=
  if isText "inner" key then some .inner else if isText "outer" key then some .outer else none

/-- Takes over one entry of a pattern's map for the pattern itself. -/
def withEntry (p : Pattern) (entry : Value × Slot ν) : Pattern :=
  match placementOf? entry.1 with
  | some placement => withChildren source placement p entry.2
  | none =>
    if isStructural entry.1 then p else setField p entry.1 (source.value entry.2)

variable {source} in
theorem withEntry_of_structural {key : Value} (hplacement : placementOf? key = none)
    (hkey : isStructural key = true) (p : Pattern) (slot : Slot ν) :
    withEntry source p (key, slot) = p := by
  unfold withEntry
  rw [hplacement]
  exact if_pos hkey

variable {source} in
theorem withEntry_of_free {key : Value} (hplacement : placementOf? key = none)
    (hkey : isStructural key = false) (p : Pattern) (slot : Slot ν) :
    withEntry source p (key, slot) = setField p key (source.value slot) := by
  unfold withEntry
  rw [hplacement]
  exact if_neg (Bool.eq_false_iff.1 hkey)

/-- The patterns that one entry of a pattern's map defines, in order. -/
def definedAt (entry : Value × Slot ν) : List (String × ν) :=
  match placementOf? entry.1 with
  | some _ => definedIn source entry.2
  | none => []

theorem result_addEntry (owner : String) (d : Dictionary) (p : Pattern) (entry : Value × Slot ν) :
    (addEntry source inline owner (d, p) entry).result =
      (definedAt source entry).foldlM (enterDefined inline) d >>=
        fun d' => .ok (d', withEntry source p entry) := by
  unfold addEntry definedAt withEntry placementOf?
  by_cases hinner : isText "inner" entry.1
  · simpa only [hinner, if_true] using result_addChildren source inline owner .inner d p entry.2
  by_cases houter : isText "outer" entry.1
  · simpa only [hinner, houter, if_true, if_false, Bool.false_eq_true] using
      result_addChildren source inline owner .outer d p entry.2
  by_cases hstructural : isStructural entry.1
  · simp only [hinner, houter, hstructural, if_true, if_false, Bool.false_eq_true]
    rfl
  · simp only [hinner, houter, hstructural, if_false, Bool.false_eq_true, result_bind,
      result_takeField]
    rfl

/-! ## Whole maps -/

/-- The patterns that a pattern's map defines, in the order in which they are entered. -/
def definedBy (data : ν) : List (String × ν) := (source.entries data).flatMap (definedAt source)

/-- All that a pattern's map gives except for the parents. -/
def ownFields (data : ν) : Pattern :=
  let entries := source.entries data
  withItem (entries.foldl (withEntry source) (hoisted (definitionOf source entries)))
    (Slot.fieldValue source.value "item_pattern" entries)

/-- The parents that a pattern's map gives. -/
def ownParents (data : ν) : Except Error (List String) :=
  (Parents.ofValue (Slot.fieldValue source.parts "extends" (source.entries data))).result

/-- Reading enters what the map defines and builds the map's own pattern, apart from each other. -/
theorem result_readPattern (id : String) (data : ν) (d : Dictionary) :
    (readPattern source inline id data d).result =
      (definedBy source data).foldlM (enterDefined inline) d >>= fun d' =>
        ownParents source data >>= fun parents =>
          .ok (d', { ownFields source data with parents }) := by
  unfold readPattern
  simp only [result_bind, result_hoist, result_foldlM]
  rw [ok_bind, foldlM_split (result_addEntry source inline id), bind_assoc]
  rfl

end Source

end Extract

end LayoutGrammar
