import LayoutGrammar.Proofs.Extract.Steps

/-!
# What stops a walk

A step of a walk is out of order (`offence?`) if it comes to a map that is being extracted, if it
takes an id that was taken before, or if it reads parents from a map with an infinite index. The
first such step decides how extraction ends, and without one there is a dictionary
(`extract_first_offence`). The first check wins over the second, and a map that only occurs at
several places, none of them within another, never fails it.
-/

namespace LayoutGrammar

/-! ## Infinite indices -/

namespace Parents

open Decimal

/-- A double without a finite value, as the key of an index map. -/
def isInfiniteIndex : Value → Bool
  | .float x => (Binary64.ofFloat x matches .infinite _)
  | _ => false

/-- An index map with an infinite key. -/
def hasInfiniteIndex : Value → Bool
  | .map entries => entries.any fun e => isInfiniteIndex e.1
  | _ => false

theorem IndexKey.ofValue_of_infinite {key : Value} (h : isInfiniteIndex key = true) :
    IndexKey.ofValue key = .error .infiniteIndex := by
  cases key with
  | float x =>
    simp only [isInfiniteIndex] at h
    simp only [IndexKey.ofValue]
    cases hx : Binary64.ofFloat x with
    | infinite negative => rfl
    | _ => simp [hx] at h
  | _ => simp [isInfiniteIndex] at h

theorem IndexKey.exists_ofValue {key : Value} (h : isInfiniteIndex key = false) :
    ∃ index, IndexKey.ofValue key = .ok index := by
  cases key with
  | float x =>
    simp only [isInfiniteIndex] at h
    simp only [IndexKey.ofValue]
    cases hx : Binary64.ofFloat x with
    | infinite negative => simp [hx] at h
    | finite negative mantissa exponent => exact ⟨_, rfl⟩
    | notANumber => exact ⟨_, rfl⟩
  | bytes bs =>
    simp only [IndexKey.ofValue]
    split
    · exact ⟨_, rfl⟩
    · exact ⟨_, rfl⟩
  | _ => exact ⟨_, rfl⟩

/-- The values of a map can be sorted unless some key is infinite. -/
theorem failsUnless_ofEntries (entries : List (Value × Value)) :
    FailsUnless .infiniteIndex (∀ e ∈ entries, isInfiniteIndex e.1 = false)
      (ofEntries entries) := by
  have hkey : ∀ key, FailsUnless .infiniteIndex (isInfiniteIndex key = false)
      (IndexKey.ofValue key) := fun key =>
    ⟨IndexKey.exists_ofValue, fun h => IndexKey.ofValue_of_infinite (by simpa using h)⟩
  have hindexed := FailsUnless.mapM fun e (_ : e ∈ entries) =>
    (hkey e.1).map fun index => (index, e.2)
  rw [ofEntries, bind_pure_comp]
  exact hindexed.map _

/-- Parents can be read unless an index is infinite. -/
theorem result_ofValue (raw : Value) :
    (hasInfiniteIndex raw = true → (ofValue raw).result = .error .infiniteIndex) ∧
      (hasInfiniteIndex raw = false → ∃ parents, (ofValue raw).result = .ok parents) := by
  cases raw with
  | map entries =>
    have hsorted := failsUnless_ofEntries entries
    have hfinite : hasInfiniteIndex (.map entries) = false ↔
        ∀ e ∈ entries, isInfiniteIndex e.1 = false := by simp [hasInfiniteIndex]
    refine ⟨fun h => hsorted.error fun hall => ?_, fun h => hsorted.ok (hfinite.1 h)⟩
    rw [hfinite.2 hall] at h
    cases h
  | _ => exact ⟨fun h => (nomatch h), fun _ => ⟨_, rfl⟩⟩

end Parents

namespace Extract

open Logged Relation Parents

section Source

variable {ν : Type} (source : Source ν)

/-- What the map of a pattern holds in place of its parents. -/
def extendsOf (data : ν) : Value := Slot.fieldValue source.parts "extends" (source.entries data)

/-- The pattern that a map gives by itself; parents that cannot be read count as none. -/
def ownPattern (data : ν) : Pattern :=
  { ownFields source data with parents := (ownParents source data).toOption.getD [] }

/-- What is wrong with a step that comes after others. -/
def offence? (before : List (WalkStep ν)) : WalkStep ν → Option Error
  | .enter trail id data =>
    if onTrail source trail data then some (.recursiveDefinition (trail.map (·.1) ++ [id]))
    else if id ∈ (entered before).map (·.1) then some (.duplicatePattern id)
    else none
  | .leave _ data => if hasInfiniteIndex (extendsOf source data) then some .infiniteIndex else none

/-- The first thing that is wrong with some steps that come after others. -/
def firstOffence? (before : List (WalkStep ν)) : List (WalkStep ν) → Option Error
  | [] => none
  | step :: rest => (offence? source before step).or (firstOffence? (before ++ [step]) rest)

/-- What a step that is in order makes of the dictionary. -/
def carry (d : Dictionary) : WalkStep ν → Dictionary
  | .enter _ id _ => d.insert id .blank
  | .leave id data => d.insert id (ownPattern source data)

variable {source}

/-! ## Splitting at the first offence -/

theorem firstOffence?_eq_none_iff {before steps : List (WalkStep ν)} :
    firstOffence? source before steps = none ↔
      ∀ xs step ys, steps = xs ++ step :: ys → offence? source (before ++ xs) step = none := by
  induction steps generalizing before with
  | nil => simp [firstOffence?]
  | cons first rest ih =>
    rw [firstOffence?, Option.or_eq_none_iff, ih]
    constructor
    · rintro ⟨hfirst, hrest⟩ xs step ys heq
      cases xs with
      | nil =>
        obtain ⟨rfl, -⟩ := List.cons_eq_cons.1 heq
        rwa [List.append_nil]
      | cons x xs =>
        obtain ⟨rfl, hsplit⟩ := List.cons_eq_cons.1 heq
        have hlater := hrest xs step ys hsplit
        rwa [List.append_assoc] at hlater
    · intro hall
      refine ⟨?_, fun xs step ys heq => ?_⟩
      · have hfirst := hall [] first rest rfl
        rwa [List.append_nil] at hfirst
      · have hlater := hall (first :: xs) step ys (by rw [heq]; rfl)
        rwa [List.append_assoc]

theorem firstOffence?_append {before xs ys : List (WalkStep ν)}
    (h : firstOffence? source before xs = none) :
    firstOffence? source before (xs ++ ys) = firstOffence? source (before ++ xs) ys := by
  induction xs generalizing before with
  | nil => rw [List.nil_append, List.append_nil]
  | cons x xs ih =>
    rw [firstOffence?, Option.or_eq_none_iff] at h
    rw [List.cons_append, firstOffence?, h.1, Option.none_or, ih h.2, List.append_assoc]
    rfl

theorem exists_of_firstOffence? {before steps : List (WalkStep ν)} {cause : Error}
    (h : firstOffence? source before steps = some cause) :
    ∃ xs step ys, steps = xs ++ step :: ys ∧ offence? source (before ++ xs) step = some cause := by
  induction steps generalizing before with
  | nil => cases h
  | cons first rest ih =>
    rw [firstOffence?] at h
    cases hfirst : offence? source before first with
    | some e =>
      rw [hfirst, Option.some_or] at h
      refine ⟨[], first, rest, rfl, ?_⟩
      rw [List.append_nil, hfirst, h]
    | none =>
      rw [hfirst, Option.none_or] at h
      obtain ⟨xs, step, ys, rfl, hstep⟩ := ih h
      refine ⟨first :: xs, step, ys, rfl, ?_⟩
      rwa [List.append_assoc] at hstep

theorem enter_of_recursiveDefinition {before : List (WalkStep ν)} {step : WalkStep ν}
    {path : List String} (h : offence? source before step = some (.recursiveDefinition path)) :
    ∃ trail id data, step = .enter trail id data ∧ onTrail source trail data = true ∧
      path = trail.map (·.1) ++ [id] := by
  cases step with
  | leave id data =>
    simp only [offence?] at h
    split at h <;> cases h
  | enter trail id data =>
    simp only [offence?] at h
    split at h
    · next hon =>
      cases h
      exact ⟨trail, id, data, rfl, hon, rfl⟩
    · split at h <;> cases h

/-! ## Performing the steps -/

variable (source) in
/-- Every step that is done with a map comes after one that entered its id. -/
def LeavesEntered : List (WalkStep ν) → List (WalkStep ν) → Prop
  | _, [] => True
  | before, step :: rest =>
    (∀ id data, step = .leave id data → id ∈ (entered before).map (·.1)) ∧
      LeavesEntered (before ++ [step]) rest

theorem leavesEntered_append {before xs ys : List (WalkStep ν)} :
    LeavesEntered before (xs ++ ys) ↔
      LeavesEntered before xs ∧ LeavesEntered (before ++ xs) ys := by
  induction xs generalizing before with
  | nil => simp [LeavesEntered]
  | cons x xs ih =>
    rw [List.cons_append, LeavesEntered, LeavesEntered, ih, and_assoc, List.append_assoc]
    rfl

theorem Walk.leavesEntered {trail items : List (String × ν)} {steps : List (WalkStep ν)}
    (h : Walk source trail items steps) (before : List (WalkStep ν)) :
    LeavesEntered before steps := by
  induction h generalizing before with
  | done => trivial
  | again hon hrest ih => exact ⟨fun _ _ heq => (nomatch heq), ih _⟩
  | @into trail rest id data below after hon hbelow hrest ihbelow ihrest =>
    refine ⟨fun _ _ heq => (nomatch heq), ?_⟩
    rw [leavesEntered_append]
    refine ⟨ihbelow _, ?_, ihrest _⟩
    rintro _ _ ⟨⟩
    simp

/-- The ids of a dictionary are those that some steps have entered. -/
def Tracks (d : Dictionary) (before : List (WalkStep ν)) : Prop :=
  ∀ id, d.contains id = true ↔ id ∈ (entered before).map (·.1)

theorem tracks_empty : Tracks ∅ ([] : List (WalkStep ν)) := fun id => by
  simp [Table.contains, Table.get?, valueAt?]

theorem tracks_carry {d : Dictionary} {before : List (WalkStep ν)} {step : WalkStep ν}
    (h : Tracks d before)
    (hleave : ∀ id data, step = .leave id data → id ∈ (entered before).map (·.1)) :
    Tracks (carry source d step) (before ++ [step]) := by
  intro k
  cases step with
  | enter trail id data =>
    simp only [carry, Table.contains_insert, Bool.or_eq_true, beq_iff_eq, h k, entered_append,
      entered_enter, entered_nil, List.map_append, List.mem_append, List.map_cons, List.map_nil,
      List.mem_singleton]
    rw [or_comm, eq_comm]
  | leave id data =>
    have hid := hleave id data rfl
    simp only [carry, Table.contains_insert, Bool.or_eq_true, beq_iff_eq, h k, entered_append,
      entered_leave, entered_nil, List.append_nil]
    constructor
    · rintro (rfl | hk)
      · exact hid
      · exact hk
    · exact Or.inr

theorem perform_eq {d : Dictionary} {before : List (WalkStep ν)} (h : Tracks d before)
    (step : WalkStep ν) :
    perform source d step =
      (offence? source before step).elim (.ok (carry source d step)) .error := by
  cases step with
  | enter trail id data =>
    rw [perform, offence?]
    by_cases hon : onTrail source trail data = true
    · rw [if_pos hon, if_pos hon]
      rfl
    · rw [if_neg hon, if_neg hon]
      by_cases hid : d.contains id = true
      · rw [if_pos hid, if_pos ((h id).1 hid)]
        rfl
      · rw [if_neg hid, if_neg (mt (h id).2 hid)]
        rfl
  | leave id data =>
    obtain ⟨hinfinite, hfinite⟩ := result_ofValue (extendsOf source data)
    rw [perform, offence?]
    by_cases hindex : hasInfiniteIndex (extendsOf source data) = true
    · have hparents : ownParents source data = .error .infiniteIndex := hinfinite hindex
      rw [hparents, if_pos hindex]
      rfl
    · obtain ⟨parents, hread⟩ := hfinite (Bool.eq_false_iff.2 hindex)
      have hparents : ownParents source data = .ok parents := hread
      rw [carry, ownPattern, hparents, if_neg hindex]
      rfl

/-- Performing steps ends with the first offence, or else every step does its work. -/
theorem foldlM_perform {d : Dictionary} {before steps : List (WalkStep ν)}
    (hleaves : LeavesEntered before steps) (h : Tracks d before) :
    steps.foldlM (perform source) d =
      (firstOffence? source before steps).elim (.ok (steps.foldl (carry source) d)) .error := by
  induction steps generalizing before d with
  | nil => rfl
  | cons step rest ih =>
    obtain ⟨hstep, hrest⟩ := hleaves
    rw [List.foldlM_cons, perform_eq h, firstOffence?, List.foldl_cons]
    cases offence? source before step with
    | some cause => rfl
    | none =>
      have htracks : Tracks (carry source d step) (before ++ [step]) := tracks_carry h hstep
      have hlater := ih hrest htracks
      rw [Option.none_or, ← hlater]
      rfl

/-! ## Maps within maps -/

/-- What a walk comes to lies within one of its maps, and within whatever has joined the trail. -/
theorem Walk.nested {trail items : List (String × ν)} {steps : List (WalkStep ν)}
    (h : Walk source trail items steps) {trail' : List (String × ν)} {id : String} {data : ν}
    (hmem : .enter trail' id data ∈ steps) :
    (∃ item ∈ items, ReflTransGen (Nests source) item.2 data) ∧
      ∀ e ∈ trail', e ∈ trail ∨ TransGen (Nests source) e.2 data := by
  induction h with
  | done => cases hmem
  | again hon hrest ih =>
    rcases List.mem_cons.1 hmem with heq | hmem
    · cases heq
      exact ⟨⟨_, List.mem_cons_self, .refl⟩, fun e he => .inl he⟩
    · obtain ⟨⟨item, hitem, hreach⟩, htrail⟩ := ih hmem
      exact ⟨⟨item, List.mem_cons_of_mem _ hitem, hreach⟩, htrail⟩
  | @into trail rest top owner below after hon hbelow hrest ihbelow ihrest =>
    rcases List.mem_cons.1 hmem with heq | hmem
    · cases heq
      exact ⟨⟨_, List.mem_cons_self, .refl⟩, fun e he => .inl he⟩
    rcases List.mem_append.1 hmem with hmem | hmem
    · obtain ⟨⟨child, hchild, hreach⟩, htrail⟩ := ihbelow hmem
      have hstep : Nests source owner child.2 := ⟨child.1, hchild⟩
      refine ⟨⟨_, List.mem_cons_self, .head hstep hreach⟩, fun e he => ?_⟩
      rcases htrail e he with he | he
      · rcases List.mem_append.1 he with he | he
        · exact .inl he
        · obtain rfl := List.mem_singleton.1 he
          exact .inr (TransGen.head' hstep hreach)
      · exact .inr he
    · rcases List.mem_cons.1 hmem with heq | hmem
      · cases heq
      · obtain ⟨⟨item, hitem, hreach⟩, htrail⟩ := ihrest hmem
        exact ⟨⟨item, List.mem_cons_of_mem _ hitem, hreach⟩, htrail⟩

end Source

end Extract

namespace Document

open Extract Relation

theorem result_extract_eq (doc : Document) {entries : List (Value × Slot doc.Node)}
    (h : topEntries doc.source doc.root = .ok entries) :
    ∃ steps, Walk doc.source [] (topMaps entries) steps ∧
      doc.extract.result = (firstOffence? doc.source [] steps).elim
        (.ok (steps.foldl (carry doc.source) ∅)) .error := by
  obtain ⟨steps, hwalk, hextract⟩ := result_extract doc h
  rw [foldlM_perform (hwalk.leavesEntered []) tracks_empty] at hextract
  exact ⟨steps, hwalk, hextract⟩

/-- A map that a walk comes to while it is being extracted stands within itself. -/
theorem nested_of_onTrail {doc : Document} {items : List (String × doc.Node)}
    {steps : List (WalkStep doc.Node)} (hwalk : Walk doc.source [] items steps)
    {trail : List (String × doc.Node)} {id : String} {data : doc.Node}
    (hmem : .enter trail id data ∈ steps) (hon : onTrail doc.source trail data = true) :
    (∃ item ∈ items, ReflTransGen (Nests doc.source) item.2 data) ∧
      TransGen (Nests doc.source) data data := by
  obtain ⟨hreach, htrail⟩ := hwalk.nested hmem
  obtain ⟨e, he, hsame⟩ := List.any_eq_true.1 hon
  obtain rfl : data = e.2 := eq_of_same hsame
  exact ⟨hreach, (htrail e he).resolve_left List.not_mem_nil⟩

/-- **The first step that is out of order decides how the extraction of a document ends.** -/
theorem extract_first_offence (doc : Document) {entries : List (Value × Slot doc.Node)}
    (h : topEntries doc.source doc.root = .ok entries) :
    ∃ steps, Walk doc.source [] (topMaps entries) steps ∧
      ((∃ d, doc.extract.result = .ok d) ↔
        ∀ before step after, steps = before ++ step :: after →
          offence? doc.source before step = none) ∧
      (∀ before step after cause, steps = before ++ step :: after →
        (∀ xs earlier ys, before = xs ++ earlier :: ys →
          offence? doc.source xs earlier = none) →
        offence? doc.source before step = some cause → doc.extract.result = .error cause) ∧
      ∀ path, doc.extract.result = .error (.recursiveDefinition path) →
        ∃ trail id data, .enter trail id data ∈ steps ∧ path = trail.map (·.1) ++ [id] ∧
          TransGen (Nests doc.source) data data := by
  obtain ⟨steps, hwalk, hextract⟩ := result_extract_eq doc h
  refine ⟨steps, hwalk, ?_, ?_, ?_⟩
  · have hnone : firstOffence? doc.source [] steps = none ↔ ∀ before step after,
        steps = before ++ step :: after → offence? doc.source before step = none :=
      firstOffence?_eq_none_iff
    rw [← hnone, hextract]
    cases firstOffence? doc.source [] steps with
    | none => exact ⟨fun _ => rfl, fun _ => ⟨_, rfl⟩⟩
    | some cause => exact ⟨fun ⟨_, hd⟩ => (nomatch hd), fun hc => (nomatch hc)⟩
  · rintro before step after cause rfl hbefore hstep
    have hclean : firstOffence? doc.source [] before = none := firstOffence?_eq_none_iff.2 hbefore
    rw [hextract, firstOffence?_append hclean, List.nil_append, firstOffence?, hstep]
    rfl
  · intro path hpath
    have hfirst : firstOffence? doc.source [] steps = some (.recursiveDefinition path) := by
      rw [hextract] at hpath
      cases hfirst : firstOffence? doc.source [] steps with
      | none =>
        rw [hfirst] at hpath
        cases hpath
      | some cause =>
        rw [hfirst] at hpath
        rw [Except.error.inj hpath]
    obtain ⟨before, step, after, rfl, hstep⟩ := exists_of_firstOffence? hfirst
    obtain ⟨trail, id, data, rfl, hon, hpath⟩ := enter_of_recursiveDefinition hstep
    have hmem : WalkStep.enter trail id data ∈ before ++ .enter trail id data :: after :=
      List.mem_append_right _ List.mem_cons_self
    exact ⟨trail, id, data, hmem, hpath, (nested_of_onTrail hwalk hmem hon).2⟩

/-- A pattern with an inner component that is defined by the map of the pattern itself. -/
def selfEmbedding : Document :=
  .shared
    ⟨#[.map [(.str "p", .node 1)],
      .map [(.str "pattern_definition", .leaf .null), (.str "inner", .node 2)],
      .map [(.str "c", .node 1)]]⟩
    (.node 0)

theorem extract_first_offence_selfEmbedding :
    topEntries selfEmbedding.source selfEmbedding.root = .ok [(.str "p", .node (1 : Nat))] ∧
      selfEmbedding.extract.result = .error (.recursiveDefinition ["p", "c_inline"]) ∧
      ∃ n : selfEmbedding.Node, TransGen (Nests selfEmbedding.source) n n := by
  have htop : topEntries selfEmbedding.source selfEmbedding.root =
      .ok [(.str "p", .node (1 : Nat))] := rfl
  have hresult : selfEmbedding.extract.result = .error (.recursiveDefinition ["p", "c_inline"]) :=
    rfl
  obtain ⟨steps, -, -, -, hcycle⟩ := extract_first_offence selfEmbedding htop
  obtain ⟨trail, id, data, -, -, hdata⟩ := hcycle _ hresult
  exact ⟨htop, hresult, data, hdata⟩

end Document

end LayoutGrammar
