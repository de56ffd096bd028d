import LayoutGrammar.Pattern.Edit
import LayoutGrammar.Proofs.Logged
import LayoutGrammar.Proofs.Table

/-!
# What edits do

For each operation, when it succeeds and which dictionary it gives (`result_create_iff` and its
kin). All operations but renaming and removing write a single pattern (`Edit.written_of_apply`).
What every single edit keeps or breaks decides what holds along a run (`Edit.forall_applyAll_iff`).
-/

namespace LayoutGrammar

open Logged

namespace Dictionary

variable {d d' : Dictionary}

@[simp] theorem result_orRefuse {α : Type} (x : Except Error α) : (orRefuse x).result = x := by
  cases x <;> rfl

theorem require_eq_ok_iff {id : String} {p : Pattern} :
    d.require id = .ok p ↔ d.get? id = some p := by
  unfold require
  cases d.get? id <;> simp

/-! ## Whole patterns -/

theorem result_create_iff {id : Option Value} {kind : Value} {new : String} :
    (d.create id kind).result = .ok (d', new) ↔
      id.elim (.ok (nextId d.keys)) patternName = .ok new ∧ d.contains new = false ∧
        d' = d.insert new { Pattern.blank with kind } := by
  unfold create
  simp only [result_bind, result_ofExcept, except_bind_ok]
  constructor
  · rintro ⟨id', hid, h⟩
    split at h
    · cases h
    · next hnew =>
      obtain ⟨rfl, rfl⟩ := Prod.mk.inj (Except.ok.inj h)
      exact ⟨hid, Bool.eq_false_iff.2 hnew, rfl⟩
  · rintro ⟨hid, hnew, rfl⟩
    refine ⟨new, hid, ?_⟩
    rw [hnew]
    rfl

/-- A dictionary in which one id has taken the place of another. -/
def renamed (d : Dictionary) (old new : String) : Dictionary :=
  .ofList (d.entries.map fun e => (substitute old new e.1, renameReferences old new e.2))

theorem result_rename_iff {old : String} {raw : Value} :
    (d.rename old raw).result = .ok d' ↔
      d.contains old = true ∧ ∃ new, patternName raw = .ok new ∧
        (new = old ∧ d' = d ∨ new ≠ old ∧ d.contains new = false ∧ d' = d.renamed old new) := by
  unfold rename
  simp only [result_bind, result_ofExcept, result_orRefuse, except_bind_ok]
  constructor
  · rintro ⟨p, hold, new, hname, h⟩
    refine ⟨Table.contains_of_get? (require_eq_ok_iff.1 hold), new, hname, ?_⟩
    split at h
    · next heq => exact .inl ⟨heq, (Except.ok.inj h).symm⟩
    · next hne =>
      split at h
      · cases h
      · next hnew => exact .inr ⟨hne, Bool.eq_false_iff.2 hnew, (Except.ok.inj h).symm⟩
  · rintro ⟨hold, new, hname, h⟩
    obtain ⟨p, hp⟩ := Option.isSome_iff_exists.1 hold
    refine ⟨p, require_eq_ok_iff.2 hp, new, hname, ?_⟩
    rcases h with ⟨rfl, rfl⟩ | ⟨hne, hnew, rfl⟩
    · rw [if_pos rfl]
      rfl
    · rw [if_neg hne, hnew]
      rfl

theorem result_remove_iff {id : String} :
    (d.remove id).result = .ok d' ↔ d.contains id = true ∧ d' = d.erase id := by
  unfold remove
  simp only [result_bind, result_ofExcept, except_bind_ok]
  constructor
  · rintro ⟨p, hp, h⟩
    exact ⟨Table.contains_of_get? (require_eq_ok_iff.1 hp), (Except.ok.inj h).symm⟩
  · rintro ⟨hid, rfl⟩
    obtain ⟨p, hp⟩ := Option.isSome_iff_exists.1 hid
    exact ⟨p, require_eq_ok_iff.2 hp, rfl⟩

/-! ## Fields -/

theorem result_update_iff {id : String} {fields : List (String × Value)} :
    (d.update id fields).result = .ok d' ↔
      (∀ field ∈ fields, reservedFields.contains field.1 = false) ∧ ∃ p p', d.get? id = some p ∧
        fields.foldlM updateField p = .ok p' ∧ d' = d.insert id p' := by
  unfold update
  cases hfind : fields.find? fun field => reservedFields.contains field.1 with
  | some field =>
    have hreserved := List.find?_some hfind
    refine ⟨fun h => (nomatch h), fun ⟨hfree, _⟩ => ?_⟩
    rw [hfree field (List.mem_of_find?_eq_some hfind)] at hreserved
    cases hreserved
  | none =>
    have hfree : ∀ field ∈ fields, reservedFields.contains field.1 = false := fun field hfield =>
      Bool.eq_false_iff.2 (List.find?_eq_none.1 hfind field hfield)
    simp only [result_bind, result_ofExcept, except_bind_ok, require_eq_ok_iff]
    constructor
    · rintro ⟨p, hp, p', hp', h⟩
      exact ⟨hfree, p, p', hp, hp', (Except.ok.inj h).symm⟩
    · rintro ⟨-, p, p', hp, hp', rfl⟩
      exact ⟨p, hp, p', hp', rfl⟩

theorem result_setItem_iff {id : String} {item : Option String} :
    (d.setItem id item).result = .ok d' ↔
      ∃ p, d.get? id = some p ∧ d' = d.insert id { p with itemPattern := item } := by
  unfold setItem
  simp only [result_bind, result_ofExcept, except_bind_ok, require_eq_ok_iff, result_pure,
    ok_eq_ok_iff]

/-! ## Components -/

theorem owner_eq_ok_iff {id : String} {placement : Placement} {p : Pattern}
    {cs : Table String Component} :
    d.owner id placement = .ok (p, cs) ↔ d.get? id = some p ∧ p.components placement = .ok cs := by
  unfold owner
  cases placement with
  | other s => exact ⟨fun h => (nomatch h), fun h => nomatch h.2⟩
  | inner | outer =>
    simp only [Placement.isKnown, if_true, except_bind_ok, require_eq_ok_iff, pure, Except.pure,
      ok_eq_ok_iff, Prod.mk.injEq]
    constructor
    · rintro ⟨p', hp, cs', hcs, rfl, rfl⟩
      exact ⟨hp, hcs⟩
    · rintro ⟨hp, hcs⟩
      exact ⟨p, hp, cs, hcs, rfl, rfl⟩

theorem result_addComponent_iff {id name : String} {placement : Placement}
    {pattern : Option String} {location : Location} :
    (d.addComponent id placement name pattern location).result = .ok d' ↔
      Text.isBlankText name = false ∧ ∃ p cs, d.get? id = some p ∧
        p.components placement = .ok cs ∧ cs.contains name = false ∧
        d' = d.insert id (p.mapComponents placement
          (·.insert name ⟨(pattern.filter (· ≠ "")).getD name, location⟩)) := by
  unfold addComponent
  simp only [result_bind, result_ofExcept, except_bind_ok]
  constructor
  · rintro ⟨⟨p, cs⟩, howner, h⟩
    obtain ⟨hp, hcs⟩ := owner_eq_ok_iff.1 howner
    split at h
    · cases h
    · next hname =>
      split at h
      · cases h
      · next hnew =>
        exact ⟨Bool.eq_false_iff.2 hname, p, cs, hp, hcs, Bool.eq_false_iff.2 hnew,
          (Except.ok.inj h).symm⟩
  · rintro ⟨hname, p, cs, hp, hcs, hnew, rfl⟩
    refine ⟨(p, cs), owner_eq_ok_iff.2 ⟨hp, hcs⟩, ?_⟩
    rw [hname, hnew]
    rfl

theorem result_removeComponent_iff {id name : String} {placement : Placement} :
    (d.removeComponent id placement name).result = .ok d' ↔
      ∃ p cs, d.get? id = some p ∧ p.components placement = .ok cs ∧ cs.contains name = true ∧
        d' = d.insert id (p.mapComponents placement (·.erase name)) := by
  unfold removeComponent
  simp only [result_bind, result_ofExcept, except_bind_ok]
  constructor
  · rintro ⟨⟨p, cs⟩, howner, h⟩
    obtain ⟨hp, hcs⟩ := owner_eq_ok_iff.1 howner
    split at h
    · next hname => exact ⟨p, cs, hp, hcs, hname, (Except.ok.inj h).symm⟩
    · cases h
  · rintro ⟨p, cs, hp, hcs, hname, rfl⟩
    refine ⟨(p, cs), owner_eq_ok_iff.2 ⟨hp, hcs⟩, ?_⟩
    rw [hname]
    rfl

theorem result_setSide_iff {id name key : String} {placement : Placement} {token : Option String} :
    (d.setSide id placement name key token).result = .ok d' ↔
      ∃ p cs c location, d.get? id = some p ∧ p.components placement = .ok cs ∧
        cs.get? name = some c ∧ (c.location.setToken key token true).result = .ok location ∧
        d' = d.insert id (p.mapComponents placement (·.insert name { c with location })) := by
  unfold setSide
  simp only [result_bind, result_ofExcept, except_bind_ok]
  constructor
  · rintro ⟨⟨p, cs⟩, howner, h⟩
    obtain ⟨hp, hcs⟩ := owner_eq_ok_iff.1 howner
    dsimp only at h
    split at h
    · cases h
    · next c hc =>
      rw [result_bind] at h
      obtain ⟨location, hlocation, h⟩ := except_bind_ok.1 h
      exact ⟨p, cs, c, location, hp, hcs, hc, hlocation, (Except.ok.inj h).symm⟩
  · rintro ⟨p, cs, c, location, hp, hcs, hc, hlocation, rfl⟩
    refine ⟨(p, cs), owner_eq_ok_iff.2 ⟨hp, hcs⟩, ?_⟩
    dsimp only
    rw [hc, result_bind, hlocation]
    rfl

/-! ## Parents -/

theorem result_addParent_iff {id target : String} :
    (d.addParent id target).result = .ok d' ↔
      Extends.checkEdge d id target = .ok () ∧
        ∃ p, d.get? id = some p ∧ d' = d.insert id { p with parents := p.parents ++ [target] } := by
  unfold addParent
  simp only [result_bind, result_ofExcept, result_orRefuse, except_bind_ok, require_eq_ok_iff,
    result_pure, ok_eq_ok_iff]
  constructor
  · rintro ⟨p, hp, _, hedge, hd'⟩
    exact ⟨hedge, p, hp, hd'⟩
  · rintro ⟨hedge, p, hp, hd'⟩
    exact ⟨p, hp, (), hedge, hd'⟩

theorem result_removeParent_iff {id target : String} :
    (d.removeParent id target).result = .ok d' ↔
      ∃ p, d.get? id = some p ∧ d' = d.insert id { p with parents := p.parents.erase target } := by
  unfold removeParent
  simp only [result_bind, result_ofExcept, except_bind_ok, require_eq_ok_iff, result_pure,
    ok_eq_ok_iff]

end Dictionary

/-! ## Edits of one pattern -/

namespace Edit

/-- How an edit changes the pattern that it is about. -/
inductive Changes : Edit → Pattern → Pattern → Prop
  | fields {id : String} {fields : List (String × Value)} {p p' : Pattern}
      (h : fields.foldlM Dictionary.updateField p = .ok p') : Changes (.update id fields) p p'
  | item {id : String} {item : Option String} {p : Pattern} :
      Changes (.setItem id item) p { p with itemPattern := item }
  | components {e : Edit} {p : Pattern} (placement : Placement)
      (f : Table String Component → Table String Component) :
      Changes e p (p.mapComponents placement f)
  | extend {id target : String} {p : Pattern} :
      Changes (.addParent id target) p { p with parents := p.parents ++ [target] }
  | unextend {id target : String} {p : Pattern} :
      Changes (.removeParent id target) p { p with parents := p.parents.erase target }

/-- Renaming and removal apart, an edit adds a blank pattern or changes a known one. -/
theorem written_of_apply {d d' : Dictionary} {e : Edit} (h : (e.apply d).result = .ok d')
    (hrename : ∀ old raw, e ≠ .rename old raw) (hremove : ∀ id, e ≠ .remove id) :
    (∃ id kind, d' = d.insert id { Pattern.blank with kind }) ∨
      ∃ id p p', d.get? id = some p ∧ e.Changes p p' ∧ d' = d.insert id p' := by
  cases e with
  | rename old raw => exact absurd rfl (hrename old raw)
  | remove id => exact absurd rfl (hremove id)
  | create id kind =>
    simp only [apply, result_bind, except_bind_ok] at h
    obtain ⟨⟨d₁, new⟩, hcreate, h⟩ := h
    obtain rfl := Except.ok.inj h
    obtain ⟨-, -, hd⟩ := Dictionary.result_create_iff.1 hcreate
    exact .inl ⟨new, kind, hd⟩
  | update id fields =>
    obtain ⟨-, p, p', hp, hfields, hd⟩ := Dictionary.result_update_iff.1 h
    exact .inr ⟨id, p, p', hp, .fields hfields, hd⟩
  | setItem id item =>
    obtain ⟨p, hp, hd⟩ := Dictionary.result_setItem_iff.1 h
    exact .inr ⟨id, p, _, hp, .item, hd⟩
  | addComponent id placement name pattern location =>
    obtain ⟨-, p, cs, hp, -, -, hd⟩ := Dictionary.result_addComponent_iff.1 h
    exact .inr ⟨id, p, _, hp, .components placement _, hd⟩
  | removeComponent id placement name =>
    obtain ⟨p, cs, hp, -, -, hd⟩ := Dictionary.result_removeComponent_iff.1 h
    exact .inr ⟨id, p, _, hp, .components placement _, hd⟩
  | setSide id placement name key token =>
    obtain ⟨p, cs, c, location, hp, -, -, -, hd⟩ := Dictionary.result_setSide_iff.1 h
    exact .inr ⟨id, p, _, hp, .components placement _, hd⟩
  | addParent id target =>
    obtain ⟨-, p, hp, hd⟩ := Dictionary.result_addParent_iff.1 h
    exact .inr ⟨id, p, _, hp, .extend, hd⟩
  | removeParent id target =>
    obtain ⟨p, hp, hd⟩ := Dictionary.result_removeParent_iff.1 h
    exact .inr ⟨id, p, _, hp, .unextend, hd⟩

/-! ## Runs of edits -/

variable {I : Dictionary → Prop} {Breaks : Dictionary → Edit → Prop}

/-- A refused edit keeps everything, so only edits that are carried out can break an invariant. -/
theorem applyOrKeep_iff {d : Dictionary} {e : Edit} (h : I d)
    (hok : Breaks d e → ∃ d', (e.apply d).result = .ok d')
    (hstep : ∀ d', (e.apply d).result = .ok d' → (I d' ↔ ¬ Breaks d e)) :
    I (e.applyOrKeep d) ↔ ¬ Breaks d e := by
  unfold applyOrKeep
  split
  · next hresult => exact hstep _ hresult
  · next hresult =>
    refine ⟨fun _ hbreaks => ?_, fun _ => h⟩
    obtain ⟨d', hd'⟩ := hok hbreaks
    rw [hresult] at hd'
    cases hd'

theorem applyAll_take_succ {d : Dictionary} {edits : List Edit} {n : Nat} {e : Edit}
    (h : edits[n]? = some e) :
    applyAll d (edits.take (n + 1)) = e.applyOrKeep (applyAll d (edits.take n)) := by
  rw [applyAll, List.take_add_one, h, List.foldl_append]
  rfl

/-- An invariant holds along a run exactly as long as no edit breaks it. -/
theorem forall_applyAll_iff (I : Dictionary → Prop) (Breaks : Dictionary → Edit → Prop)
    (hstep : ∀ d e, I d → (I (e.applyOrKeep d) ↔ ¬ Breaks d e))
    {d : Dictionary} (h : I d) (edits : List Edit) :
    (∀ n, I (applyAll d (edits.take n))) ↔
      ∀ (n : Nat) (e : Edit), edits[n]? = some e → ¬ Breaks (applyAll d (edits.take n)) e := by
  constructor
  · intro hall n e he
    have hnext := hall (n + 1)
    rw [applyAll_take_succ he] at hnext
    exact (hstep _ e (hall n)).1 hnext
  · intro hfree n
    induction n with
    | zero => exact h
    | succ n ih =>
      cases he : edits[n]? with
      | none =>
        rw [List.take_add_one, he, Option.toList_none, List.append_nil]
        exact ih
      | some e =>
        rw [applyAll_take_succ he]
        exact (hstep _ e ih).2 (hfree n e he)

end Edit

end LayoutGrammar
