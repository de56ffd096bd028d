import LayoutGrammar.Proofs.Table
import LayoutGrammar.Tree.Source

/-!
# Named fields of maps

A text equals no key but itself, so named fields are found by their names alone: in the entries of a
map one part after the other (`field?_append`), and in a plain tree as in its entries
(`field?_slots`). The slots of a plain tree hold what they were made from, however they are read
(`value_slot`, `parts_slot`, `innerParts_slot`).
-/

namespace LayoutGrammar

namespace Value

theorem beq_str_iff {k : Value} {s : String} : (k == .str s) = true ↔ k = .str s := by
  change eqBy (· == ·) k (.str s) = true ↔ _
  cases k <;> simp [eqBy, scalarEqBy, quantity?]

theorem eqBy_str_iff {eq : Float → Float → Bool} {k : Value} {s : String} :
    eqBy eq (.str s) k = true ↔ k = .str s := by
  cases k with
  | str t =>
    simp only [eqBy, scalarEqBy, beq_iff_eq, str.injEq]
    exact eq_comm
  | _ => simp [eqBy, scalarEqBy, quantity?]

theorem str_beq_iff {k : Value} {s : String} : (.str s == k) = true ↔ k = .str s := eqBy_str_iff

theorem str_beq_str_of_ne {s t : String} (h : s ≠ t) : (Value.str s == .str t) = false :=
  Bool.eq_false_iff.2 fun heq => h (Value.str.inj (beq_str_iff.1 heq))

/-- An entry under a name after a write was there before, or is the one that was written. -/
theorem mem_putEntry_str {k v : Value} {e : Value × Value} {entries : List (Value × Value)}
    {name : String} (h : e ∈ putEntry k v entries) (hname : e.1 = .str name) :
    e ∈ entries ∨ e = (k, v) := by
  rcases mem_putEntry h with h | ⟨hv, hk⟩
  · exact .inl h
  · refine .inr (Prod.ext ?_ hv)
    rcases hk with hk | hk
    · exact hk
    · rw [hname] at hk
      rw [hname, str_beq_iff.1 hk]

/-- The map of some entries holds nothing under a name that is not one of the entries. -/
theorem mem_of_mem_foldl_putEntry {e : Value × Value} {written entries : List (Value × Value)}
    {name : String} (h : e ∈ entries.foldl (fun m e => putEntry e.1 e.2 m) written)
    (hname : e.1 = .str name) : e ∈ written ∨ e ∈ entries := by
  induction entries generalizing written with
  | nil => exact .inl h
  | cons x rest ih =>
    rcases ih h with h | h
    · rcases mem_putEntry_str h hname with h | rfl
      · exact .inl h
      · exact .inr List.mem_cons_self
    · exact .inr (List.mem_cons_of_mem _ h)

/-- Writing an entry adds its name to the keys, if it is a new one. -/
theorem str_mem_keys_putEntry {α : Type} {k : Value} {a : α} {name : String}
    {entries : List (Value × α)} :
    .str name ∈ (putEntry k a entries).map (·.1) ↔
      k = .str name ∨ .str name ∈ entries.map (·.1) := by
  induction entries with
  | nil => simp [putEntry, eq_comm]
  | cons e rest ih =>
    obtain ⟨k', a'⟩ := e
    rw [putEntry]
    split
    · next hk =>
      refine ⟨.inr, ?_⟩
      rintro (rfl | hmem)
      · rw [beq_str_iff.1 hk]
        exact List.mem_cons_self
      · exact hmem
    · rw [List.map_cons, List.map_cons, List.mem_cons, List.mem_cons, ih]
      exact or_left_comm

/-- Removing an entry removes its name from the keys. -/
theorem str_mem_keys_dropEntry {α : Type} {s name : String} {entries : List (Value × α)}
    (hd : DistinctKeys entries) :
    .str name ∈ (dropEntry (.str s) entries).map (·.1) ↔
      s ≠ name ∧ .str name ∈ entries.map (·.1) := by
  induction entries with
  | nil => simp [dropEntry]
  | cons e rest ih =>
    obtain ⟨k', a'⟩ := e
    obtain ⟨hhead, hrest⟩ := List.pairwise_cons.1 hd
    rw [dropEntry]
    split
    · next hk =>
      obtain rfl := beq_str_iff.1 hk
      have hgone : .str s ∉ rest.map (·.1) := by
        intro hmem
        obtain ⟨e, he, hkey⟩ := List.mem_map.1 hmem
        have hne := hhead e he
        rw [hkey, str_beq_iff.2 rfl] at hne
        cases hne
      rw [List.map_cons, List.mem_cons, str.injEq]
      constructor
      · intro hmem
        exact ⟨fun heq => hgone (heq ▸ hmem), .inr hmem⟩
      · rintro ⟨hne, heq | hmem⟩
        · exact absurd heq.symm hne
        · exact hmem
    · next hk =>
      rw [List.map_cons, List.map_cons, List.mem_cons, List.mem_cons, ih hrest]
      constructor
      · rintro (heq | ⟨hne, hmem⟩)
        · refine ⟨?_, .inl heq⟩
          rintro rfl
          exact hk (beq_str_iff.2 heq.symm)
        · exact ⟨hne, .inr hmem⟩
      · rintro ⟨hne, heq | hmem⟩
        · exact .inl heq
        · exact .inr ⟨hne, hmem⟩

/-- Distinct names around other keys are distinct keys. -/
theorem pairwise_around_names {front back : List String} {keys : List Value}
    (hnames : (front ++ back).Nodup) (hkeys : keys.Pairwise fun a b => (a == b) = false)
    (hne : ∀ name ∈ front ++ back, ∀ k ∈ keys, k ≠ .str name) :
    (front.map Value.str ++ keys ++ back.map Value.str).Pairwise fun a b => (a == b) = false := by
  have hlists : ∀ names : List String, names.Nodup →
      (names.map Value.str).Pairwise fun a b => (a == b) = false := fun names h =>
    List.pairwise_map.2 (h.imp str_beq_str_of_ne)
  obtain ⟨hfront, hback, hapart⟩ := List.nodup_append.1 hnames
  refine List.pairwise_append.2 ⟨List.pairwise_append.2 ⟨hlists _ hfront, hkeys, ?_⟩,
    hlists _ hback, ?_⟩
  · intro a ha k hk
    obtain ⟨name, hname, rfl⟩ := List.mem_map.1 ha
    exact Bool.eq_false_iff.2 fun heq =>
      hne name (List.mem_append_left _ hname) k hk (str_beq_iff.1 heq)
  · intro a ha b hb
    obtain ⟨name, hname, rfl⟩ := List.mem_map.1 hb
    refine Bool.eq_false_iff.2 fun heq => ?_
    obtain rfl := beq_str_iff.1 heq
    rcases List.mem_append.1 ha with ha | ha
    · obtain ⟨other, hother, hsame⟩ := List.mem_map.1 ha
      exact hapart other hother name hname (Value.str.inj hsame)
    · exact hne name (List.mem_append_right _ hname) _ ha rfl

/-- A field is the value of the text that is its name. -/
theorem field?_eq_valueAt? (name : String) (entries : List (Value × Value)) :
    field? name entries = valueAt? (.str name) entries := by
  induction entries with
  | nil => rfl
  | cons e rest ih =>
    obtain ⟨key, v⟩ := e
    rw [valueAt?]
    by_cases hkey : key = .str name
    · rw [if_pos (beq_str_iff.2 hkey), hkey, field?, if_pos rfl]
    · rw [if_neg (mt beq_str_iff.1 hkey), ← ih]
      cases key with
      | str s => exact if_neg fun hs => hkey (congrArg Value.str hs)
      | _ => rfl

theorem field?_cons_str (name s : String) (v : Value) (rest : List (Value × Value)) :
    field? name ((.str s, v) :: rest) = if s = name then some v else field? name rest := rfl

theorem field?_cons_of_ne {name : String} {e : Value × Value} (h : e.1 ≠ .str name)
    (rest : List (Value × Value)) : field? name (e :: rest) = field? name rest := by
  obtain ⟨k, v⟩ := e
  cases k with
  | str s => exact if_neg fun hs => h (congrArg Value.str hs)
  | _ => rfl

/-- A name that is no key has no field. -/
theorem field?_eq_none {name : String} {entries : List (Value × Value)}
    (h : ∀ e ∈ entries, e.1 ≠ .str name) : field? name entries = none := by
  induction entries with
  | nil => rfl
  | cons e rest ih =>
    rw [field?_cons_of_ne (h e List.mem_cons_self)]
    exact ih fun e he => h e (List.mem_cons_of_mem _ he)

theorem field?_append (name : String) (xs ys : List (Value × Value)) :
    field? name (xs ++ ys) = (field? name xs).or (field? name ys) := by
  induction xs with
  | nil => rfl
  | cons e rest ih =>
    by_cases h : e.1 = .str name
    · obtain ⟨k, v⟩ := e
      obtain rfl : k = .str name := h
      rw [List.cons_append, field?_cons_str, field?_cons_str, if_pos rfl, if_pos rfl]
      rfl
    · rw [List.cons_append, field?_cons_of_ne h, field?_cons_of_ne h, ih]

theorem mem_of_field? {name : String} {entries : List (Value × Value)} {v : Value}
    (h : field? name entries = some v) : (.str name, v) ∈ entries := by
  induction entries with
  | nil => cases h
  | cons e rest ih =>
    by_cases he : e.1 = .str name
    · obtain ⟨k, v'⟩ := e
      obtain rfl : k = .str name := he
      rw [field?_cons_str, if_pos rfl] at h
      rw [Option.some.inj h]
      exact List.mem_cons_self
    · rw [field?_cons_of_ne he] at h
      exact List.mem_cons_of_mem _ (ih h)

/-- Where keys are distinct, an entry with a name is the field of that name. -/
theorem field?_of_mem {name : String} {entries : List (Value × Value)} {v : Value}
    (hd : DistinctKeys entries) (h : (.str name, v) ∈ entries) : field? name entries = some v := by
  induction entries with
  | nil => cases h
  | cons e rest ih =>
    obtain ⟨hhead, hrest⟩ := List.pairwise_cons.1 hd
    rcases List.mem_cons.1 h with rfl | h
    · rw [field?_cons_str, if_pos rfl]
    · have hne : e.1 ≠ .str name := fun he =>
        absurd (hhead _ h) (by rw [he, str_beq_iff.2 rfl]; decide)
      rw [field?_cons_of_ne hne]
      exact ih hrest h

/-! ## Slots of a plain tree -/

/-- The entries of a map with their values in slots. -/
def slots (entries : List (Value × Value)) : List (Value × Slot (List (Value × Value))) :=
  entries.map fun e => (e.1, e.2.slot)

theorem slots_append (xs ys : List (Value × Value)) : slots (xs ++ ys) = slots xs ++ slots ys :=
  List.map_append

theorem field?_slots (name : String) (entries : List (Value × Value)) :
    Slot.field? name (slots entries) = (field? name entries).map slot := by
  induction entries with
  | nil => rfl
  | cons e rest ih =>
    obtain ⟨k, v⟩ := e
    cases k with
    | str s =>
      rw [slots, List.map_cons, Slot.field?, field?_cons_str]
      split
      · rfl
      · exact ih
    | _ => exact ih

/-- A field of a plain tree, read in a way that gives back what slots are made from. -/
theorem fieldValue_slots {read : Slot (List (Value × Value)) → Value}
    (hread : ∀ v : Value, read v.slot = v) (name : String) (entries : List (Value × Value)) :
    Slot.fieldValue read name (slots entries) = (field? name entries).getD .null := by
  rw [Slot.fieldValue, field?_slots]
  cases field? name entries with
  | none => rfl
  | some v => exact hread v

theorem value_slot (v : Value) : Source.tree.value v.slot = v := ofSlot_slot v

theorem parts_slot (v : Value) : Source.tree.parts v.slot = v := by
  cases v with
  | map entries =>
    have h : (slots entries).map (fun e => (e.1, ofSlot e.2)) = entries := by
      rw [slots, List.map_map]
      calc entries.map _
          _ = entries.map id := List.map_congr_left fun e _ => by simp
          _ = entries := List.map_id _
    exact congrArg Value.map h
  | _ => rfl

theorem innerParts_slot (v : Value) : Source.tree.innerParts v.slot = v := by
  cases v with
  | map entries => exact parts_slot (.map entries)
  | _ => rfl

end Value

theorem Slot.field?_eq_valueAt? {ν : Type} (name : String) (entries : List (Value × Slot ν)) :
    Slot.field? name entries = valueAt? (.str name) entries := by
  induction entries with
  | nil => rfl
  | cons e rest ih =>
    obtain ⟨key, slot⟩ := e
    rw [valueAt?]
    by_cases hkey : key = .str name
    · rw [if_pos (Value.beq_str_iff.2 hkey), hkey, Slot.field?, if_pos rfl]
    · rw [if_neg (mt Value.beq_str_iff.1 hkey), ← ih]
      cases key with
      | str s => exact if_neg fun hs => hkey (congrArg Value.str hs)
      | _ => rfl

theorem Slot.mem_of_field? {ν : Type} {name : String} {entries : List (Value × Slot ν)}
    {slot : Slot ν} (h : Slot.field? name entries = some slot) : (.str name, slot) ∈ entries := by
  fun_induction Slot.field? name entries with
  | case1 => cases h
  | case2 slot' rest =>
    obtain rfl := Option.some.inj h
    exact List.mem_cons_self
  | case3 _ _ _ _ ih => exact List.mem_cons_of_mem _ (ih h)
  | case4 _ _ _ ih => exact List.mem_cons_of_mem _ (ih h)

end LayoutGrammar
