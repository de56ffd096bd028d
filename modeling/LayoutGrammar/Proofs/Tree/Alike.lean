import LayoutGrammar.Proofs.Tree.Fields

/-!
# Alike values

Values that compare as equal are nested equally deep as far as sequences and maps go: the first one
is never the deeper one (`height_le_of_alike`). An entry of a map has an alike entry in every map
that is alike (`exists_entry_of_alike`). Hence no map is alike to a value that stands within itself.
-/

namespace LayoutGrammar.Value

section EqBy

variable {eq : Float → Float → Bool}

theorem le_heightEntries {e : Value × Value} {entries : List (Value × Value)} (h : e ∈ entries) :
    e.2.height ≤ heightEntries entries := by
  induction entries with
  | nil => cases h
  | cons x rest ih =>
    obtain ⟨k, v⟩ := x
    rw [heightEntries]
    rcases List.mem_cons.1 h with rfl | h
    · exact Nat.le_max_left _ _
    · exact Nat.le_trans (ih h) (Nat.le_max_right _ _)

mutual

theorem height_le_of_eqBy : ∀ {a b : Value}, eqBy eq a b = true → a.height ≤ b.height
  | .list xs, b, h => by
    cases b with
    | list ys =>
      rw [eqBy] at h
      have := heightItems_le_of_itemsEqBy h
      simpa only [height] using Nat.succ_le_succ this
    | _ => simp [eqBy, scalarEqBy, quantity?] at h
  | .tuple xs, b, h => by
    cases b with
    | tuple ys =>
      rw [eqBy] at h
      have := heightItems_le_of_itemsEqBy h
      simpa only [height] using Nat.succ_le_succ this
    | _ => simp [eqBy, scalarEqBy, quantity?] at h
  | .map xs, b, h => by
    cases b with
    | map ys =>
      rw [eqBy, Bool.and_eq_true] at h
      have := heightEntries_le_of_entriesWithin h.2
      simpa only [height] using Nat.succ_le_succ this
    | _ => simp [eqBy, scalarEqBy, quantity?] at h
  | .null, _, _ | .bool _, _, _ | .int _, _, _ | .float _, _, _ | .str _, _, _ | .bytes _, _, _
  | .date _, _, _ | .moment _, _, _ | .set _, _, _ | .again _, _, _ => Nat.zero_le _

theorem heightItems_le_of_itemsEqBy :
    ∀ {xs ys : List Value}, itemsEqBy eq xs ys = true → heightItems xs ≤ heightItems ys
  | [], _, _ => Nat.zero_le _
  | x :: xs, [], h => by simp [itemsEqBy] at h
  | x :: xs, y :: ys, h => by
    rw [itemsEqBy, Bool.and_eq_true] at h
    have hhead := height_le_of_eqBy h.1
    have hrest := heightItems_le_of_itemsEqBy h.2
    simp only [heightItems]
    omega

theorem heightEntries_le_of_entriesWithin : ∀ {xs ys : List (Value × Value)},
    entriesWithin eq xs ys = true → heightEntries xs ≤ heightEntries ys
  | [], _, _ => Nat.zero_le _
  | (k, v) :: rest, ys, h => by
    rw [entriesWithin, Bool.and_eq_true, List.any_eq_true] at h
    obtain ⟨⟨e, he, hsame⟩, hrest⟩ := h
    rw [Bool.and_eq_true] at hsame
    have hhead := Nat.le_trans (height_le_of_eqBy hsame.2) (le_heightEntries he)
    have hrest := heightEntries_le_of_entriesWithin hrest
    simp only [heightEntries]
    omega

end

theorem exists_entry_of_entriesWithin {e : Value × Value} {xs ys : List (Value × Value)}
    (h : entriesWithin eq xs ys = true) (he : e ∈ xs) :
    ∃ e' ∈ ys, eqBy eq e.1 e'.1 = true ∧ eqBy eq e.2 e'.2 = true := by
  induction xs with
  | nil => cases he
  | cons x rest ih =>
    obtain ⟨k, v⟩ := x
    rw [entriesWithin, Bool.and_eq_true, List.any_eq_true] at h
    rcases List.mem_cons.1 he with rfl | he
    · obtain ⟨e', he', hsame⟩ := h.1
      exact ⟨e', he', Bool.and_eq_true_iff.1 hsame⟩
    · exact ih h.2 he

end EqBy

/-- The first of two alike values is never the deeper one. -/
theorem height_le_of_alike {a b : Value} (h : a.alike b = true) : a.height ≤ b.height :=
  height_le_of_eqBy h

/-- What a map holds under a name, an alike map holds under the same name. -/
theorem exists_entry_of_alike {xs ys : List (Value × Value)}
    (h : (Value.map xs).alike (.map ys) = true) {name : String} {v : Value}
    (hv : (.str name, v) ∈ xs) : ∃ v', (.str name, v') ∈ ys ∧ v.alike v' = true := by
  rw [alike, eqBy, Bool.and_eq_true] at h
  obtain ⟨⟨k, v'⟩, he', hkey, hvalue⟩ := exists_entry_of_entriesWithin h.2 hv
  obtain rfl := eqBy_str_iff.1 hkey
  exact ⟨v', he', hvalue⟩

end LayoutGrammar.Value
