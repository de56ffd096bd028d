import LayoutGrammar.Table

/-!
# What tables hold

Reading back what was written to a table. The first part needs nothing of `==`: a new key goes to
the end (`putEntry_of_new`), so a list of entries with distinct keys is the table it spells
(`entries_ofList`). The second part is for lawful keys: `get?_insert`, `get?_erase` and their kin
say what each operation does to every look-up, and `get?_eq_some_iff` ties look-ups to the entries.
-/

namespace LayoutGrammar

universe u v w

section Writing

variable {κ : Type u} [BEq κ] {α : Type v} {β : Type w}

/-- A new key goes to the end. -/
theorem putEntry_of_new {k : κ} {a : α} {entries : List (κ × α)}
    (h : ∀ e ∈ entries, (e.1 == k) = false) : putEntry k a entries = entries ++ [(k, a)] := by
  induction entries with
  | nil => rfl
  | cons e rest ih =>
    obtain ⟨k', a'⟩ := e
    have hk : (k' == k) = false := h _ List.mem_cons_self
    rw [putEntry, hk, ih fun e he => h e (List.mem_cons_of_mem _ he)]
    rfl

/-- Writing entries with distinct new keys appends them. -/
theorem foldl_putEntry {written entries : List (κ × α)} (h : DistinctKeys (written ++ entries)) :
    entries.foldl (fun m e => putEntry e.1 e.2 m) written = written ++ entries := by
  induction entries generalizing written with
  | nil => rw [List.foldl_nil, List.append_nil]
  | cons e rest ih =>
    rw [List.append_cons] at h
    have hnew : ∀ e' ∈ written, (e'.1 == e.1) = false := fun e' he' =>
      (List.pairwise_append.1 (List.pairwise_append.1 h).1).2.2 e' he' e (List.mem_singleton.2 rfl)
    rw [List.foldl_cons, putEntry_of_new hnew, ih h, List.append_assoc, List.singleton_append]

/-- A key that no entry has is not found. -/
theorem valueAt?_eq_none {k : κ} {entries : List (κ × α)} (h : ∀ e ∈ entries, (e.1 == k) = false) :
    valueAt? k entries = none := by
  induction entries with
  | nil => rfl
  | cons e rest ih =>
    rw [valueAt?, if_neg (Bool.eq_false_iff.1 (h e List.mem_cons_self))]
    exact ih fun e he => h e (List.mem_cons_of_mem _ he)

/-- An entry after a write was there before, or holds what was written. -/
theorem mem_putEntry {k : κ} {a : α} {e : κ × α} {entries : List (κ × α)}
    (h : e ∈ putEntry k a entries) : e ∈ entries ∨ e.2 = a ∧ (e.1 = k ∨ (e.1 == k) = true) := by
  induction entries with
  | nil =>
    rw [putEntry, List.mem_singleton] at h
    subst h
    exact .inr ⟨rfl, .inl rfl⟩
  | cons x rest ih =>
    obtain ⟨k', a'⟩ := x
    rw [putEntry] at h
    split at h
    · next hk =>
      rcases List.mem_cons.1 h with rfl | h
      · exact .inr ⟨rfl, .inr hk⟩
      · exact .inl (List.mem_cons_of_mem _ h)
    · rcases List.mem_cons.1 h with rfl | h
      · exact .inl List.mem_cons_self
      · exact (ih h).imp_left (List.mem_cons_of_mem _)

namespace Table

theorem entries_insertAll (t : Table κ α) (entries : List (κ × α)) :
    (t.insertAll entries).entries = entries.foldl (fun m e => putEntry e.1 e.2 m) t.entries := by
  unfold insertAll
  induction entries generalizing t with
  | nil => rfl
  | cons e rest ih => rw [List.foldl_cons, ih, entries_insert, List.foldl_cons]

theorem insertAll_append (t : Table κ α) (xs ys : List (κ × α)) :
    t.insertAll (xs ++ ys) = (t.insertAll xs).insertAll ys := List.foldl_append

/-- Writing several lists of entries is writing all of them. -/
theorem foldl_insertAll {ι : Type w} (f : ι → List (κ × α)) (t : Table κ α) (items : List ι) :
    items.foldl (fun t i => t.insertAll (f i)) t = t.insertAll (items.flatMap f) := by
  induction items generalizing t with
  | nil => rfl
  | cons i rest ih => rw [List.foldl_cons, ih, List.flatMap_cons, insertAll_append]

/-- A list of entries with distinct keys is the table that it spells. -/
theorem entries_ofList {entries : List (κ × α)} (h : DistinctKeys entries) :
    (ofList entries).entries = entries := by
  rw [ofList, entries_insertAll, entries_empty, foldl_putEntry (by rwa [List.nil_append]),
    List.nil_append]

@[simp] theorem ofList_entries (t : Table κ α) : ofList t.entries = t :=
  ext (entries_ofList t.distinct)

theorem entries_insert_of_new {t : Table κ α} {k : κ} (a : α)
    (h : ∀ e ∈ t.entries, (e.1 == k) = false) : (t.insert k a).entries = t.entries ++ [(k, a)] :=
  putEntry_of_new h

theorem contains_of_get? {t : Table κ α} {k : κ} {a : α} (h : t.get? k = some a) :
    t.contains k = true := by
  rw [contains, h]
  rfl

/-- Writing what a key already has changes nothing. -/
theorem insert_of_get? {t : Table κ α} {k : κ} {a : α} (h : t.get? k = some a) :
    t.insert k a = t := by
  apply ext
  rw [entries_insert]
  rw [get?] at h
  generalize t.entries = entries at h ⊢
  induction entries with
  | nil => cases h
  | cons e rest ih =>
    obtain ⟨k', a'⟩ := e
    rw [valueAt?] at h
    rw [putEntry]
    split at h
    · next hk =>
      obtain rfl := Option.some.inj h
      rw [if_pos hk]
    · next hk => rw [if_neg hk, ih h]

theorem get?_mapValues (t : Table κ α) (f : α → β) (k : κ) :
    (t.mapValues f).get? k = (t.get? k).map f := by
  unfold get?
  rw [entries_mapValues]
  induction t.entries with
  | nil => rfl
  | cons e rest ih =>
    obtain ⟨k', a'⟩ := e
    rw [List.map_cons, valueAt?, valueAt?, ih]
    split <;> rfl

theorem mapValues_insert (t : Table κ α) (k : κ) (a : α) (f : α → β) :
    (t.insert k a).mapValues f = (t.mapValues f).insert k (f a) := by
  apply ext
  rw [entries_mapValues, entries_insert, entries_insert, entries_mapValues]
  induction t.entries with
  | nil => rfl
  | cons e rest ih =>
    obtain ⟨k', a'⟩ := e
    rw [putEntry, List.map_cons, putEntry]
    split
    · rfl
    · rw [List.map_cons, ih]

theorem mapValues_id {t : Table κ α} {f : α → α} (h : ∀ e ∈ t.entries, f e.2 = e.2) :
    t.mapValues f = t := by
  apply ext
  rw [entries_mapValues]
  calc t.entries.map (fun e => (e.1, f e.2))
      _ = t.entries.map id := List.map_congr_left fun e he => by rw [h e he]; rfl
      _ = t.entries := List.map_id _

end Table

end Writing

section Lawful

variable {κ : Type u} [BEq κ] [LawfulBEq κ] {α : Type v} {β : Type w}

theorem distinctKeys_iff_nodup {entries : List (κ × α)} :
    DistinctKeys entries ↔ (entries.map (·.1)).Nodup := by
  rw [DistinctKeys, List.Nodup, List.pairwise_map]
  simp only [beq_eq_false_iff_ne]

theorem valueAt?_eq_some_iff {k : κ} {a : α} {entries : List (κ × α)} (h : DistinctKeys entries) :
    valueAt? k entries = some a ↔ (k, a) ∈ entries := by
  induction entries with
  | nil => simp [valueAt?]
  | cons e rest ih =>
    obtain ⟨k', a'⟩ := e
    obtain ⟨hhead, hrest⟩ := List.pairwise_cons.1 h
    rw [valueAt?]
    split
    · next hk =>
      obtain rfl := eq_of_beq hk
      constructor
      · rintro ⟨⟩
        exact List.mem_cons_self
      · intro hmem
        rcases List.mem_cons.1 hmem with heq | hmem
        · rw [(Prod.mk.inj heq).2]
        · exact absurd (hhead _ hmem) (by simp)
    · next hk =>
      rw [ih hrest, List.mem_cons, or_iff_right]
      rintro ⟨⟩
      exact hk (beq_self_eq_true k)

theorem mem_of_valueAt? {k : κ} {a : α} {entries : List (κ × α)} (h : valueAt? k entries = some a) :
    (k, a) ∈ entries := by
  induction entries with
  | nil => cases h
  | cons e rest ih =>
    obtain ⟨k', a'⟩ := e
    rw [valueAt?] at h
    split at h
    · next hk =>
      rw [eq_of_beq hk, Option.some.inj h]
      exact List.mem_cons_self
    · exact List.mem_cons_of_mem _ (ih h)

theorem valueAt?_putEntry (k k' : κ) (a : α) (entries : List (κ × α)) :
    valueAt? k' (putEntry k a entries) = if k == k' then some a else valueAt? k' entries := by
  induction entries with
  | nil => rfl
  | cons e rest ih =>
    obtain ⟨k₀, a₀⟩ := e
    rw [putEntry]
    split
    · next hk =>
      obtain rfl := eq_of_beq hk
      rw [valueAt?, valueAt?]
      split <;> rfl
    · next hk =>
      rw [valueAt?, valueAt?, ih]
      split
      · next h₀ =>
        obtain rfl := eq_of_beq h₀
        rw [if_neg]
        exact fun h => hk (by rw [eq_of_beq h]; exact beq_self_eq_true _)
      · rfl

/-- A known key keeps its place. -/
theorem putEntry_of_known {k : κ} (a b : α) {before : List (κ × α)} (h : ∀ e ∈ before, e.1 ≠ k)
    (after : List (κ × α)) :
    putEntry k a (before ++ (k, b) :: after) = before ++ (k, a) :: after := by
  induction before with
  | nil => rw [List.nil_append, List.nil_append, putEntry, if_pos (beq_self_eq_true k)]
  | cons e rest ih =>
    have hne : ¬ (e.1 == k) = true := fun heq => h e List.mem_cons_self (eq_of_beq heq)
    rw [List.cons_append, List.cons_append, putEntry, if_neg hne,
      ih fun e' he' => h e' (List.mem_cons_of_mem _ he')]

theorem valueAt?_dropEntry {k : κ} {entries : List (κ × α)} (h : DistinctKeys entries) (k' : κ) :
    valueAt? k' (dropEntry k entries) = if k == k' then none else valueAt? k' entries := by
  induction entries with
  | nil => simp [dropEntry, valueAt?]
  | cons e rest ih =>
    obtain ⟨k₀, a₀⟩ := e
    obtain ⟨hhead, hrest⟩ := List.pairwise_cons.1 h
    rw [dropEntry]
    split
    · next hk =>
      obtain rfl := eq_of_beq hk
      rw [valueAt?]
      split
      · next hkk =>
        obtain rfl := eq_of_beq hkk
        cases hv : valueAt? k₀ rest with
        | none => rfl
        | some a => exact absurd (hhead _ ((valueAt?_eq_some_iff hrest).1 hv)) (by simp)
      · rfl
    · next hk =>
      rw [valueAt?, valueAt?, ih hrest]
      split
      · next h₀ =>
        obtain rfl := eq_of_beq h₀
        rw [if_neg]
        exact fun h => hk (by rw [eq_of_beq h]; exact beq_self_eq_true _)
      · rfl

namespace Table

variable {t : Table κ α}

theorem get?_eq_some_iff {k : κ} {a : α} : t.get? k = some a ↔ (k, a) ∈ t.entries :=
  valueAt?_eq_some_iff t.distinct

theorem get?_insert (t : Table κ α) (k k' : κ) (a : α) :
    (t.insert k a).get? k' = if k == k' then some a else t.get? k' :=
  valueAt?_putEntry k k' a t.entries

@[simp] theorem get?_insert_self (t : Table κ α) (k : κ) (a : α) :
    (t.insert k a).get? k = some a := by rw [get?_insert, if_pos (beq_self_eq_true k)]

theorem get?_insert_of_ne {k k' : κ} (h : k ≠ k') (t : Table κ α) (a : α) :
    (t.insert k a).get? k' = t.get? k' := by
  rw [get?_insert, if_neg fun hk => h (eq_of_beq hk)]

theorem contains_insert (t : Table κ α) (k k' : κ) (a : α) :
    (t.insert k a).contains k' = (k == k' || t.contains k') := by
  rw [contains, get?_insert]
  split
  · next h => rw [h, Bool.true_or]; rfl
  · next h => rw [Bool.eq_false_iff.2 h, Bool.false_or]; rfl

theorem get?_erase (t : Table κ α) (k k' : κ) :
    (t.erase k).get? k' = if k == k' then none else t.get? k' :=
  valueAt?_dropEntry t.distinct k'

theorem contains_erase (t : Table κ α) (k k' : κ) :
    (t.erase k).contains k' = (!(k == k') && t.contains k') := by
  rw [contains, get?_erase]
  split
  · next h => rw [h]; rfl
  · next h => rw [Bool.eq_false_iff.2 h]; rfl

theorem contains_eq_true_iff {k : κ} : t.contains k = true ↔ k ∈ t.keys := by
  rw [contains, Option.isSome_iff_exists, keys, List.mem_map]
  constructor
  · rintro ⟨a, h⟩
    exact ⟨(k, a), get?_eq_some_iff.1 h, rfl⟩
  · rintro ⟨⟨k', a⟩, h, rfl⟩
    exact ⟨a, get?_eq_some_iff.2 h⟩

theorem contains_eq_false_iff {k : κ} : t.contains k = false ↔ ∀ e ∈ t.entries, e.1 ≠ k := by
  rw [← Bool.not_eq_true, contains_eq_true_iff, keys, List.mem_map]
  exact ⟨fun h e he hk => h ⟨e, he, hk⟩, fun h ⟨e, he, hk⟩ => h e he hk⟩

/-- Entries with distinct keys are what is found after they were written. -/
theorem get?_insertAll {entries : List (κ × α)} (h : DistinctKeys entries) (t : Table κ α) (k : κ) :
    (t.insertAll entries).get? k = (valueAt? k entries).or (t.get? k) := by
  induction entries generalizing t with
  | nil => rfl
  | cons e rest ih =>
    obtain ⟨hhead, hrest⟩ := List.pairwise_cons.1 h
    have hstep : (t.insertAll (e :: rest)).get? k =
        (valueAt? k rest).or ((t.insert e.1 e.2).get? k) := ih hrest _
    rw [hstep, get?_insert, valueAt?]
    by_cases hk : (e.1 == k) = true
    · have hnew : valueAt? k rest = none :=
        valueAt?_eq_none fun e' he' => by
          rw [← eq_of_beq hk, Bool.beq_comm]
          exact hhead e' he'
      rw [if_pos hk, if_pos hk, hnew]
      rfl
    · rw [if_neg hk, if_neg hk]

/-- What is found after writing entries was written or was there before. -/
theorem mem_of_get?_insertAll {entries : List (κ × α)} {k : κ} {a : α}
    (h : (t.insertAll entries).get? k = some a) : (k, a) ∈ entries ∨ t.get? k = some a := by
  induction entries generalizing t with
  | nil => exact .inr h
  | cons e rest ih =>
    rcases @ih (t.insert e.1 e.2) h with hmem | hfound
    · exact .inl (List.mem_cons_of_mem _ hmem)
    · rw [get?_insert] at hfound
      split at hfound
      · next hk =>
        obtain rfl := eq_of_beq hk
        obtain rfl := Option.some.inj hfound
        exact .inl List.mem_cons_self
      · exact .inr hfound

theorem contains_insertAll (t : Table κ α) (entries : List (κ × α)) (k : κ) :
    (t.insertAll entries).contains k = (t.contains k || entries.any (·.1 == k)) := by
  induction entries generalizing t with
  | nil => exact (Bool.or_false _).symm
  | cons e rest ih =>
    change ((t.insert e.1 e.2).insertAll rest).contains k = _
    rw [ih, contains_insert, List.any_cons, Bool.or_left_comm, Bool.or_assoc]

theorem keys_insert_of_contains {k : κ} (h : t.contains k = true) (a : α) :
    (t.insert k a).keys = t.keys := by
  obtain ⟨⟨k', b⟩, hmem, heq⟩ := List.mem_map.1 (contains_eq_true_iff.1 h)
  obtain rfl : k' = k := heq
  have hdistinct := t.distinct
  obtain ⟨before, after, hentries⟩ := List.append_of_mem hmem
  rw [hentries] at hdistinct
  have hbefore : ∀ e ∈ before, e.1 ≠ k' := fun e he =>
    ne_of_beq_false ((List.pairwise_append.1 hdistinct).2.2 e he _ List.mem_cons_self)
  rw [keys, entries_insert, hentries, putEntry_of_known a b hbefore after, keys, hentries]
  simp

/-- Writing to known keys keeps all keys and their order. -/
theorem keys_insertAll_of_contains {entries : List (κ × α)}
    (h : ∀ e ∈ entries, t.contains e.1 = true) : (t.insertAll entries).keys = t.keys := by
  induction entries generalizing t with
  | nil => rfl
  | cons e rest ih =>
    obtain ⟨hhead, hrest⟩ := List.forall_mem_cons.1 h
    have hstep : ((t.insert e.1 e.2).insertAll rest).keys = (t.insert e.1 e.2).keys :=
      ih fun e' he' => by rw [contains_insert, hrest e' he', Bool.or_true]
    exact hstep.trans (keys_insert_of_contains hhead e.2)

/-- A table is known by its keys and what is found there. -/
theorem entries_eq_map {ι : Type w} {items : List ι} {key : ι → κ} {value : ι → α}
    (hkeys : t.keys = items.map key) (h : ∀ i ∈ items, t.get? (key i) = some (value i)) :
    t.entries = items.map fun i => (key i, value i) := by
  let found : κ × α → κ × Option α := fun e => (e.1, some e.2)
  have hinj : ∀ a b, found a = found b → a = b := by
    rintro ⟨k, a⟩ ⟨k', b⟩ heq
    cases heq
    rfl
  refine (List.map_inj_right hinj).1 ?_
  calc t.entries.map found
      _ = t.entries.map fun e => (e.1, t.get? e.1) :=
        List.map_congr_left fun e he => congrArg (e.1, ·) (get?_eq_some_iff.2 he).symm
      _ = t.keys.map fun k => (k, t.get? k) := by rw [keys, List.map_map]; rfl
      _ = items.map fun i => (key i, t.get? (key i)) := by rw [hkeys, List.map_map]; rfl
      _ = items.map fun i => (key i, some (value i)) :=
        List.map_congr_left fun i hi => congrArg (key i, ·) (h i hi)
      _ = (items.map fun i => (key i, value i)).map found := by rw [List.map_map]; rfl

/-- Removing a new key after it was written changes nothing. -/
theorem erase_insert_of_new {k : κ} (h : t.contains k = false) (a : α) :
    (t.insert k a).erase k = t := by
  have hnew := contains_eq_false_iff.1 h
  apply ext
  rw [entries_erase, entries_insert]
  generalize t.entries = entries at hnew ⊢
  induction entries with
  | nil => simp [putEntry, dropEntry]
  | cons e rest ih =>
    obtain ⟨k', a'⟩ := e
    have hne : ¬ (k' == k) = true := by
      intro hk
      exact hnew (k', a') List.mem_cons_self (eq_of_beq hk)
    rw [putEntry, if_neg hne, dropEntry, if_neg hne,
      ih fun e' he' => hnew e' (List.mem_cons_of_mem _ he')]

/-- A second write to a key replaces the first one. -/
@[simp] theorem insert_insert (t : Table κ α) (k : κ) (a b : α) :
    (t.insert k a).insert k b = t.insert k b := by
  apply ext
  rw [entries_insert, entries_insert, entries_insert]
  induction t.entries with
  | nil => simp [putEntry]
  | cons e rest ih =>
    obtain ⟨k', a'⟩ := e
    by_cases hk : (k' == k) = true
    · rw [putEntry, if_pos hk, putEntry, if_pos hk, putEntry, if_pos hk]
    · rw [putEntry, if_neg hk, putEntry, if_neg hk, putEntry, if_neg hk, ih]

end Table

end Lawful

end LayoutGrammar
