/-!
# Tables

A table is a finite map that remembers the order in which its keys came: writing to a new key adds
an entry at the end, writing to a known key keeps its place. Keys are compared with `==`, which need
not be lawful, so the entry keeps the key it came with. That keys are pairwise different is part of
the type; every operation below keeps it.
-/

namespace LayoutGrammar

universe u v w

variable {κ : Type u} [BEq κ] {α : Type v} {β : Type w}

/-- Writes an entry: in place of the first one with an equal key, which keeps its key, or at the
end. -/
def putEntry (k : κ) (a : α) : List (κ × α) → List (κ × α)
  | [] => [(k, a)]
  | (k', a') :: rest => if k' == k then (k', a) :: rest else (k', a') :: putEntry k a rest

/-- The value of the first entry with an equal key. -/
def valueAt? (k : κ) : List (κ × α) → Option α
  | [] => none
  | (k', a) :: rest => if k' == k then some a else valueAt? k rest

/-- Removes the first entry with an equal key. -/
def dropEntry (k : κ) : List (κ × α) → List (κ × α)
  | [] => []
  | (k', a) :: rest => if k' == k then rest else (k', a) :: dropEntry k rest

/-- No key equals an earlier one. -/
def DistinctKeys (entries : List (κ × α)) : Prop :=
  entries.Pairwise fun a b => (a.1 == b.1) = false

theorem mem_dropEntry {k : κ} {e : κ × α} {entries : List (κ × α)}
    (h : e ∈ dropEntry k entries) : e ∈ entries := by
  induction entries with
  | nil => exact h
  | cons x rest ih =>
    obtain ⟨k', a'⟩ := x
    rw [dropEntry] at h
    split at h
    · exact List.mem_cons_of_mem _ h
    · rcases List.mem_cons.1 h with rfl | h
      · exact List.mem_cons_self
      · exact List.mem_cons_of_mem _ (ih h)

/-- A written entry has an old key or the new one. -/
theorem key_of_mem_putEntry {k : κ} {a : α} {e : κ × α} {entries : List (κ × α)}
    (h : e ∈ putEntry k a entries) : e.1 = k ∨ ∃ e' ∈ entries, e'.1 = e.1 := by
  induction entries with
  | nil => exact .inl (by rw [List.mem_singleton.1 h])
  | cons x rest ih =>
    obtain ⟨k', a'⟩ := x
    rw [putEntry] at h
    split at h
    · rcases List.mem_cons.1 h with rfl | h
      · exact .inr ⟨_, List.mem_cons_self, rfl⟩
      · exact .inr ⟨e, List.mem_cons_of_mem _ h, rfl⟩
    · rcases List.mem_cons.1 h with rfl | h
      · exact .inr ⟨_, List.mem_cons_self, rfl⟩
      · rcases ih h with h | ⟨e', he', h⟩
        · exact .inl h
        · exact .inr ⟨e', List.mem_cons_of_mem _ he', h⟩

theorem distinctKeys_putEntry {k : κ} {a : α} {entries : List (κ × α)}
    (h : DistinctKeys entries) : DistinctKeys (putEntry k a entries) := by
  induction entries with
  | nil => exact List.pairwise_singleton _ _
  | cons x rest ih =>
    obtain ⟨k', a'⟩ := x
    obtain ⟨hx, hrest⟩ := List.pairwise_cons.1 h
    rw [putEntry]
    split
    · exact List.pairwise_cons.2 ⟨hx, hrest⟩
    · rename_i hne
      refine List.pairwise_cons.2 ⟨fun e he => ?_, ih hrest⟩
      rcases key_of_mem_putEntry he with h | ⟨e', he', h⟩
      · rw [h]; exact Bool.eq_false_iff.2 hne
      · rw [← h]; exact hx e' he'

theorem distinctKeys_dropEntry {k : κ} {entries : List (κ × α)} (h : DistinctKeys entries) :
    DistinctKeys (dropEntry k entries) := by
  induction entries with
  | nil => exact h
  | cons x rest ih =>
    obtain ⟨k', a'⟩ := x
    obtain ⟨hx, hrest⟩ := List.pairwise_cons.1 h
    rw [dropEntry]
    split
    · exact hrest
    · exact List.pairwise_cons.2 ⟨fun e he => hx e (mem_dropEntry he), ih hrest⟩

/-- A finite map in the order of its keys' first arrival. -/
structure Table (κ : Type u) [BEq κ] (α : Type v) where
  entries : List (κ × α)
  distinct : DistinctKeys entries

namespace Table

instance : EmptyCollection (Table κ α) := ⟨⟨[], List.Pairwise.nil⟩⟩

instance : Inhabited (Table κ α) := ⟨∅⟩

/-- The value of a key. -/
def get? (t : Table κ α) (k : κ) : Option α := valueAt? k t.entries

/-- Whether a key has a value. -/
def contains (t : Table κ α) (k : κ) : Bool := (t.get? k).isSome

/-- Writes a value at a key. -/
def insert (t : Table κ α) (k : κ) (a : α) : Table κ α :=
  ⟨putEntry k a t.entries, distinctKeys_putEntry t.distinct⟩

/-- Removes a key. -/
def erase (t : Table κ α) (k : κ) : Table κ α :=
  ⟨dropEntry k t.entries, distinctKeys_dropEntry t.distinct⟩

/-- Writes entries one after the other. -/
def insertAll (t : Table κ α) (entries : List (κ × α)) : Table κ α :=
  entries.foldl (fun t e => t.insert e.1 e.2) t

/-- The table of some entries: a repeated key keeps its first place and its last value. -/
def ofList (entries : List (κ × α)) : Table κ α := insertAll ∅ entries

/-- The keys in order. -/
def keys (t : Table κ α) : List κ := t.entries.map (·.1)

/-- The values in the order of their keys. -/
def values (t : Table κ α) : List α := t.entries.map (·.2)

/-- How many keys there are. -/
def size (t : Table κ α) : Nat := t.entries.length

/-- Whether there are no keys. -/
def isEmpty (t : Table κ α) : Bool := t.entries.isEmpty

/-- Changes every value. -/
def mapValues (t : Table κ α) (f : α → β) : Table κ β where
  entries := t.entries.map fun e => (e.1, f e.2)
  distinct := by
    rw [DistinctKeys, List.pairwise_map]
    exact t.distinct

@[ext] theorem ext {s t : Table κ α} (h : s.entries = t.entries) : s = t := by
  cases s; cases t; cases h; rfl

instance [DecidableEq κ] [DecidableEq α] : DecidableEq (Table κ α) := fun s t =>
  if h : s.entries = t.entries then .isTrue (ext h) else .isFalse fun e => h (e ▸ rfl)

@[simp] theorem entries_empty : (∅ : Table κ α).entries = [] := rfl

@[simp] theorem entries_insert (t : Table κ α) (k : κ) (a : α) :
    (t.insert k a).entries = putEntry k a t.entries := rfl

@[simp] theorem entries_erase (t : Table κ α) (k : κ) :
    (t.erase k).entries = dropEntry k t.entries := rfl

@[simp] theorem entries_mapValues (t : Table κ α) (f : α → β) :
    (t.mapValues f).entries = t.entries.map fun e => (e.1, f e.2) := rfl

end Table

end LayoutGrammar
