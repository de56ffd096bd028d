import LayoutGrammar.Extends.Graph

/-!
# What a search has left to do

The searches in an extends graph end because they mark places and never mark one twice. The measure
of all of them is `remaining`: how many entries of a list have not been marked yet. Marking more
never raises it, and marking an entry that was open lowers it.
-/

namespace LayoutGrammar.Extends

/-- How many entries of a list are not marked. -/
def remaining (places marked : List String) : Nat := (places.filter (· ∉ marked)).length

theorem remaining_append (places new marked : List String) :
    remaining places (new ++ marked) =
      ((places.filter (· ∉ marked)).filter (· ∉ new)).length := by
  rw [remaining, List.filter_filter]
  congr 1
  apply List.filter_congr
  intro x _
  simp only [List.mem_append, not_or, Bool.decide_and]

theorem remaining_append_le (places new marked : List String) :
    remaining places (new ++ marked) ≤ remaining places marked := by
  rw [remaining_append]
  exact List.length_filter_le _ _

theorem remaining_cons_le (places : List String) (a : String) (marked : List String) :
    remaining places (a :: marked) ≤ remaining places marked :=
  remaining_append_le places [a] marked

theorem remaining_append_lt {places new marked : List String} {a : String} (hp : a ∈ places)
    (hn : a ∈ new) (hm : a ∉ marked) :
    remaining places (new ++ marked) < remaining places marked := by
  rw [remaining_append]
  apply List.length_filter_lt_length_iff_exists.2
  exact ⟨a, List.mem_filter.2 ⟨hp, by simpa using hm⟩, by simpa using hn⟩

theorem remaining_cons_lt {places marked : List String} {a : String} (hp : a ∈ places)
    (hm : a ∉ marked) : remaining places (a :: marked) < remaining places marked :=
  @remaining_append_lt places [a] marked a hp (List.mem_singleton.2 rfl) hm

namespace Graph

theorem mem_keys_of_get? {g : Graph} {node : String} {ts : List String}
    (h : g.get? node = some ts) : (node, ts) ∈ g.entries := by
  unfold Table.get? at h
  revert h
  induction g.entries with
  | nil => simp [valueAt?]
  | cons e rest ih =>
    obtain ⟨k, v⟩ := e
    intro h
    rw [valueAt?] at h
    split at h
    · rename_i hk
      rw [eq_of_beq hk, Option.some.inj h]
      exact List.mem_cons_self
    · exact List.mem_cons_of_mem _ (ih h)

/-- A target is one of the graph's places. -/
theorem mem_places_of_edge {g : Graph} {source target : String} (h : g.Edge source target) :
    target ∈ g.places := by
  unfold Edge targets at h
  cases hg : g.get? source with
  | none => simp [hg] at h
  | some ts =>
    rw [hg] at h
    exact List.mem_flatMap.2 ⟨_, mem_keys_of_get? hg, List.mem_cons_of_mem _ h⟩

/-- A place without an entry has no targets. -/
theorem targets_of_not_mem_keys {g : Graph} {node : String} (h : node ∉ g.keys) :
    g.targets node = [] := by
  unfold targets
  cases hg : g.get? node with
  | none => rfl
  | some ts => exact absurd (List.mem_map.2 ⟨_, mem_keys_of_get? hg, rfl⟩) h

end Graph

end LayoutGrammar.Extends
