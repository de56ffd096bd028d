import LayoutGrammar.Tree.Clean
import Mathlib.Data.List.Basic

/-!
# Cleaning leaves a tidy tree

A container is tidy if it is no tuple and nothing in it is missing or empty, at any depth. Cleaning
keeps every scalar that says something, in order and below the same keys, and leaves out what holds
none of them; what is left is tidy, and a tidy container is left alone (`clean_tidies`). One fact
carries the induction: of a value inside a container either nothing is kept, and then none of its
scalars says anything, or something that it `CleansTo`.

Only lists, tuples and maps are containers here; a set is taken as it is, like a scalar.
-/

namespace LayoutGrammar.Value

/-- What `clean` goes into. -/
def isContainer : Value → Bool
  | .list _ | .tuple _ | .map _ => true
  | _ => false

/-- Induction over what `clean` goes into: what holds of all parts of a container holds of it. -/
theorem container_induction {P : Value → Prop} (scalar : ∀ v : Value, v.isContainer = false → P v)
    (list : ∀ items : List Value, (∀ v ∈ items, P v) → P (.list items))
    (tuple : ∀ items : List Value, (∀ v ∈ items, P v) → P (.tuple items))
    (map : ∀ entries : List (Value × Value), (∀ e ∈ entries, P e.2) → P (.map entries))
    (v : Value) : P v := by
  refine @Value.rec P (fun items => ∀ v ∈ items, P v) (fun entries => ∀ e ∈ entries, P e.2)
    (fun e => P e.2) (scalar _ rfl) (fun _ => scalar _ rfl) (fun _ => scalar _ rfl)
    (fun _ => scalar _ rfl) (fun _ => scalar _ rfl) (fun _ => scalar _ rfl)
    (fun _ => scalar _ rfl) (fun _ => scalar _ rfl) list tuple (fun _ _ => scalar _ rfl) map
    (fun _ => scalar _ rfl) ?_ ?_ ?_ ?_ ?_ v
  · exact fun _ h => nomatch h
  · exact fun _ _ hv hrest => List.forall_mem_cons.2 ⟨hv, hrest⟩
  · exact fun _ h => nomatch h
  · exact fun _ _ hv hrest => List.forall_mem_cons.2 ⟨hv, hrest⟩
  · exact fun _ _ _ hv => hv

/-! ## Scalars and where they stand -/

mutual

/-- The scalars in a value in order, each with the keys of the maps that lead to it. -/
def leaves : Value → List (List Value × Value)
  | .list items | .tuple items => leavesItems items
  | .map entries => leavesEntries entries
  | v => [([], v)]

def leavesItems : List Value → List (List Value × Value)
  | [] => []
  | v :: rest => v.leaves ++ leavesItems rest

def leavesEntries : List (Value × Value) → List (List Value × Value)
  | [] => []
  | (k, v) :: rest => v.leaves.map (fun l => (k :: l.1, l.2)) ++ leavesEntries rest

end

/-- A scalar that is neither missing nor the empty text. -/
def saysSomething (l : List Value × Value) : Bool := !l.2.isEmpty

@[simp] theorem leaves_list (items : List Value) :
    (Value.list items).leaves = items.flatMap leaves := by
  rw [leaves]
  induction items with
  | nil => rfl
  | cons v rest ih => rw [leavesItems, ih, List.flatMap_cons]

@[simp] theorem leaves_map (entries : List (Value × Value)) :
    (Value.map entries).leaves =
      entries.flatMap fun e => e.2.leaves.map fun l => (e.1 :: l.1, l.2) := by
  rw [leaves]
  induction entries with
  | nil => rfl
  | cons e rest ih => rw [leavesEntries, ih, List.flatMap_cons]

theorem leaves_scalar {v : Value} (h : v.isContainer = false) : v.leaves = [([], v)] := by
  cases v with
  | list _ | tuple _ | map _ => cases h
  | _ => rfl

/-! ## Tidy values -/

/-- Nothing in the value is missing or empty, and no container is a tuple. -/
inductive Tidy : Value → Prop
  | scalar {v : Value} (h : v.isContainer = false) (hempty : v.isEmpty = false) : Tidy v
  | list {items : List Value} (hne : items ≠ []) (h : ∀ v ∈ items, Tidy v) : Tidy (.list items)
  | map {entries : List (Value × Value)} (hne : entries ≠ []) (h : ∀ e ∈ entries, Tidy e.2) :
      Tidy (.map entries)

mutual

/-- The second value is the first one with some parts left out; its tuples have become lists. -/
inductive Trims : Value → Value → Prop
  | scalar {v : Value} (h : v.isContainer = false) : Trims v v
  | list {items kept : List Value} (h : TrimsItems items kept) : Trims (.list items) (.list kept)
  | tuple {items kept : List Value} (h : TrimsItems items kept) : Trims (.tuple items) (.list kept)
  | map {entries kept : List (Value × Value)} (h : TrimsEntries entries kept) :
      Trims (.map entries) (.map kept)

inductive TrimsItems : List Value → List Value → Prop
  | nil : TrimsItems [] []
  | drop {v : Value} {items kept : List Value} (h : TrimsItems items kept) :
      TrimsItems (v :: items) kept
  | keep {v w : Value} {items kept : List Value} (hv : Trims v w) (h : TrimsItems items kept) :
      TrimsItems (v :: items) (w :: kept)

inductive TrimsEntries : List (Value × Value) → List (Value × Value) → Prop
  | nil : TrimsEntries [] []
  | drop {e : Value × Value} {entries kept : List (Value × Value)} (h : TrimsEntries entries kept) :
      TrimsEntries (e :: entries) kept
  | keep {k v w : Value} {entries kept : List (Value × Value)} (hv : Trims v w)
      (h : TrimsEntries entries kept) : TrimsEntries ((k, v) :: entries) ((k, w) :: kept)

end

/-- What cleaning makes of a value of which something is left. -/
structure CleansTo (v w : Value) : Prop where
  tidy : w.Tidy
  leaves : w.leaves = v.leaves.filter saysSomething
  trims : Trims v w

theorem Tidy.leaves_ne_nil {v : Value} (h : v.Tidy) : v.leaves ≠ [] := by
  induction h with
  | scalar h _ =>
    rw [leaves_scalar h]
    exact List.cons_ne_nil _ _
  | @list items hne _ ih =>
    obtain ⟨v, rest, rfl⟩ := List.exists_cons_of_ne_nil hne
    intro hnil
    rw [leaves_list, List.flatMap_eq_nil_iff] at hnil
    exact ih v List.mem_cons_self (hnil v List.mem_cons_self)
  | @map entries hne _ ih =>
    obtain ⟨e, rest, rfl⟩ := List.exists_cons_of_ne_nil hne
    intro hnil
    rw [leaves_map, List.flatMap_eq_nil_iff] at hnil
    exact ih e List.mem_cons_self (List.map_eq_nil_iff.1 (hnil e List.mem_cons_self))

/-! ## What is kept -/

/-- What is kept of a value that stands in a container. -/
def kept? (v : Value) : Option Value :=
  if v.isContainer then v.clean else if v.isEmpty then none else some v

def keptField? (e : Value × Value) : Option (Value × Value) := (kept? e.2).map (e.1, ·)

theorem cleanItems_eq (items : List Value) : cleanItems items = items.filterMap kept? := by
  induction items with
  | nil => rfl
  | cons v rest ih =>
    rw [List.filterMap_cons, ← ih]
    cases v with
    | list _ | tuple _ | map _ =>
      simp only [cleanItems, kept?, isContainer, if_true]
      split <;> next h => rw [h]
    | _ =>
      simp only [cleanItems, kept?, isContainer, Bool.false_eq_true, if_false]
      split <;> rfl

theorem cleanEntries_eq (entries : List (Value × Value)) :
    cleanEntries entries = entries.filterMap keptField? := by
  induction entries with
  | nil => rfl
  | cons e rest ih =>
    obtain ⟨k, v⟩ := e
    rw [List.filterMap_cons, ← ih]
    cases v with
    | list _ | tuple _ | map _ =>
      simp only [cleanEntries, keptField?, kept?, isContainer, if_true]
      split <;> next h => rw [h]; rfl
    | _ =>
      simp only [cleanEntries, keptField?, kept?, isContainer, Bool.false_eq_true, if_false]
      split <;> rfl

theorem clean_list (items : List Value) :
    (Value.list items).clean =
      if items.filterMap kept? = [] then none else some (.list (items.filterMap kept?)) := by
  rw [clean, cleanItems_eq]
  cases items.filterMap kept? <;> rfl

theorem clean_tuple (items : List Value) :
    (Value.tuple items).clean = (Value.list items).clean := by
  rw [clean, clean]

theorem clean_map (entries : List (Value × Value)) :
    (Value.map entries).clean =
      if entries.filterMap keptField? = [] then none
      else some (.map (entries.filterMap keptField?)) := by
  rw [clean, cleanEntries_eq]
  cases entries.filterMap keptField? <;> rfl

theorem clean_eq_kept? {v : Value} (h : v.isContainer = true) : v.clean = kept? v := (if_pos h).symm

theorem clean_scalar {v : Value} (h : v.isContainer = false) : v.clean = none := by
  cases v with
  | list _ | tuple _ | map _ => cases h
  | _ => rfl

/-! ## Nothing is lost -/

/-- Nothing may be kept of a value in which nothing says anything; what is kept of any other one is
what the value `CleansTo`. -/
inductive Keeps (v : Value) : Option Value → Prop
  | nothing (h : v.leaves.filter saysSomething = []) : Keeps v none
  | rest {w : Value} (h : CleansTo v w) : Keeps v (some w)

section Items

variable {items : List Value} (h : ∀ v ∈ items, Keeps v (kept? v))

include h

theorem tidy_of_mem_keptItems {w : Value} (hw : w ∈ items.filterMap kept?) : w.Tidy := by
  obtain ⟨v, hv, hkept⟩ := List.mem_filterMap.1 hw
  have hkeeps := h v hv
  rw [hkept] at hkeeps
  cases hkeeps with
  | rest hw => exact hw.tidy

theorem leaves_keptItems :
    (items.filterMap kept?).flatMap leaves = (items.flatMap leaves).filter saysSomething := by
  induction items with
  | nil => rfl
  | cons v rest ih =>
    obtain ⟨hv, hrest⟩ := List.forall_mem_cons.1 h
    rw [List.filterMap_cons, List.flatMap_cons, List.filter_append, ← ih hrest]
    generalize kept? v = k at hv
    cases hv with
    | nothing hnone => rw [hnone, List.nil_append]
    | rest hw => rw [List.flatMap_cons, hw.leaves]

theorem trims_keptItems : TrimsItems items (items.filterMap kept?) := by
  induction items with
  | nil => exact .nil
  | cons v rest ih =>
    obtain ⟨hv, hrest⟩ := List.forall_mem_cons.1 h
    rw [List.filterMap_cons]
    generalize kept? v = k at hv
    cases hv with
    | nothing _ => exact .drop (ih hrest)
    | rest hw => exact .keep hw.trims (ih hrest)

end Items

section Entries

variable {entries : List (Value × Value)} (h : ∀ e ∈ entries, Keeps e.2 (kept? e.2))

include h

theorem tidy_of_mem_keptEntries {e : Value × Value} (he : e ∈ entries.filterMap keptField?) :
    e.2.Tidy := by
  obtain ⟨e', he', hkept⟩ := List.mem_filterMap.1 he
  obtain ⟨w, hw, rfl⟩ := Option.map_eq_some_iff.1 hkept
  have hkeeps := h e' he'
  rw [hw] at hkeeps
  cases hkeeps with
  | rest hw => exact hw.tidy

theorem leaves_keptEntries :
    (Value.map (entries.filterMap keptField?)).leaves =
      (Value.map entries).leaves.filter saysSomething := by
  rw [leaves_map, leaves_map]
  induction entries with
  | nil => rfl
  | cons e rest ih =>
    obtain ⟨hv, hrest⟩ := List.forall_mem_cons.1 h
    have hbelow : (e.2.leaves.map fun l => (e.1 :: l.1, l.2)).filter saysSomething =
        (e.2.leaves.filter saysSomething).map fun l => (e.1 :: l.1, l.2) := List.filter_map
    rw [List.filterMap_cons, List.flatMap_cons, List.filter_append, ← ih hrest, hbelow, keptField?]
    generalize kept? e.2 = k at hv
    cases hv with
    | nothing hnone => rw [hnone, List.map_nil, List.nil_append]; rfl
    | rest hw => rw [Option.map_some, List.flatMap_cons, hw.leaves]

theorem trims_keptEntries : TrimsEntries entries (entries.filterMap keptField?) := by
  induction entries with
  | nil => exact .nil
  | cons e rest ih =>
    obtain ⟨hv, hrest⟩ := List.forall_mem_cons.1 h
    rw [List.filterMap_cons, keptField?]
    generalize kept? e.2 = k at hv
    cases hv with
    | nothing _ => exact .drop (ih hrest)
    | rest hw => exact .keep hw.trims (ih hrest)

end Entries

theorem keeps_scalar {v : Value} (h : v.isContainer = false) : Keeps v (kept? v) := by
  rw [kept?, h, if_neg Bool.false_ne_true]
  cases hempty : v.isEmpty with
  | true =>
    refine .nothing ?_
    simp [leaves_scalar h, saysSomething, hempty]
  | false =>
    refine .rest ⟨.scalar h hempty, ?_, .scalar h⟩
    simp [leaves_scalar h, saysSomething, hempty]

theorem keeps_list {items : List Value} (h : ∀ v ∈ items, Keeps v (kept? v)) :
    Keeps (.list items) (Value.list items).clean := by
  have hleaves := leaves_keptItems h
  rw [clean_list]
  split
  · next hnil =>
    refine .nothing ?_
    rw [leaves_list, ← hleaves, hnil]
    rfl
  · next hne =>
    refine .rest ⟨.list hne fun w hw => tidy_of_mem_keptItems h hw, ?_, .list (trims_keptItems h)⟩
    rw [leaves_list, leaves_list, hleaves]

/-- A tuple is cleaned like the list of its items. -/
theorem Keeps.tuple {items : List Value} {k : Option Value} (h : Keeps (.list items) k) :
    Keeps (.tuple items) k := by
  cases h with
  | nothing hnone => exact .nothing hnone
  | rest hw =>
    refine .rest ⟨hw.tidy, hw.leaves, ?_⟩
    cases hw.trims with
    | scalar hscalar => cases hscalar
    | list hitems => exact .tuple hitems

theorem keeps_map {entries : List (Value × Value)} (h : ∀ e ∈ entries, Keeps e.2 (kept? e.2)) :
    Keeps (.map entries) (Value.map entries).clean := by
  have hleaves := leaves_keptEntries h
  rw [clean_map]
  split
  · next hnil =>
    refine .nothing ?_
    rw [← hleaves, hnil]
    rfl
  · next hne =>
    exact .rest ⟨.map hne fun e he => tidy_of_mem_keptEntries h he, hleaves,
      .map (trims_keptEntries h)⟩

theorem keeps_kept? (v : Value) : Keeps v (kept? v) := by
  induction v using container_induction with
  | scalar v h => exact keeps_scalar h
  | list items ih => exact keeps_list ih
  | tuple items ih =>
    have hclean : kept? (.tuple items) = (Value.list items).clean := clean_tuple items
    rw [hclean]
    exact (keeps_list ih).tuple
  | map entries ih => exact keeps_map ih

/-! ## Tidy values are left alone -/

theorem kept?_of_tidy {v : Value} (h : v.Tidy) : kept? v = some v := by
  induction h with
  | @scalar v h hempty => simp [kept?, h, hempty]
  | @list items hne _ ih =>
    have hitems : items.filterMap kept? = items := by
      rw [List.filterMap_congr ih, List.filterMap_some]
    rw [← clean_eq_kept? rfl, clean_list, hitems, if_neg hne]
  | @map entries hne _ ih =>
    have hentries : entries.filterMap keptField? = entries := by
      rw [List.filterMap_congr (g := some) fun e he => by rw [keptField?, ih e he]; rfl,
        List.filterMap_some]
    rw [← clean_eq_kept? rfl, clean_map, hentries, if_neg hne]

theorem Trims.isContainer_eq {v w : Value} (h : Trims v w) : w.isContainer = v.isContainer := by
  cases h <;> rfl

/-- **Cleaning gives the normal form of a tree.** Nothing is left of what is no container or of a
container in which nothing says anything. Otherwise a tidy container is left, with the same scalars
in the same order and below the same keys but for those that are missing or empty, and cleaning it
again changes nothing. -/
theorem clean_tidies (v : Value) :
    (v.clean = none ↔ v.isContainer = false ∨ ∀ l ∈ v.leaves, l.2.isEmpty = true) ∧
      ∀ w, v.clean = some w → w.Tidy ∧ w.leaves = v.leaves.filter saysSomething ∧ Trims v w ∧
        w.clean = some w := by
  cases hv : v.isContainer with
  | false => simp [clean_scalar hv]
  | true =>
    have hkeeps := keeps_kept? v
    rw [← clean_eq_kept? hv] at hkeeps
    have hnone : (∀ l ∈ v.leaves, l.2.isEmpty = true) ↔ v.leaves.filter saysSomething = [] := by
      simp [List.filter_eq_nil_iff, saysSomething]
    rw [hnone]
    cases hclean : v.clean with
    | none =>
      rw [hclean] at hkeeps
      cases hkeeps with
      | nothing h => simp [h]
    | some w =>
      rw [hclean] at hkeeps
      cases hkeeps with
      | rest h =>
        refine ⟨?_, fun w' hw' => ?_⟩
        · rw [← h.leaves]
          simp [h.tidy.leaves_ne_nil]
        · obtain rfl := Option.some.inj hw'
          have hcontainer : w.isContainer = true := h.trims.isContainer_eq.trans hv
          refine ⟨h.tidy, h.leaves, h.trims, ?_⟩
          rw [clean_eq_kept? hcontainer, kept?_of_tidy h.tidy]

/-- A map with missing and empty parts at several depths, and with a tuple. -/
def sparse : Value :=
  .map [
    (.str "a", .null),
    (.str "b", .map [(.str "c", .list [.str "", .tuple []])]),
    (.str "d", .tuple [.null, .map [(.int 1, .int 0)], .list [], .bool false])]

theorem clean_tidies_sparse :
    sparse.clean = some (.map [(.str "d", .list [.map [(.int 1, .int 0)], .bool false])]) ∧
      sparse.leaves.filter saysSomething =
        [([.str "d", .int 1], .int 0), ([.str "d"], .bool false)] := by
  have hclean : sparse.clean =
      some (.map [(.str "d", .list [.map [(.int 1, .int 0)], .bool false])]) := rfl
  obtain ⟨-, hleaves, -, -⟩ := (clean_tidies sparse).2 _ hclean
  exact ⟨hclean, hleaves ▸ rfl⟩

end LayoutGrammar.Value
