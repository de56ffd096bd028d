import LayoutGrammar.Proofs.Constraint.OffsetText
import LayoutGrammar.Proofs.Edit.Outcome
import LayoutGrammar.Proofs.Extends.Check
import LayoutGrammar.Proofs.Pattern

/-!
# Edits taken back by their counterparts

Creating is taken back by removing, adding a component or a parent by removing it, and setting a
side by setting it to the token of the offset it had. What is added is new where it is added, so
removing it hits nothing else (`erase_insert_of_new`); and an edit that writes one pattern is taken
back by writing the pattern that was there (`insert_mapComponents_back`). Setting a side is taken
back because a written offset reads back as itself. `edits_undone` is the summary.
-/

namespace LayoutGrammar

open Logged

namespace Sides

variable {α : Type}

theorem set_set (s : Sides α) (side : Side) (a b : α) :
    (s.set side a).set side b = s.set side b := by
  cases side <;> rfl

theorem set_get (s : Sides α) (side : Side) : s.set side (s.get side) = s := by
  cases side <;> rfl

end Sides

/-! ## Setting a side -/

namespace Offset

/-- The text of an offset begins with a digit. -/
theorem isBlankText_text {o : Offset} (h : o.WellFormed) : Text.isBlankText o.text = false := by
  obtain ⟨n, hn⟩ := Int.eq_ofNat_of_zero_le h.1
  have hlead : ∃ tail, o.text.toList = Text.natText n ++ tail := by
    unfold text
    split
    · exact ⟨['+'], by simp [hn, Text.toList_intString]⟩
    · next m _ =>
      split
      · exact ⟨[], by simp [hn, Text.toList_intString]⟩
      · exact ⟨"..".toList ++ (Text.intString m).toList, by simp [hn, Text.toList_intString]⟩
  obtain ⟨tail, htail⟩ := hlead
  obtain ⟨c, rest, hc⟩ := List.exists_cons_of_ne_nil (Text.natText_ne_nil n)
  have hdigit : Text.isBlank c = false := by
    refine Text.isBlank_of_isDigit (Text.isDigit_of_mem_natText (n := n) ?_)
    rw [hc]
    exact List.mem_cons_self
  rw [Text.isBlankText, htail, hc, List.cons_append, List.all_cons, hdigit, Bool.false_and]

end Offset

namespace Location

variable {l l' : Location} {key : String} {side : Side}

/-- Whatever the token is, one side is set. -/
theorem exists_set_of_setToken {token : Option String} {strict : Bool}
    (hkey : (readSideKey? key).map (·.2) = some side)
    (h : (l.setToken key token strict).result = .ok l') : ∃ o, l' = l.set side o := by
  obtain ⟨⟨spelling, _⟩, hnamed, rfl⟩ := Option.map_eq_some_iff.1 hkey
  unfold setToken at h
  rw [hnamed] at h
  dsimp only at h
  split at h
  · exact ⟨none, (Except.ok.inj h).symm⟩
  · split at h
    · exact ⟨none, (Except.ok.inj h).symm⟩
    · rw [result_bind] at h
      obtain ⟨o, -, h⟩ := except_bind_ok.1 h
      exact ⟨some o, (Except.ok.inj h).symm⟩

/-- The token of an offset gives a side that offset. -/
theorem result_setToken_of_wellFormed {o : Offset}
    (hkey : (readSideKey? key).map (·.2) = some side) (ho : o.WellFormed) (strict : Bool) :
    (l.setToken key (some o.text) strict).result = .ok (l.set side (some o)) := by
  have hvalue : Offset.ofValue? (.str o.text) = some o := Offset.ofToken?_strip_text ho
  obtain ⟨⟨spelling, _⟩, hnamed, rfl⟩ := Option.map_eq_some_iff.1 hkey
  rw [setToken, hnamed]
  dsimp only
  rw [if_neg (by simp [Offset.isBlankText_text ho]), result_bind, Offset.read, hvalue]
  rfl

/-- The token of an offset, or the empty one, gives a side that offset, or none. -/
theorem setToken_text {o : Option Offset} (hkey : (readSideKey? key).map (·.2) = some side)
    (ho : ∀ o' ∈ o, o'.WellFormed) :
    (l.setToken key (some (o.elim "" Offset.text)) true).result = .ok (l.set side o) := by
  cases o with
  | none =>
    obtain ⟨⟨spelling, _⟩, hnamed, rfl⟩ := Option.map_eq_some_iff.1 hkey
    rw [setToken, hnamed]
    rfl
  | some o => exact result_setToken_of_wellFormed hkey (ho o rfl) true

end Location

namespace Dictionary

variable {d d' : Dictionary}

/-! ## One counterpart after the other -/

theorem remove_of_create {id : Option Value} {kind : Value} {new : String}
    (h : (d.create id kind).result = .ok (d', new)) : (d'.remove new).result = .ok d := by
  obtain ⟨-, hnew, rfl⟩ := result_create_iff.1 h
  refine result_remove_iff.2 ⟨?_, ?_⟩
  · rw [Table.contains_insert, beq_self_eq_true, Bool.true_or]
  · exact (Table.erase_insert_of_new hnew _).symm

/-- A pattern whose components are changed and changed back is written as it was. -/
theorem insert_mapComponents_back {id : String} {p : Pattern} {placement : Placement}
    {cs : Table String Component} {f g : Table String Component → Table String Component}
    (hp : d.get? id = some p) (hcs : p.components placement = .ok cs) (hback : g (f cs) = cs) :
    (d.insert id (p.mapComponents placement f)).insert id
      ((p.mapComponents placement f).mapComponents placement g) = d := by
  rw [Table.insert_insert, Pattern.mapComponents_mapComponents,
    Pattern.mapComponents_of_eq hcs hback, Table.insert_of_get? hp]

theorem removeComponent_of_addComponent {owner name : String} {placement : Placement}
    {pattern : Option String} {location : Location}
    (h : (d.addComponent owner placement name pattern location).result = .ok d') :
    (d'.removeComponent owner placement name).result = .ok d := by
  obtain ⟨-, p, cs, hp, hcs, hnew, rfl⟩ := result_addComponent_iff.1 h
  refine result_removeComponent_iff.2 ⟨_, _, Table.get?_insert_self d owner _,
    Pattern.components_mapComponents_self hcs _, ?_, ?_⟩
  · rw [Table.contains_insert, beq_self_eq_true, Bool.true_or]
  · refine (insert_mapComponents_back hp hcs ?_).symm
    exact Table.erase_insert_of_new hnew _

theorem removeParent_of_addParent {id target : String}
    (h : (d.addParent id target).result = .ok d') : (d'.removeParent id target).result = .ok d := by
  obtain ⟨hedge, p, hp, rfl⟩ := result_addParent_iff.1 h
  obtain ⟨-, -, hnew, -⟩ := Extends.checkEdge_eq_ok_iff.1 hedge
  rw [Extends.targets_ofDictionary hp] at hnew
  -- the first parent of that name is the one at the end, since it was new
  have hback : (p.parents ++ [target]).erase target = p.parents := by
    rw [List.erase_append_right _ hnew, List.erase_cons_head, List.append_nil]
  refine result_removeParent_iff.2 ⟨_, Table.get?_insert_self d id _, ?_⟩
  rw [Table.insert_insert]
  simp only [hback]
  exact (Table.insert_of_get? hp).symm

/-- The component of a name, where it stands in the dictionary. -/
def HasComponent (d : Dictionary) (owner : String) (placement : Placement) (name : String)
    (c : Component) : Prop :=
  ∃ p cs, d.get? owner = some p ∧ p.components placement = .ok cs ∧ cs.get? name = some c

theorem setSide_of_setSide {owner name key key' : String} {placement : Placement}
    {token : Option String} {c : Component} {side : Side}
    (hc : d.HasComponent owner placement name c)
    (hformed : ∀ o ∈ c.location.get side, o.WellFormed)
    (hkey : (readSideKey? key).map (·.2) = some side)
    (hkey' : (readSideKey? key').map (·.2) = some side)
    (h : (d.setSide owner placement name key token).result = .ok d') :
    (d'.setSide owner placement name key'
      (some ((c.location.get side).elim "" Offset.text))).result = .ok d := by
  obtain ⟨p, cs, hp, hcs, hc⟩ := hc
  obtain ⟨p₁, cs₁, c₁, location, hp₁, hcs₁, hc₁, hlocation, rfl⟩ := result_setSide_iff.1 h
  -- the edit has looked up the component that is there
  obtain rfl := Option.some.inj (hp.symm.trans hp₁)
  obtain rfl := Except.ok.inj (hcs.symm.trans hcs₁)
  obtain rfl := Option.some.inj (hc.symm.trans hc₁)
  obtain ⟨o, rfl⟩ := Location.exists_set_of_setToken hkey hlocation
  let moved : Component := { c with location := c.location.set side o }
  have htoken : (moved.location.setToken key'
      (some ((c.location.get side).elim "" Offset.text)) true).result = .ok c.location := by
    rw [Location.setToken_text hkey' hformed, Sides.set_set, Sides.set_get]
  refine result_setSide_iff.2 ⟨_, _, moved, c.location, Table.get?_insert_self d owner _,
    Pattern.components_mapComponents_self hcs _, Table.get?_insert_self cs name moved, htoken, ?_⟩
  refine (insert_mapComponents_back hp hcs ?_).symm
  rw [Table.insert_insert]
  exact Table.insert_of_get? hc

/-- **Every constructive edit is undone by its counterpart.** Removing what was created, removing a
component or a parent that was added, and setting a side, in any spelling, to the token of the
offset it had give the dictionary that was there before, with everything in its order. -/
theorem edits_undone (d : Dictionary) :
    (∀ id kind d' new, (d.create id kind).result = .ok (d', new) →
      (d'.remove new).result = .ok d) ∧
    (∀ owner placement name pattern location d',
      (d.addComponent owner placement name pattern location).result = .ok d' →
        (d'.removeComponent owner placement name).result = .ok d) ∧
    (∀ id target d', (d.addParent id target).result = .ok d' →
      (d'.removeParent id target).result = .ok d) ∧
    ∀ owner placement name c side, d.HasComponent owner placement name c →
      (∀ o ∈ c.location.get side, o.WellFormed) →
        ∀ key key' token d', (readSideKey? key).map (·.2) = some side →
          (readSideKey? key').map (·.2) = some side →
            (d.setSide owner placement name key token).result = .ok d' →
              (d'.setSide owner placement name key'
                (some ((c.location.get side).elim "" Offset.text))).result = .ok d := by
  refine ⟨?_, ?_, ?_, ?_⟩
  · intro id kind d' new h
    exact remove_of_create h
  · intro owner placement name pattern location d' h
    exact removeComponent_of_addComponent h
  · intro id target d' h
    exact removeParent_of_addParent h
  · intro owner placement name c side hc hformed key key' token d' hkey hkey' h
    exact setSide_of_setSide hc hformed hkey hkey' h

/-- A pattern with a label that keeps a distance from its left side. -/
def shelf : Dictionary := .ofList
  [("shelf", { Pattern.blank with
      outer := .ofList [("label", ⟨"text", { Location.free with left := some ⟨1, some 3⟩ }⟩)] }),
    ("text", .blank)]

theorem edits_undone_shelf :
    (∃ d', (shelf.create (some (.str " board ")) .null).result = .ok (d', "board") ∧
      (d'.remove "board").result = .ok shelf) ∧
    (∃ d', (shelf.addComponent "shelf" .inner "text" none .free).result = .ok d' ∧
      (d'.removeComponent "shelf" .inner "text").result = .ok shelf) ∧
    (∃ d', (shelf.addParent "shelf" "text").result = .ok d' ∧
      (d'.removeParent "shelf" "text").result = .ok shelf) ∧
    ∃ d', (shelf.setSide "shelf" .outer "label" "Padding-Left " (some "2 +")).result = .ok d' ∧
      (d'.setSide "shelf" .outer "label" "left" (some (Offset.text ⟨1, some 3⟩))).result =
        .ok shelf := by
  obtain ⟨hcreate, hcomponent, hparent, hside⟩ := edits_undone shelf
  have hedge : Extends.checkEdge shelf "shelf" "text" = .ok () := by
    refine Extends.checkEdge_eq_ok_iff.2 ⟨by decide, by decide, by decide, ?_⟩
    intro hreach
    rcases Relation.ReflTransGen.cases_head hreach with heq | ⟨target, hstep, -⟩
    · exact absurd heq (by decide)
    · cases hstep
  have hadded := result_addParent_iff.2 ⟨hedge, _, rfl, rfl⟩
  refine ⟨?_, ?_, ?_, ?_⟩
  · exact ⟨_, rfl, hcreate (some (.str " board ")) .null _ _ rfl⟩
  · exact ⟨_, rfl, hcomponent "shelf" .inner "text" none .free _ rfl⟩
  · exact ⟨_, hadded, hparent "shelf" "text" _ hadded⟩
  · refine ⟨_, rfl, hside "shelf" .outer "label" _ .left ⟨_, _, rfl, rfl, rfl⟩ ?_
      "Padding-Left " "left" (some "2 +") _ ?_ ?_ rfl⟩
    · decide
    · decide
    · decide

end Dictionary

end LayoutGrammar
