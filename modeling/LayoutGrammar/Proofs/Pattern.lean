import LayoutGrammar.Pattern.Basic

/-!
# Patterns with changed components

What `Pattern.mapComponents` does: components are changed at one placement and nowhere else, and
changes after each other are one change.
-/

namespace LayoutGrammar

namespace Pattern

theorem components_mapComponents (p : Pattern) (q placement : Placement)
    (f : Table String Component → Table String Component) :
    (p.mapComponents q f).components placement =
      if q = placement then f <$> p.components placement else p.components placement := by
  by_cases h : q = placement
  · subst h
    rw [if_pos rfl]
    cases q <;> rfl
  · rw [if_neg h]
    cases q <;> cases placement <;> first | rfl | exact absurd rfl h

theorem components_mapComponents_self {p : Pattern} {placement : Placement}
    {cs : Table String Component} (hcs : p.components placement = .ok cs)
    (f : Table String Component → Table String Component) :
    (p.mapComponents placement f).components placement = .ok (f cs) := by
  rw [components_mapComponents, if_pos rfl, hcs]
  rfl

theorem mapComponents_mapComponents (p : Pattern) (placement : Placement)
    (f g : Table String Component → Table String Component) :
    (p.mapComponents placement f).mapComponents placement g =
      p.mapComponents placement fun cs => g (f cs) := by
  cases placement <;> rfl

theorem mapComponents_of_eq {p : Pattern} {placement : Placement} {cs : Table String Component}
    {f : Table String Component → Table String Component} (hcs : p.components placement = .ok cs)
    (h : f cs = cs) : p.mapComponents placement f = p := by
  cases placement with
  | inner =>
    obtain rfl := Except.ok.inj hcs
    rw [mapComponents, h]
  | outer =>
    obtain rfl := Except.ok.inj hcs
    rw [mapComponents, h]
  | other s => rfl

theorem properties_mapComponents (p : Pattern) (placement : Placement)
    (f : Table String Component → Table String Component) :
    (p.mapComponents placement f).properties = p.properties := by
  cases placement <;> rfl

theorem parents_mapComponents (p : Pattern) (placement : Placement)
    (f : Table String Component → Table String Component) :
    (p.mapComponents placement f).parents = p.parents := by
  cases placement <;> rfl

end Pattern

end LayoutGrammar
