import LayoutGrammar.Scene.Basic

/-!
# Scenes as plain data

The boxes of a scene as a tree, for a host that draws them.
-/

namespace LayoutGrammar

/-- A box as a map. -/
def Rect.toValue (r : Rect Float) : Value :=
  .map [(.str "x", .float r.x), (.str "y", .float r.y), (.str "width", .float r.width),
    (.str "height", .float r.height)]

/-- A child as a map; sides without constraint show as open. -/
def Child.toValue (c : Child Float) : Value :=
  let location := c.location.getD .free
  .map
    [(.str "name", .str c.name), (.str "mode", .str c.mode.name), (.str "pattern", .str c.pattern),
      (.str "bounds", c.bounds.toValue),
      (.str "location", .map (location.display.map fun e => (.str e.1.name, .str e.2))),
      (.str "fixed", .map (c.pins.toList.map fun e => (.str e.1.name, .bool e.2))),
      (.str "draggable", .bool c.draggable)]

/-- A scene as a map. -/
def Scene.toValue (s : Scene Float) : Value :=
  .map
    [(.str "pattern", .str s.pattern), (.str "cell", .float s.cell),
      (.str "parent", s.parent.toValue),
      (.str "children", .list (s.children.map Child.toValue))]

end LayoutGrammar
