import LayoutGrammar.Extends.Cycle
import LayoutGrammar.Extends.Path

/-!
# Checking extends edges

`checkEdge` says whether a pattern may extend another one, `validate` whether all the edges of a
dictionary are in order: no pattern extends itself or repeats a target, every target exists, and
there is no cycle.
-/

namespace LayoutGrammar.Extends

open LayoutGrammar.Extends.Graph

/-- Whether `source` may come to extend `target`. -/
def checkEdge (d : Dictionary) (source target : String) : Except Error Unit :=
  let g := ofDictionary d
  if source = target then .error (.cyclicExtends source target [source, source])
  else if !d.contains target then .error (.unknownTarget source target)
  else if target ∈ g.targets source then .error (.redundantExtends source target)
  else
    match path? (g.addEdge source target) target source with
    | some back => .error (.cyclicExtends source target (source :: back))
    | none => .ok ()

/-- Whether an edge may be added; a refusal is noted. -/
def allowsEdge (d : Dictionary) (source target : String) : Logged Notice Error Bool :=
  match checkEdge d source target with
  | .ok () => pure true
  | .error cause => do
    Logged.say (.rejectedEdge cause)
    pure false

/-- Checks the targets of one pattern after those already seen. -/
def checkTargets (d : Dictionary) (id : String) (seen : List String) :
    List String → Except Error Unit
  | [] => .ok ()
  | target :: rest =>
    if target = id then .error (.cyclicExtends id target [id, id])
    else if target ∈ seen then .error (.redundantExtends id target)
    else if !d.contains target then .error (.unknownTarget id target)
    else checkTargets d id (target :: seen) rest

/-- The error that reports a cycle: it names the first edge. -/
def cycleError (cycle : List String) : Error :=
  .cyclicExtends (cycle.getD 0 "") (cycle.getD 1 "") cycle

/-- Whether all extends edges of a dictionary are in order. -/
def validate (d : Dictionary) : Except Error Unit := do
  d.entries.forM fun e => checkTargets d e.1 [] e.2.parents
  match cycle? (ofDictionary d) with
  | some cycle => .error (cycleError cycle)
  | none => .ok ()

end LayoutGrammar.Extends
