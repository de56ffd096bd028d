import LayoutGrammar.Main
import LayoutGrammar.Pattern.Data
import LayoutGrammar.Pattern.Edit
import LayoutGrammar.Scene.Session
import LayoutGrammar.Tree.Json.Line
import LayoutGrammar.Tree.Tagged
import LayoutGrammar.Proofs.Constraint.Location
import LayoutGrammar.Proofs.Extract.Reading
import LayoutGrammar.Proofs.Extract.Walk
import LayoutGrammar.Proofs.Extract.RoundTrip
import LayoutGrammar.Proofs.Tree.Alike
import LayoutGrammar.Proofs.Extract.Origin
import LayoutGrammar.Proofs.Extract.Idempotence
import LayoutGrammar.Proofs.Extends.Graph
import LayoutGrammar.Proofs.Extends.Search
import LayoutGrammar.Proofs.Extends.Cycle
import LayoutGrammar.Proofs.Extends.Check
import LayoutGrammar.Proofs.Extends.Verdict
import LayoutGrammar.Proofs.Extends.Nearest
import LayoutGrammar.Proofs.Edit.Outcome
import LayoutGrammar.Proofs.Edit.Ancestry
import LayoutGrammar.Proofs.Edit.Validity
import LayoutGrammar.Proofs.Edit.Substituted
import LayoutGrammar.Proofs.Edit.Undone
import LayoutGrammar.Proofs.Edit.Generated
import LayoutGrammar.Proofs.Extract.Steps
import LayoutGrammar.Proofs.Extract.Offences
import LayoutGrammar.Proofs.Extract.Components
import LayoutGrammar.Proofs.Extract.Flatten
import LayoutGrammar.Proofs.Geometry.Rect
import LayoutGrammar.Proofs.Geometry.Double
import LayoutGrammar.Proofs.Scene.Drag
import LayoutGrammar.Proofs.Scene.Legal
import LayoutGrammar.Proofs.Layout.Axis
import LayoutGrammar.Proofs.Layout.Measured
import LayoutGrammar.Proofs.Layout.Cell
import LayoutGrammar.Proofs.Scene.Build
import LayoutGrammar.Proofs.Scene.Computed
import LayoutGrammar.Proofs.Scene.Session
import LayoutGrammar.Proofs.Scene.Restored
import LayoutGrammar.Proofs.Scene.Pinned
import LayoutGrammar.Proofs.Scene.Removed
import LayoutGrammar.Proofs.Scene.Renamed
import LayoutGrammar.Proofs.Scene.Fitted
import LayoutGrammar.Proofs.Constraint.RawOffset
import LayoutGrammar.Proofs.Constraint.Precedence
import LayoutGrammar.Proofs.Constraint.Shorthand
import LayoutGrammar.Proofs.Layout.Reentered
import LayoutGrammar.Proofs.Layout.Inside
import LayoutGrammar.Proofs.Layout.Beside
import LayoutGrammar.Proofs.Layout.Symmetry
import LayoutGrammar.Proofs.Tree.Tidy
import LayoutGrammar.Proofs.Extract.IndexOrder
import LayoutGrammar.Proofs.Edit.Structural
import LayoutGrammar.Proofs.Extract.Items
import LayoutGrammar.Proofs.Geometry.PushOut
import LayoutGrammar.Proofs.Scene.Fallback
import LayoutGrammar.Proofs.Layout.GreatestCell
import LayoutGrammar.Proofs.Layout.Positions
import LayoutGrammar.Proofs.Layout.Spread
import LayoutGrammar.Proofs.Layout.FreeAxis
import LayoutGrammar.Proofs.Extends.Predecessors
import LayoutGrammar.Proofs.Extends.Frames
