import StepFlow.Text.Blank

/-!
# Where edges are inferred

## Main definitions

* `GapMode`: which nodes get an edge to the next node of the layout.
* `GapMode.encode`, `GapMode.parse`: its text.
-/

namespace StepFlow

/-- Which nodes get an edge to the next node of the layout. The modes differ where several edges
meet: a node that is a target but has no edge of its own is linked only by `missingOutgoing`. -/
inductive GapMode
  /-- The nodes that no edge points at. -/
  | untargetedOnly
  /-- The nodes that no edge leaves. -/
  | missingOutgoing
  deriving DecidableEq, Repr, Inhabited

namespace GapMode

/-- The mode that is used where none is chosen. -/
def default : GapMode := untargetedOnly

/-- The canonical text of a mode. -/
def encode : GapMode → String
  | untargetedOnly => "untargeted"
  | missingOutgoing => "missing-outgoing"

/-- The mode of a text, or the text that was not understood. Blanks around it and the case of
ASCII letters do not matter. -/
def parse (text : String) : Except String GapMode :=
  let word := Text.fold (Text.trim text)
  if ["untargeted", "untargeted-only", "untargeted_only"].contains word then .ok untargetedOnly
  else if ["missing-outgoing", "missing_outgoing", "outgoing"].contains word then
    .ok missingOutgoing
  else .error word

/-- The message for a text that is no mode. -/
def refusal (word : String) : String :=
  s!"unknown synthesis mode: {word}"

end GapMode

end StepFlow
