import StepFlow.Event.Notice
import StepFlow.Time.Timestamp

/-!
# Events

## Main definitions

* `Event`: a notice and the time at which it was given.
* `Event.line`: the line that shows an event on a terminal or in a log.
-/

namespace StepFlow

/-- A notice and the time at which it was given. -/
structure Event extends Notice where
  time : Timestamp
  deriving DecidableEq, Repr, Inhabited

/-- Whether a line marks its level with terminal colours. -/
inductive LineStyle
  | plain
  | colored
  deriving DecidableEq, Repr, Inhabited

namespace Level

/-- The tag of a level, five characters wide. -/
def tag : Level → String
  | info => "INFO "
  | warning => "WARN "
  | error => "ERROR"

/-- The control sequence that switches to the colour of a level. -/
def color : Level → String
  | info => "\x1b[32m"
  | warning => "\x1b[33m"
  | error => "\x1b[31m"

/-- The control sequence that switches back to the usual colour. -/
def resetColor : String := "\x1b[0m"

/-- The tag of a level in the given style. -/
def styledTag (level : Level) : LineStyle → String
  | .plain => level.tag
  | .colored => level.color ++ level.tag ++ resetColor

end Level

namespace Event

/-- The line of an event: the time of day, the level and the notice. -/
def line (e : Event) (style : LineStyle) : String :=
  e.time.clock ++ " " ++ e.level.styledTag style ++ " " ++ e.display ++ "\n"

end Event

end StepFlow
