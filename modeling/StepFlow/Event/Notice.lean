/-!
# Notices

What the library tells the people who use it: milestones of a run, and alerts.

## Main definitions

* `Scope`, `Level`: where a notice comes from and how serious it is.
* `Notice`: a notice without the time at which it was given.
-/

namespace StepFlow

/-- The part of the system that a notice comes from. -/
inductive Scope
  | authoring
  | composition
  | execution
  | persistence
  deriving DecidableEq, Repr, Inhabited

/-- The name of a scope. -/
def Scope.name : Scope → String
  | authoring => "authoring"
  | composition => "composition"
  | execution => "execution"
  | persistence => "persistence"

/-- How serious a notice is. -/
inductive Level
  | info
  | warning
  | error
  deriving DecidableEq, Repr, Inhabited

namespace Level

/-- The name of a level. -/
def name : Level → String
  | info => "info"
  | warning => "warning"
  | error => "error"

/-- Whether a notice of this level is shown to the author as an alert. -/
def isAlert : Level → Bool
  | info => false
  | _ => true

end Level

/-- A message for the people who use the system. -/
structure Notice where
  scope : Scope
  level : Level
  message : String
  /-- The step or node that the notice concerns. -/
  step : Option String := none
  deriving DecidableEq, Repr, Inhabited

namespace Notice

/-- A milestone that concerns a step. -/
def info (scope : Scope) (message : String) (step : String) : Notice :=
  ⟨scope, .info, message, some step⟩

/-- Something odd about a step. -/
def warning (scope : Scope) (message : String) (step : String) : Notice :=
  ⟨scope, .warning, message, some step⟩

/-- A failure, of a step or of the whole flow. -/
def error (scope : Scope) (message : String) (step : Option String) : Notice :=
  ⟨scope, .error, message, step⟩

/-- Whether the notice is an alert. -/
def isAlert (n : Notice) : Bool :=
  n.level.isAlert

/-- A notice on one line: its scope, its step and its message. -/
def display (n : Notice) : String :=
  match n.step with
  | some step => s!"[{n.scope.name}@{step}] {n.message}"
  | none => s!"[{n.scope.name}] {n.message}"

end Notice

end StepFlow
