/-!
# Diagnostics

## Main definitions

* `Diagnostic`: how an error is reported: a code, a message, advice, and the messages of what caused
  it.
-/

namespace StepFlow

/-- How an error is reported. -/
structure Diagnostic where
  /-- A code that stays the same when the wording changes. -/
  code : String
  message : String
  /-- Advice on what to do about it. -/
  help : Option String := none
  /-- The messages of the causes, outermost first. -/
  causes : List String := []
  deriving DecidableEq, Repr

namespace Diagnostic

/-- The message followed by those of the causes. -/
def chain (d : Diagnostic) : String :=
  ": ".intercalate (d.message :: d.causes)

/-- An error with the given code and message that `inner` has caused. -/
def causedBy (code message : String) (inner : Diagnostic) : Diagnostic where
  code := code
  message := message
  causes := inner.message :: inner.causes

end Diagnostic

end StepFlow
