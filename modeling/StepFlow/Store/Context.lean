import StepFlow.Json.Value

/-!
# Results of a run

## Main definitions

* `Context`: the results of the steps of a run, in the order in which steps were first recorded.
* `Context.record`: the context with a result more.
* `Context.Command`: an operation that changes the results.
* `Context.performAll`: the context after operations carried out one after the other.
-/

namespace StepFlow

open Json (Value)

/-- The result that was reported for a step. -/
structure StepResult where
  step : String
  result : Value
  deriving Inhabited

/-- The results of the steps of a run. -/
structure Context where
  entries : List StepResult := []
  deriving Inhabited

namespace Context

/-- Sets the result of a step: in place at its first entry, else at the end. -/
def recordIn (step : String) (result : Value) : List StepResult → List StepResult
  | [] => [⟨step, result⟩]
  | entry :: rest =>
    if entry.step = step then ⟨step, result⟩ :: rest else entry :: recordIn step result rest

/-- The context with the result of a step. -/
def record (c : Context) (step : String) (result : Value) : Context :=
  ⟨recordIn step result c.entries⟩

/-- The result of a step. -/
def get? (c : Context) (step : String) : Option Value :=
  (c.entries.find? fun entry => entry.step = step).map (·.result)

theorem find?_recordIn (step other : String) (result : Value) (entries : List StepResult) :
    (recordIn step result entries).find? (fun entry => entry.step = other) =
      if step = other then some ⟨step, result⟩
      else entries.find? fun entry => entry.step = other := by
  induction entries with
  | nil => by_cases h : step = other <;> simp [recordIn, h]
  | cons entry rest ih =>
    by_cases hentry : entry.step = step
    · by_cases h : step = other <;> simp [recordIn, hentry, h]
    · simp only [recordIn, if_neg hentry, List.find?_cons]
      by_cases hother : entry.step = other
      · subst hother
        simp [Ne.symm hentry]
      · simp only [hother, decide_false, ih]

/-- Recording a result changes what is found for its step and for no other. -/
theorem get?_record (c : Context) (step other : String) (result : Value) :
    (c.record step result).get? other = if step = other then some result else c.get? other := by
  simp only [get?, record, find?_recordIn]
  split <;> rfl

/-- The last entry. -/
def latest? (c : Context) : Option StepResult :=
  c.entries.getLast?

/-- The recorded steps in order. -/
def steps (c : Context) : List String :=
  c.entries.map (·.step)

/-- The number of entries. -/
def length (c : Context) : Nat :=
  c.entries.length

/-- Whether nothing is recorded. -/
def isEmpty (c : Context) : Bool :=
  c.entries.isEmpty

/-- An operation that changes the results. -/
inductive Command
  | record (step : String) (result : Value)
  /-- Forgets everything. -/
  | clear

/-- Carries out an operation. -/
def perform (c : Context) : Command → Context
  | .record step result => c.record step result
  | .clear => {}

/-- The context after a list of operations. -/
def performAll (c : Context) (commands : List Command) : Context :=
  commands.foldl perform c

end Context

end StepFlow
