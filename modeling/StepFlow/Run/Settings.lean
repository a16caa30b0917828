import StepFlow.Event.Setup
import StepFlow.Layout.GapMode
import StepFlow.Store.Basic

/-!
# Settings of a run

## Main definitions

* `RejectPolicy`: what rejecting a pending step does.
* `Settings`: the settings of a run.
* `Settings.ofEnvironment`: the settings that the variables of an environment ask for.
-/

namespace StepFlow

/-- What rejecting a pending step does. -/
inductive RejectPolicy
  /-- The step stays pending. -/
  | hold
  /-- The step before it in the plan becomes pending. -/
  | stepBack
  deriving DecidableEq, Repr, Inhabited

namespace RejectPolicy

/-- The canonical text of a policy. -/
def encode : RejectPolicy → String
  | hold => "hold"
  | stepBack => "step-back"

/-- The policy of a text, or the text that was not understood. Blanks around it and the case of
ASCII letters do not matter. -/
def parse (text : String) : Except String RejectPolicy :=
  let word := Text.fold (Text.trim text)
  if word = "hold" then .ok hold
  else if ["step-back", "step_back", "back"].contains word then .ok stepBack
  else .error word

/-- The message for a text that is no policy. -/
def refusal (word : String) : String :=
  s!"unknown reject policy: {word}"

end RejectPolicy

/-- The settings of a run. -/
structure Settings where
  mode : GapMode := .default
  policy : RejectPolicy := .hold
  /-- The name under which a flow without one is run. -/
  flowName : String := untitled
  backendUrl : Option String := none
  bus : BusSetup := .outputOnly
  deriving Inhabited

namespace Settings

/-- The value that a variable asks for; none if it is not set or not understood. -/
def asked? (parse : String → Except String α) (value : Option String) : Option α :=
  value.bind fun text => (parse text).toOption

/-- The text of a variable; none if it is not set or blank. -/
def nonBlank? (value : Option String) : Option String :=
  value.filter fun text => !Text.isBlankText text

/-- The settings that the variables of an environment ask for. A value that is not understood and a
blank name or address count as not given. -/
def ofEnvironment (lookup : String → Option String) : Settings where
  mode := (asked? GapMode.parse (lookup "FLOWWEAVE_SYNTHESIS_MODE")).getD .default
  policy := (asked? RejectPolicy.parse (lookup "FLOWWEAVE_REJECT_POLICY")).getD .hold
  flowName := (nonBlank? (lookup "FLOWWEAVE_FLOW_NAME")).getD untitled
  backendUrl := nonBlank? (lookup "FLOWWEAVE_BACKEND_URL")

end Settings

end StepFlow
