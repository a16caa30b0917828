import StepFlow.Event.Bus

/-!
# Setting up a bus

## Main definitions

* `SinkKind`: a sink as it is configured.
* `BusSetup`: the configured sinks.
* `BusSetup.build`: the bus with these sinks.
-/

namespace StepFlow

/-- A sink as it is configured. -/
inductive SinkKind
  | output
  | memory
  deriving DecidableEq, Repr, Inhabited

/-- The configured sinks in order. -/
structure BusSetup where
  sinks : List SinkKind
  deriving DecidableEq, Repr

namespace BusSetup

/-- Events are written only. -/
def outputOnly : BusSetup := ⟨[.output]⟩

/-- Events are written and kept. -/
def withMemory : BusSetup := ⟨[.output, .memory]⟩

instance : Inhabited BusSetup := ⟨outputOnly⟩

/-- The setup with a sink more, unless it is there already. -/
def addSink (s : BusSetup) (sink : SinkKind) : BusSetup :=
  if s.sinks.contains sink then s else ⟨s.sinks ++ [sink]⟩

/-- The name of the buffer that all configured memory sinks share. -/
def bufferName : String := "memory"

variable {γ τ : Type}

/-- Registers a configured sink. -/
def register (b : Bus γ τ) : SinkKind → Bus γ τ
  | .output => b.addSink (.output .plain)
  | .memory => b.addMemory bufferName

/-- The bus with the configured sinks. -/
def build (s : BusSetup) (terminal : τ) : Bus γ τ :=
  s.sinks.foldl register (.silent terminal)

end BusSetup

end StepFlow
