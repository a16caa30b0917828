import StepFlow.Event.Bus

/-!
# Commands to a bus

## Main definitions

* `Bus.Command`: an operation on a bus, or on what its sinks hold.
* `Bus.perform`: carries out a command.
* `Bus.performAll`: the bus after commands carried out one after the other.
* `Bus.received`: the events received from a channel on the way.

## Design notes

The clones of a sink share its buffer, and a buffer is known by its name. So a command about a
buffer is the same whichever clone it comes from. A bus that starts with sinks is one to which they
were added.
-/

namespace StepFlow.Bus

/-- An operation on a bus, or on what its sinks hold. -/
inductive Command
  | addMemory (buffer : String)
  | addFailing
  | addOutput (style : LineStyle)
  | subscribe
  | unsubscribe (number : Nat)
  | receive (number : Nat)
  | clear (buffer : String)
  | publish (e : Event)
  deriving DecidableEq, Repr

variable {γ τ : Type} (outlets : Outlets γ τ)

/-- Carries out a command. Returns the event that was received. -/
def perform (b : Bus γ τ) : Command → Option Event × Bus γ τ
  | .addMemory buffer => (none, b.addMemory buffer)
  | .addFailing => (none, b.addSink .failing)
  | .addOutput style => (none, b.addSink (.output style))
  | .subscribe => (none, (b.subscribe outlets).2)
  | .unsubscribe number => (none, b.unsubscribe outlets number)
  | .receive number => b.receive outlets number
  | .clear buffer => (none, b.clearBuffer buffer)
  | .publish e => (none, b.publish outlets e)

/-- The bus after a list of commands. -/
def performAll (b : Bus γ τ) (commands : List Command) : Bus γ τ :=
  commands.foldl (fun b c => (b.perform outlets c).2) b

/-- What a command receives from a channel. -/
def taken (number : Nat) (b : Bus γ τ) (c : Command) : List Event :=
  if c = .receive number then (b.perform outlets c).1.toList else []

/-- The events that a list of commands receives from a channel. -/
def received (number : Nat) : Bus γ τ → List Command → List Event
  | _, [] => []
  | b, c :: commands =>
    taken outlets number b c ++ received number (b.perform outlets c).2 commands

end StepFlow.Bus
