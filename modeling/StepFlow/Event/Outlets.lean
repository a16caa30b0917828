import StepFlow.Event.Event

/-!
# Channels and terminals

What a bus is given from outside: channels that take events to other tasks, and a terminal.

## Main definitions

* `Channels`: channels for events.
* `Channels.Documented`: what is promised of them.
* `Terminal`: a terminal that may fail.
* `Outlets`: channels and a terminal.
* `Channels.queues`, `Terminal.text`: queues in memory, and a terminal that shows what it is given.

## Design notes

How channels work is not known here. A channel may be anything that its two ends share, as long as
each operation does what is documented of it. The documentation of terminals promises nothing: any
line may be refused, for any reason, and part of it may have been written nevertheless.
-/

namespace StepFlow

/-- Channels for events without a limit on how many wait. `γ` is what the two ends of one share. -/
structure Channels (γ : Type) where
  /-- A channel that was just opened. -/
  opened : γ
  /-- Sends an event. Returns whether it was taken. -/
  send : Event → γ → Bool × γ
  /-- Takes the next event, if there is one. -/
  receive : γ → Option Event × γ
  /-- Drops the receiving end. -/
  close : γ → γ

/-- What is documented of channels, said in terms of the events that wait in a channel and of
whether its receiving end is there. An open channel takes every event and hands the events out in
the order in which they were sent. A channel is closed when its receiving end is dropped, and it
refuses events from then on. -/
structure Channels.Documented {γ : Type} (channels : Channels γ) (waiting : γ → List Event)
    (Open : γ → Prop) : Prop where
  open_opened : Open channels.opened
  waiting_opened : waiting channels.opened = []
  taken_send : ∀ e c, Open c → (channels.send e c).1 = true
  open_send : ∀ e c, Open (channels.send e c).2 ↔ Open c
  waiting_send : ∀ e c, Open c → waiting (channels.send e c).2 = waiting c ++ [e]
  received : ∀ c, Open c → (channels.receive c).1 = (waiting c).head?
  open_receive : ∀ c, Open c → Open (channels.receive c).2
  waiting_receive : ∀ c, Open c → waiting (channels.receive c).2 = (waiting c).tail
  closed_close : ∀ c, ¬Open (channels.close c)
  refused_send : ∀ e c, ¬Open c → (channels.send e c).1 = false

/-- A terminal. `τ` is what stands behind it. -/
structure Terminal (τ : Type) where
  /-- Hands over text. Returns why it was refused. -/
  write : String → τ → Except String Unit × τ
  /-- Has the terminal show what was handed over. -/
  flush : τ → Except String Unit × τ

/-- Writes text and has it shown. -/
def Terminal.print {τ : Type} (terminal : Terminal τ) (text : String) (state : τ) :
    Except String Unit × τ :=
  match terminal.write text state with
  | (.ok (), state) => terminal.flush state
  | refused => refused

/-- What a bus is given from outside. -/
structure Outlets (γ τ : Type) extends Channels γ, Terminal τ

/-- A queue of events. -/
structure Queue where
  events : List Event := []
  /-- Whether someone still receives from it. -/
  live : Bool := true
  deriving DecidableEq, Repr, Inhabited

/-- Channels that keep the events in memory. -/
def Channels.queues : Channels Queue where
  opened := {}
  send e q := if q.live then (true, { q with events := q.events ++ [e] }) else (false, q)
  receive q :=
    match q.events with
    | [] => (none, q)
    | e :: rest => (some e, { q with events := rest })
  close _ := { live := false }

/-- A terminal that shows all that it is given. -/
def Terminal.text : Terminal String where
  write text shown := (.ok (), shown ++ text)
  flush shown := (.ok (), shown)

/-- Queues in memory and a terminal that shows all that it is given. -/
def Outlets.inMemory : Outlets Queue String where
  toChannels := .queues
  toTerminal := .text

end StepFlow
