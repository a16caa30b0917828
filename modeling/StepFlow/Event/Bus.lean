import StepFlow.Event.Outlets
import StepFlow.Keyed

/-!
# The event bus

Events are handed to every registered sink in the order of registration. A sink that fails is
passed over.

## Main definitions

* `Sink`: where a bus delivers events.
* `Held`: what sinks hold: buffers, channels and the terminal.
* `Bus`: the registered sinks and what sinks hold.
* `Bus.handle`: has one sink take an event.
* `Bus.publish`: delivers an event.

## Design notes

Buffers are known by a name, channels by the number of channels opened before. Several sinks may
share a buffer, which then gets an event once for each of them. All sinks that write share one
terminal. Why a sink failed is told to a log only, which is left out here.
-/

namespace StepFlow

/-- Where a bus delivers events. -/
inductive Sink
  /-- Keeps events in the buffer with a name. -/
  | memory (buffer : String)
  /-- Refuses every event. -/
  | failing
  /-- Writes a line for each event. -/
  | output (style : LineStyle)
  /-- Sends events through the channel with a number. -/
  | channel (number : Nat)
  deriving DecidableEq, Repr

/-- A channel that was opened for a receiver. -/
structure Subscription (γ : Type) where
  channel : γ
  /-- Whether the receiver is still there. -/
  live : Bool := true

namespace Subscription

variable {γ : Type} (channels : Channels γ) (s : Subscription γ)

/-- A new channel and its receiver. -/
def opened : Subscription γ :=
  ⟨channels.opened, true⟩

/-- Sends an event to the receiver. Returns whether it was taken. -/
def send (e : Event) : Bool × Subscription γ :=
  let (taken, channel) := channels.send e s.channel
  (taken, { s with channel })

/-- Takes the next event, if the receiver is there and there is one. -/
def receive : Option Event × Subscription γ :=
  if s.live then
    let (event, channel) := channels.receive s.channel
    (event, { s with channel })
  else (none, s)

/-- Drops the receiver, if it is there. -/
def drop : Subscription γ :=
  if s.live then ⟨channels.close s.channel, false⟩ else s

end Subscription

/-- What sinks hold. -/
structure Held (γ τ : Type) where
  buffers : KeyMap (List Event) := .empty
  channels : List (Subscription γ) := []
  /-- What stands behind the terminal. -/
  terminal : τ

/-- The events in a buffer. -/
def Held.buffer? {γ τ : Type} (h : Held γ τ) (name : String) : Option (List Event) :=
  h.buffers.get? name

/-- The registered sinks, with what sinks hold. -/
structure Bus (γ τ : Type) extends Held γ τ where
  sinks : List Sink := []

namespace Bus

variable {γ τ : Type} (outlets : Outlets γ τ) (b : Bus γ τ)

/-- A bus that drops every event. -/
def silent (terminal : τ) : Bus γ τ :=
  { terminal }

/-- A bus that writes each event. -/
def writing (terminal : τ) : Bus γ τ :=
  { terminal, sinks := [.output .plain] }

/-- The number of registered sinks. -/
def sinkCount : Nat :=
  b.sinks.length

/-- Registers a sink. -/
def addSink (sink : Sink) : Bus γ τ :=
  { b with sinks := b.sinks ++ [sink] }

/-- Registers the buffer with a name, an empty one unless it is there. -/
def addMemory (name : String) : Bus γ τ :=
  let held := (b.buffer? name).getD []
  { b with buffers := b.buffers.insert name held }.addSink (.memory name)

/-- Opens a channel and registers it. Returns its number. -/
def subscribe : Nat × Bus γ τ :=
  let number := b.channels.length
  let channels := b.channels ++ [Subscription.opened outlets.toChannels]
  (number, { b with channels }.addSink (.channel number))

/-- Drops the receiver of a channel; its sink stays registered. -/
def unsubscribe (number : Nat) : Bus γ τ :=
  { b with channels := b.channels.modify number (·.drop outlets.toChannels) }

/-- Takes the next event from a channel. -/
def receive (number : Nat) : Option Event × Bus γ τ :=
  (b.channels[number]?.bind fun s => (s.receive outlets.toChannels).1,
    { b with channels := b.channels.modify number fun s => (s.receive outlets.toChannels).2 })

/-- Empties a buffer. -/
def clearBuffer (name : String) : Bus γ τ :=
  { b with buffers := b.buffers.insert name [] }

/-- Has a sink take an event. Returns why it did not. -/
def handle (e : Event) : Sink → Except String Unit × Bus γ τ
  | .memory name =>
    (.ok (), { b with buffers := b.buffers.insert name ((b.buffer? name).getD [] ++ [e]) })
  | .failing => (.error "sink offline", b)
  | .output style =>
    let (result, terminal) := outlets.print (e.line style) b.terminal
    (result, { b with terminal })
  | .channel number =>
    let taken := b.channels[number]?.any fun s => (s.send outlets.toChannels e).1
    (if taken then .ok () else .error "channel receiver dropped",
      { b with channels := b.channels.modify number fun s => (s.send outlets.toChannels e).2 })

/-- Delivers an event to one sink, whether it takes it or not. -/
def deliver (e : Event) (b : Bus γ τ) (sink : Sink) : Bus γ τ :=
  (b.handle outlets e sink).2

/-- Delivers an event to every sink. -/
def publish (e : Event) : Bus γ τ :=
  b.sinks.foldl (deliver outlets e) b

/-- Delivers several events one after the other. -/
def publishAll (events : List Event) : Bus γ τ :=
  events.foldl (fun b e => b.publish outlets e) b

end Bus

/-- The events that are alerts. -/
def alerts (events : List Event) : List Event :=
  events.filter fun e => e.isAlert

/-- The events of one level. -/
def atLevel (events : List Event) (level : Level) : List Event :=
  events.filter fun e => e.level = level

end StepFlow
