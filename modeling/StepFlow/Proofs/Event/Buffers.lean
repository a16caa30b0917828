import Mathlib.Data.List.Induction
import StepFlow.Event.Command

/-!
# What buffers hold

Publishing hands the event to one sink after the other. A sink that writes to a buffer appends the
event there, and no other sink touches the buffer. So a buffer gets each event once for every time
that it was registered before, and keeps it until it is cleared.

## Main definitions

* `Publication`: a moment of a session at which an event is published.
* `Bus.kept`: what a buffer has to hold after a session.

## Main statements

* `Bus.sinks_perform`: what a command registers.
* `Bus.events_publish`: what publishing does to a buffer.
* `Bus.events_performAll`: a buffer holds what it has to.
-/

namespace StepFlow

/-- The events in a buffer; none if there is no such buffer. -/
def Held.events {γ τ : Type} (h : Held γ τ) (name : String) : List Event :=
  (h.buffer? name).getD []

namespace Bus

/-! ### Registered sinks -/

/-- The sink that a command registers, if so many channels were opened before. -/
def Command.sink? (opened : Nat) : Command → Option Sink
  | .addMemory buffer => some (.memory buffer)
  | .addFailing => some .failing
  | .addOutput style => some (.output style)
  | .subscribe => some (.channel opened)
  | _ => none

/-- The event that a command publishes. -/
def Command.event? : Command → Option Event
  | .publish e => some e
  | _ => none

section

variable {γ τ : Type} {outlets : Outlets γ τ} {b : Bus γ τ}

/-- An event that is delivered changes no registration, whether it is taken or not. -/
theorem sinks_deliver (e : Event) (b : Bus γ τ) (sink : Sink) :
    (deliver outlets e b sink).sinks = b.sinks := by
  cases sink <;> rfl

theorem length_channels_deliver (e : Event) (b : Bus γ τ) (sink : Sink) :
    (deliver outlets e b sink).channels.length = b.channels.length := by
  cases sink with
  | channel number => exact List.length_modify ..
  | memory | failing | output => rfl

/-- What no delivery changes stays as it is when an event is published. -/
theorem publish_induction {P : Bus γ τ → Prop} (e : Event)
    (h : ∀ b sink, P b → P (deliver outlets e b sink)) (hb : P b) : P (b.publish outlets e) := by
  unfold publish
  induction b.sinks generalizing b with
  | nil => exact hb
  | cons sink sinks ih => exact ih (h b sink hb)

theorem sinks_publish (b : Bus γ τ) (e : Event) : (b.publish outlets e).sinks = b.sinks :=
  publish_induction (P := fun b' => b'.sinks = b.sinks) e
    (fun b sink h => (sinks_deliver e b sink).trans h) rfl

theorem length_channels_publish (b : Bus γ τ) (e : Event) :
    (b.publish outlets e).channels.length = b.channels.length :=
  publish_induction (P := fun b' => b'.channels.length = b.channels.length) e
    (fun b sink h => (length_channels_deliver e b sink).trans h) rfl

/-- A command registers its sink behind those that are there. -/
theorem sinks_perform (b : Bus γ τ) (c : Command) :
    (b.perform outlets c).2.sinks = b.sinks ++ (c.sink? b.channels.length).toList := by
  cases c with
  | addMemory | addFailing | addOutput | subscribe => rfl
  | unsubscribe | receive | clear => exact (List.append_nil _).symm
  | publish e => exact (b.sinks_publish e).trans (List.append_nil _).symm

theorem length_channels_perform (b : Bus γ τ) (c : Command) :
    (b.perform outlets c).2.channels.length =
      if c = .subscribe then b.channels.length + 1 else b.channels.length := by
  cases c with
  | addMemory | addFailing | addOutput | clear => rfl
  | subscribe => exact List.length_append
  | unsubscribe | receive => exact List.length_modify ..
  | publish e => exact b.length_channels_publish e

/-- Channels that are opened and channels that are still to be opened. -/
theorem length_add_count_subscribe (outlets : Outlets γ τ) (b : Bus γ τ) (c : Command)
    (commands : List Command) :
    (b.perform outlets c).2.channels.length + commands.count .subscribe =
      b.channels.length + (c :: commands).count .subscribe := by
  rw [length_channels_perform]
  by_cases h : c = .subscribe
  · rw [if_pos h, h, List.count_cons_self]
    omega
  · rw [if_neg h, List.count_cons_of_ne h]

theorem performAll_cons (b : Bus γ τ) (c : Command) (commands : List Command) :
    b.performAll outlets (c :: commands) = (b.perform outlets c).2.performAll outlets commands :=
  rfl

theorem performAll_append (b : Bus γ τ) (commands later : List Command) :
    b.performAll outlets (commands ++ later) =
      (b.performAll outlets commands).performAll outlets later :=
  List.foldl_append

theorem length_channels_performAll (b : Bus γ τ) (commands : List Command) :
    (b.performAll outlets commands).channels.length =
      b.channels.length + commands.count .subscribe := by
  induction commands generalizing b with
  | nil => rfl
  | cons c commands ih => rw [performAll_cons, ih, length_add_count_subscribe]

/-- A buffer is registered as often as there were commands to do so. -/
theorem count_memory_performAll (b : Bus γ τ) (commands : List Command) (name : String) :
    (b.performAll outlets commands).sinks.count (.memory name) =
      b.sinks.count (.memory name) + commands.count (.addMemory name) := by
  induction commands generalizing b with
  | nil => rfl
  | cons c commands ih =>
    have hc : (c.sink? b.channels.length).toList.count (.memory name) =
        [c].count (.addMemory name) := by
      cases c <;> simp [Command.sink?, List.count_singleton]
    rw [performAll_cons, ih, sinks_perform, List.count_append, hc, Nat.add_assoc,
      ← List.count_append, List.singleton_append]

/-! ### Buffers -/

theorem events_deliver (e : Event) (b : Bus γ τ) (sink : Sink) (name : String) :
    (deliver outlets e b sink).events name =
      b.events name ++ if sink = .memory name then [e] else [] := by
  cases sink with
  | memory other =>
    show ((b.buffers.insert other (b.events other ++ [e])).get? name).getD [] = _
    rw [KeyMap.get?_insert]
    by_cases h : name = other
    · simp [h]
    · simp [h, Ne.symm h, Held.events, Held.buffer?]
  | failing | output | channel => exact (List.append_nil _).symm

/-- Each time that a buffer is registered it gets the event once. -/
theorem events_publish (b : Bus γ τ) (e : Event) (name : String) :
    (b.publish outlets e).events name =
      b.events name ++ List.replicate (b.sinks.count (.memory name)) e := by
  unfold publish
  induction b.sinks generalizing b with
  | nil => simp
  | cons sink sinks ih =>
    rw [List.foldl_cons, ih, events_deliver, List.append_assoc, List.count_cons]
    by_cases h : sink = .memory name
    · simp [h, List.replicate_succ]
    · simp [h]

theorem events_perform (b : Bus γ τ) (c : Command) (name : String) :
    (b.perform outlets c).2.events name =
      if c = .clear name then [] else b.events name ++
        c.event?.toList.flatMap fun e => List.replicate (b.sinks.count (.memory name)) e := by
  cases c with
  | publish e => simp [perform, events_publish, Command.event?]
  | addMemory other =>
    show ((b.buffers.insert other (b.events other)).get? name).getD [] = _
    rw [KeyMap.get?_insert]
    by_cases h : name = other <;> simp [h, Held.events, Held.buffer?, Command.event?]
  | clear other =>
    show ((b.buffers.insert other []).get? name).getD [] = _
    rw [KeyMap.get?_insert]
    by_cases h : name = other
    · simp [h]
    · simp [h, Ne.symm h, Held.events, Held.buffer?, Command.event?]
  | addFailing | addOutput | subscribe | unsubscribe | receive =>
    exact (List.append_nil _).symm

/-! ### A session -/

/-- A moment of a session at which an event is published. -/
structure Publication where
  /-- The commands before it. -/
  before : List Command
  event : Event
  /-- The commands after it. -/
  after : List Command

/-- The publications of commands that come after others. -/
def publicationsFrom (before : List Command) : List Command → List Publication
  | [] => []
  | c :: after =>
    c.event?.toList.map (fun e => ⟨before, e, after⟩) ++ publicationsFrom (before ++ [c]) after

/-- The publications of a session in order. -/
def publications (commands : List Command) : List Publication :=
  publicationsFrom [] commands

/-- What is left in a buffer of a publication: the event once for each time that the buffer was
registered before, and nothing if the buffer was cleared after. -/
def Publication.share (p : Publication) (name : String) : List Event :=
  if .clear name ∈ p.after then [] else List.replicate (p.before.count (.addMemory name)) p.event

/-- What a buffer has to hold after a session. -/
def kept (name : String) (commands : List Command) : List Event :=
  (publications commands).flatMap (·.share name)

theorem publicationsFrom_concat (before commands : List Command) (c : Command) :
    publicationsFrom before (commands ++ [c]) =
      (publicationsFrom before commands).map (fun p => { p with after := p.after ++ [c] }) ++
        c.event?.toList.map fun e => ⟨before ++ commands, e, []⟩ := by
  induction commands generalizing before with
  | nil => simp [publicationsFrom]
  | cons head commands ih => simp [publicationsFrom, ih, Function.comp_def]

theorem share_concat (p : Publication) (c : Command) (name : String) :
    { p with after := p.after ++ [c] }.share name =
      if c = .clear name then [] else p.share name := by
  simp only [Publication.share, List.mem_append, List.mem_singleton, eq_comm]
  by_cases h : c = .clear name <;> simp [h]

theorem kept_concat (name : String) (commands : List Command) (c : Command) :
    kept name (commands ++ [c]) =
      if c = .clear name then [] else kept name commands ++
        c.event?.toList.flatMap fun e => List.replicate (commands.count (.addMemory name)) e := by
  rw [kept, publications, publicationsFrom_concat, List.flatMap_append, List.flatMap_map,
    List.flatMap_map]
  simp only [share_concat]
  by_cases h : c = .clear name
  · simp [h, Command.event?]
  · simp [h, kept, publications, Publication.share]

/-- After any session a buffer holds what it has to. -/
theorem events_performAll (terminal : τ) (commands : List Command) (name : String) :
    ((silent terminal).performAll outlets commands).events name = kept name commands := by
  induction commands using List.reverseRecOn with
  | nil => rfl
  | append_singleton commands c ih =>
    let b := (silent terminal).performAll outlets commands
    have hcount : b.sinks.count (.memory name) = commands.count (.addMemory name) :=
      (count_memory_performAll (silent terminal) commands name).trans (Nat.zero_add _)
    rw [performAll_append, kept_concat, ← ih, ← hcount]
    exact b.events_perform c name

end

end Bus

end StepFlow
