import Mathlib.Data.List.Basic
import Mathlib.Logic.Function.Iterate
import StepFlow.Proofs.Event.Buffers

/-!
# What receivers get

A channel is registered once, when it is opened. So each command does one thing to the channel at
most, and what is documented of channels says what comes of it. As long as its receiver is there,
publishing puts the event behind those that wait and receiving takes the first one. So what was
received and what still waits make up the events that were published since the channel was opened.
After its receiver is dropped, its sink refuses every event.

## Main definitions

* `Bus.Wired`: each channel is registered once.
* `Subscription.Connected`, `Subscription.Gone`: the receiver of a channel is there, or was dropped.
* `Subscription.step`: what a command does to a channel.

## Main statements

* `Channels.documented_queues`: queues in memory are such channels.
* `Bus.Wired.channels_perform`: a command does one thing to a channel.
* `Subscription.Connected.step`: nothing is lost or doubled while the receiver is there.
* `Bus.received_of_subscribe`: what that means from the moment of subscription.
* `Bus.gone_of_unsubscribe`: receivers that are dropped do not come back.
-/

namespace StepFlow

/-- Queues in memory do what is documented of channels. -/
theorem Channels.documented_queues :
    Channels.queues.Documented (fun q => q.events) (fun q => q.live = true) where
  open_opened := rfl
  waiting_opened := rfl
  taken_send e q h := by simp [queues, h]
  open_send e q := by by_cases h : q.live = true <;> simp [queues, h]
  waiting_send e q h := by simp [queues, h]
  received q _ := by cases h : q.events <;> simp [queues, h]
  open_receive q h := by cases hevents : q.events <;> simp [queues, hevents, h]
  waiting_receive q _ := by cases h : q.events <;> simp [queues, h]
  closed_close _ := Bool.false_ne_true
  refused_send e q h := by simp [queues, h]

section

variable {γ : Type} {channels : Channels γ} {waiting : γ → List Event} {Open : γ → Prop}
  {s : Subscription γ} {c : Bus.Command} {number : Nat}

namespace Subscription

/-- Whether the receiver is there and the channel is open. -/
structure Connected (Open : γ → Prop) (s : Subscription γ) : Prop where
  live : s.live = true
  isOpen : Open s.channel

/-- Whether the receiver was dropped and the channel is closed. -/
structure Gone (Open : γ → Prop) (s : Subscription γ) : Prop where
  dropped : s.live = false
  isClosed : ¬Open s.channel

/-- What a command does to the channel with a number. -/
def step (channels : Channels γ) (number : Nat) (s : Subscription γ) : Bus.Command → Subscription γ
  | .publish e => (s.send channels e).2
  | .receive other => if other = number then (s.receive channels).2 else s
  | .unsubscribe other => if other = number then s.drop channels else s
  | _ => s

/-- What a command takes from the channel with a number. -/
def taken (channels : Channels γ) (number : Nat) (s : Subscription γ) (c : Bus.Command) :
    List Event :=
  if c = .receive number then (s.receive channels).1.toList else []

variable (hdoc : channels.Documented waiting Open)
include hdoc

theorem connected_opened : (opened channels).Connected Open :=
  ⟨rfl, hdoc.open_opened⟩

/-- Receiving takes the first event that waits, if there is one. -/
theorem Connected.receive (h : s.Connected Open) :
    (s.receive channels).2.Connected Open ∧
      (s.receive channels).1.toList ++ waiting (s.receive channels).2.channel =
        waiting s.channel := by
  rw [Subscription.receive, if_pos h.live]
  refine ⟨⟨h.live, hdoc.open_receive _ h.isOpen⟩, ?_⟩
  show (channels.receive s.channel).1.toList ++ waiting (channels.receive s.channel).2 = _
  rw [hdoc.received _ h.isOpen, hdoc.waiting_receive _ h.isOpen]
  cases waiting s.channel <;> rfl

/-- A command that does not drop the receiver appends what it publishes and takes what it
returns. -/
theorem Connected.step (h : s.Connected Open) (hlive : c ≠ .unsubscribe number) :
    (s.step channels number c).Connected Open ∧
      s.taken channels number c ++ waiting (s.step channels number c).channel =
        waiting s.channel ++ c.event?.toList := by
  cases c with
  | publish e => exact ⟨⟨h.live, (hdoc.open_send e _).2 h.isOpen⟩, hdoc.waiting_send e _ h.isOpen⟩
  | receive other =>
    by_cases hother : other = number
    · rw [Subscription.step, if_pos hother, taken, if_pos (congrArg _ hother)]
      obtain ⟨hconnected, htaken⟩ := h.receive hdoc
      exact ⟨hconnected, htaken.trans (List.append_nil _).symm⟩
    · have hc : Bus.Command.receive other ≠ .receive number :=
        fun heq => hother (Bus.Command.receive.inj heq)
      rw [Subscription.step, if_neg hother, taken, if_neg hc]
      exact ⟨h, (List.append_nil _).symm⟩
  | unsubscribe other =>
    have hother : other ≠ number := fun heq => hlive (heq ▸ rfl)
    rw [Subscription.step, if_neg hother]
    exact ⟨h, (List.append_nil _).symm⟩
  | addMemory | addFailing | addOutput | subscribe | clear =>
    exact ⟨h, (List.append_nil _).symm⟩

/-- A receiver that is dropped is gone. -/
theorem Connected.drop (h : s.Connected Open) : (s.drop channels).Gone Open := by
  rw [Subscription.drop, if_pos h.live]
  exact ⟨rfl, hdoc.closed_close _⟩

/-- No command brings a receiver back. -/
theorem Gone.step (h : s.Gone Open) (c : Bus.Command) : (s.step channels number c).Gone Open := by
  have hlive : ¬s.live = true := by simp [h.dropped]
  cases c with
  | publish e => exact ⟨h.dropped, mt (hdoc.open_send e _).1 h.isClosed⟩
  | receive other =>
    rw [Subscription.step, Subscription.receive, if_neg hlive, ite_self]
    exact h
  | unsubscribe other =>
    rw [Subscription.step, Subscription.drop, if_neg hlive, ite_self]
    exact h
  | addMemory | addFailing | addOutput | subscribe | clear => exact h

end Subscription

end

namespace Bus

variable {γ τ : Type} {outlets : Outlets γ τ} {waiting : γ → List Event} {Open : γ → Prop}
  {b : Bus γ τ} {s : Subscription γ} {c : Command} {commands : List Command} {number : Nat}

/-- Each channel is registered once, and there is no sink for a channel that was not opened. -/
def Wired (b : Bus γ τ) : Prop :=
  ∀ number, b.sinks.count (.channel number) = if number < b.channels.length then 1 else 0

theorem Wired.perform (hb : b.Wired) (c : Command) : (b.perform outlets c).2.Wired := by
  intro number
  rw [sinks_perform, length_channels_perform, List.count_append, hb number]
  by_cases hc : c = .subscribe
  · -- the new channel has the next number
    subst hc
    by_cases hnumber : b.channels.length = number
    · simp [Command.sink?, hnumber]
    · have hiff : number < b.channels.length + 1 ↔ number < b.channels.length := by omega
      simp [Command.sink?, hnumber, hiff]
  · have hnone : (c.sink? b.channels.length).toList.count (.channel number) = 0 := by
      cases c <;> simp_all [Command.sink?]
    rw [hnone, if_neg hc, Nat.add_zero]

theorem wired_performAll (terminal : τ) (commands : List Command) :
    ((silent terminal).performAll outlets commands).Wired := by
  induction commands using List.reverseRecOn with
  | nil => exact fun number => rfl
  | append_singleton commands c ih =>
    rw [performAll_append]
    exact ih.perform c

theorem getElem?_channels_deliver (outlets : Outlets γ τ) (e : Event) (b : Bus γ τ) (sink : Sink)
    (number : Nat) :
    (deliver outlets e b sink).channels[number]? = b.channels[number]?.map fun s =>
      if sink = .channel number then (s.send outlets.toChannels e).2 else s := by
  cases sink with
  | channel other =>
    show (b.channels.modify other fun s => (s.send outlets.toChannels e).2)[number]? = _
    rw [List.getElem?_modify]
    by_cases h : other = number <;> simp [h]
  | memory | failing | output => simp [deliver, handle]

/-- The event is sent through a channel once for each time that it is registered. -/
theorem channels_publish (h : b.channels[number]? = some s) (e : Event) :
    (b.publish outlets e).channels[number]? =
      some ((fun s => (s.send outlets.toChannels e).2)^[b.sinks.count (.channel number)] s) := by
  unfold publish
  induction b.sinks generalizing b s with
  | nil => exact h
  | cons sink sinks ih =>
    have hsent := getElem?_channels_deliver outlets e b sink number
    rw [h, Option.map_some] at hsent
    by_cases hsink : sink = .channel number
    · rw [if_pos hsink] at hsent
      rw [List.foldl_cons, ih hsent, hsink, List.count_cons_self, Function.iterate_succ_apply]
    · rw [if_neg hsink] at hsent
      rw [List.foldl_cons, ih hsent, List.count_cons_of_ne hsink]

/-- A command does one thing to a channel at most. -/
theorem Wired.channels_perform (hb : b.Wired) (h : b.channels[number]? = some s)
    (outlets : Outlets γ τ) (c : Command) :
    (b.perform outlets c).2.channels[number]? = some (s.step outlets.toChannels number c) := by
  have hnumber : number < b.channels.length := (List.getElem?_eq_some_iff.1 h).1
  cases c with
  | publish e =>
    show (b.publish outlets e).channels[number]? = _
    rw [channels_publish h, hb number, if_pos hnumber, Function.iterate_one, Subscription.step]
  | subscribe => exact (List.getElem?_append_left hnumber).trans h
  | receive other =>
    show (b.channels.modify other fun s => (s.receive outlets.toChannels).2)[number]? = _
    rw [List.getElem?_modify, h, Subscription.step]
    by_cases hother : other = number <;> simp [hother]
  | unsubscribe other =>
    show (b.channels.modify other (·.drop outlets.toChannels))[number]? = _
    rw [List.getElem?_modify, h, Subscription.step]
    by_cases hother : other = number <;> simp [hother]
  | addMemory | addFailing | addOutput | clear => exact h

theorem taken_of_channel (h : b.channels[number]? = some s) (c : Command) :
    taken outlets number b c = s.taken outlets.toChannels number c := by
  rw [taken, Subscription.taken]
  by_cases hc : c = .receive number
  · rw [if_pos hc, if_pos hc, hc, perform, receive, h, Option.bind_some]
  · rw [if_neg hc, if_neg hc]

theorem taken_of_ne (h : c ≠ .receive number) : taken outlets number b c = [] :=
  if_neg h

theorem received_performAll_append (number : Nat) (b : Bus γ τ) (commands later : List Command) :
    received outlets number b (commands ++ later) =
      received outlets number b commands ++
        received outlets number (b.performAll outlets commands) later := by
  induction commands generalizing b with
  | nil => rfl
  | cons c commands ih =>
    rw [List.cons_append, received, received, ih, performAll_cons, List.append_assoc]

/-- Nothing is received from a channel before it is opened. -/
theorem received_eq_nil (h : b.channels.length + commands.count .subscribe ≤ number) :
    received outlets number b commands = [] := by
  induction commands generalizing b with
  | nil => rfl
  | cons c commands ih =>
    have hfirst : taken outlets number b c = [] := by
      by_cases hc : c = .receive number
      · have hnone : b.channels[number]? = none := List.getElem?_eq_none (by omega)
        rw [taken, if_pos hc, hc, perform, receive, hnone]
        rfl
      · exact taken_of_ne hc
    rw [← length_add_count_subscribe outlets] at h
    rw [received, hfirst, List.nil_append, ih h]

section

variable (hdoc : outlets.toChannels.Documented waiting Open)
include hdoc

/-- As long as the receiver is not dropped, what is received and what still waits are what waited
before and what is published. -/
theorem Wired.received_append (hb : b.Wired) (h : b.channels[number]? = some s)
    (hs : s.Connected Open) (hlive : .unsubscribe number ∉ commands) :
    ∃ left, (b.performAll outlets commands).channels[number]? = some left ∧ left.Connected Open ∧
      received outlets number b commands ++ waiting left.channel =
        waiting s.channel ++ commands.filterMap Command.event? := by
  induction commands generalizing b s with
  | nil => exact ⟨s, h, hs, (List.append_nil _).symm⟩
  | cons c commands ih =>
    obtain ⟨hc, hcommands⟩ := List.ne_and_not_mem_of_not_mem_cons hlive
    obtain ⟨hconnected, hstep⟩ := hs.step hdoc (Ne.symm hc)
    obtain ⟨left, hleft, hend, hrest⟩ :=
      ih (hb.perform c) (hb.channels_perform h outlets c) hconnected hcommands
    refine ⟨left, hleft, hend, ?_⟩
    have hevents : (c :: commands).filterMap Command.event? =
        c.event?.toList ++ commands.filterMap Command.event? := by
      rw [List.filterMap_eq_flatMap_toList, List.filterMap_eq_flatMap_toList, List.flatMap_cons]
    calc received outlets number b (c :: commands) ++ waiting left.channel
        = s.taken outlets.toChannels number c ++
            (received outlets number (b.perform outlets c).2 commands ++ waiting left.channel) := by
          rw [received, taken_of_channel h, List.append_assoc]
      _ = s.taken outlets.toChannels number c ++
            waiting (s.step outlets.toChannels number c).channel ++
              commands.filterMap Command.event? := by
          rw [hrest, List.append_assoc]
      _ = waiting s.channel ++ (c :: commands).filterMap Command.event? := by
          rw [hstep, hevents, List.append_assoc]

theorem Wired.gone_performAll (hb : b.Wired) (h : b.channels[number]? = some s)
    (hs : s.Gone Open) (commands : List Command) :
    ∃ left, (b.performAll outlets commands).channels[number]? = some left ∧ left.Gone Open := by
  induction commands generalizing b s with
  | nil => exact ⟨s, h, hs⟩
  | cons c commands ih => exact ih (hb.perform c) (hb.channels_perform h outlets c) (hs.step hdoc c)

theorem Wired.gone_of_unsubscribe (hb : b.Wired) (h : b.channels[number]? = some s)
    (hs : s.Connected Open) (hdropped : .unsubscribe number ∈ commands) :
    ∃ left, (b.performAll outlets commands).channels[number]? = some left ∧ left.Gone Open := by
  induction commands generalizing b s with
  | nil => cases hdropped
  | cons c commands ih =>
    have hchannel := hb.channels_perform h outlets c
    by_cases hc : c = .unsubscribe number
    · rw [hc, Subscription.step, if_pos rfl, ← hc] at hchannel
      exact (hb.perform c).gone_performAll hdoc hchannel (hs.drop hdoc) commands
    · have hlater := (List.mem_cons.1 hdropped).resolve_left (Ne.symm hc)
      exact ih (hb.perform c) hchannel (hs.step hdoc hc).1 hlater

/-- The channel that a subscription opens. -/
theorem connected_of_subscribe (terminal : τ) (commands : List Command) :
    let opened := (((silent terminal).performAll outlets commands).perform outlets .subscribe).2
    opened.Wired ∧ ∃ s, opened.channels[commands.count .subscribe]? = some s ∧
      s.Connected Open ∧ waiting s.channel = [] := by
  intro opened
  have hlength : ((silent terminal).performAll outlets commands).channels.length =
      commands.count .subscribe :=
    (length_channels_performAll (silent terminal) commands).trans (Nat.zero_add _)
  refine ⟨(wired_performAll terminal commands).perform .subscribe,
    .opened outlets.toChannels, ?_, Subscription.connected_opened hdoc, hdoc.waiting_opened⟩
  rw [← hlength]
  exact List.getElem?_concat_length

/-- While a receiver is there, what it got and what waits for it are the events published since its
subscription, and its sink takes every event. -/
theorem received_of_subscribe (terminal : τ) (commands later : List Command)
    (hlive : .unsubscribe (commands.count .subscribe) ∉ later) :
    let session := commands ++ .subscribe :: later
    let number := commands.count .subscribe
    let b := (silent terminal).performAll outlets session
    ∃ left, b.channels[number]? = some left ∧ left.Connected Open ∧
      received outlets number (silent terminal) session ++ waiting left.channel =
        later.filterMap Command.event? := by
  intro session number b
  obtain ⟨hwired, s, hopened, hs, hnone⟩ := connected_of_subscribe hdoc terminal commands
  obtain ⟨left, hleft, hend, hevents⟩ := hwired.received_append hdoc hopened hs hlive
  rw [hnone, List.nil_append] at hevents
  refine ⟨left, ?_, hend, ?_⟩
  · rw [← hleft, ← performAll_cons, ← performAll_append]
  · have hbefore : received outlets number (silent terminal) commands = [] :=
      received_eq_nil (Nat.le_of_eq (Nat.zero_add _))
    rw [received_performAll_append, hbefore, List.nil_append]
    exact hevents

/-- Receivers that are dropped after their subscription are gone. -/
theorem gone_of_unsubscribe (terminal : τ) (commands later : List Command)
    (hdropped : .unsubscribe (commands.count .subscribe) ∈ later) :
    ∃ left, ((silent terminal).performAll outlets (commands ++ .subscribe :: later)).channels[
      commands.count .subscribe]? = some left ∧ left.Gone Open := by
  obtain ⟨hwired, s, hopened, hs, -⟩ := connected_of_subscribe hdoc terminal commands
  rw [performAll_append, performAll_cons]
  exact hwired.gone_of_unsubscribe hdoc hopened hs hdropped

theorem handle_of_connected (h : b.channels[number]? = some s) (hs : s.Connected Open) (e : Event) :
    (b.handle outlets e (.channel number)).1 = .ok () := by
  have htaken : (s.send outlets.toChannels e).1 = true := hdoc.taken_send e _ hs.isOpen
  rw [handle, h, Option.any_some, htaken, if_pos rfl]

theorem handle_of_gone (h : b.channels[number]? = some s) (hs : s.Gone Open) (e : Event) :
    (b.handle outlets e (.channel number)).1 = .error "channel receiver dropped" := by
  have hrefused : (s.send outlets.toChannels e).1 = false := hdoc.refused_send e _ hs.isClosed
  rw [handle, h, Option.any_some, hrefused, if_neg Bool.false_ne_true]

end

end Bus

end StepFlow
