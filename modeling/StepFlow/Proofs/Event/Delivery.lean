import Mathlib.Data.Nat.Count
import StepFlow.Proofs.Event.Clones
import StepFlow.Proofs.Event.Receivers

/-!
# Sinks do not get in each other's way

A session may be told without its failing sinks and without some of its channels, for instance those
whose receivers are dropped. If the terminal refuses lines it may be told without the sinks that
write as well. Every other sink sees the same then. Channels are known by their numbers, so those
that are kept move up. Each command of the session goes over into at most one of the shorter one,
and the shorter session comes to the same bus without what was left out.

## Main definitions

* `pick`: the members of a list at the places that are kept.
* `Bus.others`: the bus without failing sinks and without what is not kept.
* `Bus.Command.other?`, `Bus.othersFrom`: the commands of the shorter session.

## Main statements

* `Bus.others_performAll`: what the shorter session comes to.
* `Bus.received_others`: what is received on the way.
* `Bus.events_delivered`: what buffers hold, what receivers get, and that failing sinks and other
  receivers make no difference to them, through whichever clones of the bus they are used.
-/

namespace StepFlow

section pick

variable {α : Type} {keep : Nat → Prop} [DecidablePred keep] {number : Nat}

/-- The members of a list at the places that are kept. -/
def pick (keep : Nat → Prop) [DecidablePred keep] : List α → List α
  | [] => []
  | a :: l =>
    if keep 0 then a :: pick (fun n => keep (n + 1)) l else pick (fun n => keep (n + 1)) l

theorem length_pick (keep : Nat → Prop) [DecidablePred keep] (l : List α) :
    (pick keep l).length = Nat.count keep l.length := by
  induction l generalizing keep with
  | nil => rfl
  | cons a l ih =>
    rw [List.length_cons, Nat.count_succ', pick, ← ih]
    by_cases hfirst : keep 0 <;> simp [hfirst]

/-- A member that is kept stands behind those that are kept before it. -/
theorem getElem?_pick (h : keep number) (l : List α) :
    (pick keep l)[Nat.count keep number]? = l[number]? := by
  induction l generalizing keep number with
  | nil => rfl
  | cons a l ih =>
    cases number with
    | zero =>
      rw [pick, if_pos h]
      rfl
    | succ number =>
      rw [Nat.count_succ', pick, List.getElem?_cons_succ]
      by_cases hfirst : keep 0
      · rw [if_pos hfirst, if_pos hfirst, List.getElem?_cons_succ]
        exact @ih (fun n => keep (n + 1)) _ number h
      · rw [if_neg hfirst, if_neg hfirst, Nat.add_zero]
        exact @ih (fun n => keep (n + 1)) _ number h

theorem pick_modify (keep : Nat → Prop) [DecidablePred keep] (l : List α) (number : Nat)
    (f : α → α) : pick keep (l.modify number f) =
      if keep number then (pick keep l).modify (Nat.count keep number) f else pick keep l := by
  induction l generalizing keep number with
  | nil => simp [pick]
  | cons a l ih =>
    cases number with
    | zero =>
      rw [List.modify_zero_cons, pick, pick]
      by_cases hfirst : keep 0 <;> simp [hfirst]
    | succ number =>
      rw [List.modify_succ_cons, pick, pick, ih, Nat.count_succ']
      by_cases hfirst : keep 0 <;> by_cases hkeep : keep (number + 1) <;> simp [hfirst, hkeep]

theorem pick_concat (keep : Nat → Prop) [DecidablePred keep] (l : List α) (a : α) :
    pick keep (l ++ [a]) = pick keep l ++ if keep l.length then [a] else [] := by
  induction l generalizing keep with
  | nil => rfl
  | cons b l ih =>
    rw [List.cons_append, pick, pick, ih, List.length_cons]
    by_cases hfirst : keep 0 <;> simp [hfirst]

end pick

section

variable (keep : Nat → Prop) [DecidablePred keep] (output : Bool)

/-- A sink with its number among the channels that are kept. Failing sinks and the channels that are
not kept are left out, and so are sinks that write unless they are kept. -/
def Sink.other? : Sink → Option Sink
  | .memory buffer => some (.memory buffer)
  | .failing => none
  | .output style => if output then some (.output style) else none
  | .channel number => if keep number then some (.channel (Nat.count keep number)) else none

namespace Bus

variable {γ τ : Type} {outlets : Outlets γ τ}

/-- The bus without failing sinks and without what is not kept. Without sinks that write the
terminal is as it was at first. -/
def others (first : τ) (b : Bus γ τ) : Bus γ τ where
  buffers := b.buffers
  channels := pick keep b.channels
  terminal := if output then b.terminal else first
  sinks := b.sinks.filterMap (Sink.other? keep output)

/-- A command in the session without failing sinks and without what is not kept, if so many channels
were opened before. -/
def Command.other? (opened : Nat) : Command → Option Command
  | .addMemory buffer => some (.addMemory buffer)
  | .addFailing => none
  | .addOutput style => if output then some (.addOutput style) else none
  | .subscribe => if keep opened then some .subscribe else none
  | .unsubscribe number =>
    if keep number then some (.unsubscribe (Nat.count keep number)) else none
  | .receive number => if keep number then some (.receive (Nat.count keep number)) else none
  | .clear buffer => some (.clear buffer)
  | .publish e => some (.publish e)

/-- The session without failing sinks and without what is not kept, if so many channels were opened
before. -/
def othersFrom (opened : Nat) : List Command → List Command
  | [] => []
  | c :: commands =>
    (c.other? keep output opened).toList ++
      othersFrom (if c = .subscribe then opened + 1 else opened) commands

variable {keep output} {first : τ} {number : Nat}

/-- Changing a channel comes to changing it where it is kept. -/
theorem others_modify (b : Bus γ τ) (number : Nat) (f : Subscription γ → Subscription γ) :
    { b with channels := b.channels.modify number f }.others keep output first =
      if keep number then { b.others keep output first with
        channels := (b.others keep output first).channels.modify (Nat.count keep number) f }
      else b.others keep output first := by
  rw [others, pick_modify]
  split <;> rfl

/-- A sink that is left out has touched nothing but what is left out with it. -/
theorem others_deliver (e : Event) (b : Bus γ τ) (sink : Sink) :
    (deliver outlets e b sink).others keep output first =
      (sink.other? keep output).toList.foldl (deliver outlets e) (b.others keep output first) := by
  cases sink with
  | memory | failing => rfl
  | output style => cases output <;> rfl
  | channel number =>
    refine (others_modify b number _).trans ?_
    rw [Sink.other?]
    split <;> rfl

theorem others_publish (b : Bus γ τ) (e : Event) :
    (b.publish outlets e).others keep output first =
      (b.others keep output first).publish outlets e := by
  have hfold : ∀ sinks : List Sink,
      (sinks.foldl (deliver outlets e) b).others keep output first =
        (sinks.filterMap (Sink.other? keep output)).foldl (deliver outlets e)
          (b.others keep output first) := by
    intro sinks
    induction sinks generalizing b with
    | nil => rfl
    | cons sink sinks ih =>
      simp only [List.filterMap_eq_flatMap_toList] at ih ⊢
      rw [List.foldl_cons, ih, others_deliver, ← List.foldl_append, List.flatMap_cons]
  exact hfold b.sinks

/-- Registering a sink comes to registering its counterpart, if it has one. -/
theorem others_addSink (b : Bus γ τ) (sink : Sink) :
    (b.addSink sink).others keep output first =
      (sink.other? keep output).toList.foldl addSink (b.others keep output first) := by
  have hsinks : (b.sinks ++ [sink]).filterMap (Sink.other? keep output) =
      b.sinks.filterMap (Sink.other? keep output) ++ (sink.other? keep output).toList := by
    rw [List.filterMap_append, List.filterMap_eq_flatMap_toList _ [sink], List.flatMap_singleton]
  rw [others, addSink, hsinks]
  cases sink.other? keep output with
  | none => rw [Option.toList_none, List.append_nil]; rfl
  | some other => rfl

/-- Each command goes over into at most one of the shorter session. -/
theorem others_perform (b : Bus γ τ) (c : Command) :
    (b.perform outlets c).2.others keep output first =
      (b.others keep output first).performAll outlets
        (c.other? keep output b.channels.length).toList := by
  cases c with
  | addMemory buffer => exact others_addSink _ (.memory buffer)
  | addFailing => exact others_addSink b .failing
  | addOutput style =>
    refine (others_addSink b (.output style)).trans ?_
    cases output <;> rfl
  | subscribe =>
    let opened := Subscription.opened outlets.toChannels
    have hopened : { b with channels := b.channels ++ [opened] }.others keep output first =
        { b.others keep output first with channels := (b.others keep output first).channels ++
          (if keep b.channels.length then [opened] else []) } := by
      rw [others, pick_concat]
      rfl
    have hlength : (b.others keep output first).channels.length =
        Nat.count keep b.channels.length :=
      length_pick keep b.channels
    show ({ b with channels := b.channels ++ [opened] }.addSink
      (.channel b.channels.length)).others keep output first = _
    rw [others_addSink, hopened, Sink.other?, Command.other?]
    by_cases h : keep b.channels.length
    · rw [if_pos h, if_pos h, if_pos h, ← hlength]
      rfl
    · rw [if_neg h, if_neg h, if_neg h, List.append_nil]
      rfl
  | unsubscribe number =>
    refine (others_modify b number _).trans ?_
    rw [Command.other?]
    split <;> rfl
  | receive number =>
    refine (others_modify b number _).trans ?_
    rw [Command.other?]
    split <;> rfl
  | clear => rfl
  | publish e => exact others_publish b e

theorem others_performAll (b : Bus γ τ) (commands : List Command) :
    (b.performAll outlets commands).others keep output first =
      (b.others keep output first).performAll outlets
        (othersFrom keep output b.channels.length commands) := by
  induction commands generalizing b with
  | nil => rfl
  | cons c commands ih =>
    rw [performAll_cons, ih, others_perform, othersFrom, performAll_append,
      length_channels_perform]

/-- Only receiving from a channel that is kept goes over into receiving from its counterpart. -/
theorem Command.eq_receive_of_other? (h : keep number) {opened : Nat} {c : Command}
    (hc : c.other? keep output opened = some (.receive (Nat.count keep number))) :
    c = .receive number := by
  cases c with
  | receive other =>
    by_cases hother : keep other
    · simp only [Command.other?, if_pos hother, Option.some.injEq, Command.receive.injEq] at hc
      rw [Nat.count_injective hother h hc]
    · simp [Command.other?, hother] at hc
  | subscribe | unsubscribe | addOutput => simp [Command.other?] at hc
  | addMemory | addFailing | clear | publish => cases hc

/-- What a command takes from a channel that is kept is taken in the shorter session as well. -/
theorem received_other? (h : keep number) (b : Bus γ τ) (c : Command) :
    received outlets (Nat.count keep number) (b.others keep output first)
        (c.other? keep output b.channels.length).toList = taken outlets number b c := by
  by_cases hc : c = .receive number
  · subst hc
    have hchannel : (b.others keep output first).channels[Nat.count keep number]? =
        b.channels[number]? :=
      getElem?_pick h b.channels
    rw [Command.other?, if_pos h, Option.toList_some, received, received, List.append_nil, taken,
      if_pos rfl, perform, receive, hchannel, taken, if_pos rfl, perform, receive]
  · rw [taken_of_ne hc]
    cases hother : c.other? keep output b.channels.length with
    | none => rfl
    | some c' =>
      have hne : c' ≠ .receive (Nat.count keep number) := by
        rintro rfl
        exact hc (Command.eq_receive_of_other? h hother)
      rw [Option.toList_some, received, received, taken_of_ne hne, List.append_nil]

theorem received_others (h : keep number) (output : Bool) (first : τ) (b : Bus γ τ)
    (commands : List Command) :
    received outlets (Nat.count keep number) (b.others keep output first)
        (othersFrom keep output b.channels.length commands) =
      received outlets number b commands := by
  induction commands generalizing b with
  | nil => rfl
  | cons c commands ih =>
    rw [othersFrom, received_performAll_append, received_other? h, ← others_perform, received,
      ← length_channels_perform, ih]

theorem others_silent (terminal : τ) :
    (silent terminal : Bus γ τ).others keep output terminal = silent terminal := by
  cases output <;> rfl

/-- The shorter session comes to the same without what is left out. -/
theorem performAll_othersFrom (terminal : τ) (commands : List Command) :
    (silent terminal).performAll outlets (othersFrom keep output 0 commands) =
      ((silent terminal).performAll outlets commands).others keep output terminal := by
  rw [others_performAll, others_silent]
  rfl

theorem received_othersFrom (h : keep number) (terminal : τ) (commands : List Command) :
    received outlets (Nat.count keep number) (silent terminal) (othersFrom keep output 0 commands) =
      received outlets number (silent terminal) commands := by
  rw [← received_others h output terminal, others_silent]
  rfl

/-- Take any session of calls to a bus and its clones, with any terminal and with channels of which
what is documented holds. Each handle leads to the bus to which all commands were given. Each buffer
holds the events that were published since it was cleared, in order, each once for every time that
the buffer was registered when the event was published. While a receiver is there, its sink takes
every event, and what it got so far and what waits for it are the events published since its
subscription. Once it is dropped, its sink refuses every event. And a session without the failing
sinks and without some of the channels, such as those whose receivers are dropped, is a session too.
It leaves the same in all buffers and gives the same to every other receiver, through whichever
clones it goes. It writes the same to the terminal unless the sinks that write are left out as
well. -/
theorem events_delivered {outlets : Outlets γ τ} {waiting : γ → List Event} {Open : γ → Prop}
    (hdoc : outlets.toChannels.Documented waiting Open) (terminal : τ)
    (calls : List Handles.Call) :
    let start := Handles.ofBus (silent terminal)
    let commands := Handles.commands calls
    let b := (silent terminal).performAll outlets commands
    let s := start.callAll outlets calls
    (∀ handle < s.addresses.length, s.bus? handle = some b) ∧
    (∀ name, s.held.events name = kept name commands) ∧
    (∀ earlier later, commands = earlier ++ .subscribe :: later →
      let number := earlier.count .subscribe
      ∃ left, s.held.channels[number]? = some left ∧
        (.unsubscribe number ∉ later → left.Connected Open ∧
          start.received outlets number calls ++ waiting left.channel =
            later.filterMap Command.event? ∧
          ∀ e, (b.handle outlets e (.channel number)).1 = .ok ()) ∧
        (.unsubscribe number ∈ later → left.Gone Open ∧
          ∀ e, (b.handle outlets e (.channel number)).1 = .error "channel receiver dropped")) ∧
    ∀ (keep : Nat → Prop) [DecidablePred keep] (output : Bool),
      (∃ fewer, Handles.commands fewer = othersFrom keep output 0 commands) ∧
      ∀ fewer, Handles.commands fewer = othersFrom keep output 0 commands →
        let s' := start.callAll outlets fewer
        s'.held.buffers = s.held.buffers ∧
        (output = true → s'.held.terminal = s.held.terminal) ∧
        ∀ number, keep number →
          start.received outlets (Nat.count keep number) fewer =
            start.received outlets number calls ∧
          s'.held.channels[Nat.count keep number]? = s.held.channels[number]? := by
  intro start commands b s
  have hheld : s.held = b.toHeld := Handles.held_callAll (silent terminal) calls
  have hreceived : ∀ number (calls : List Handles.Call), start.received outlets number calls =
      received outlets number (silent terminal) (Handles.commands calls) :=
    fun number calls => Handles.received_ofBus number (silent terminal) calls
  refine ⟨fun handle => Handles.bus?_callAll (silent terminal) calls, ?_, ?_, ?_⟩
  · intro name
    rw [hheld]
    exact events_performAll terminal commands name
  · intro earlier later hcommands number
    rw [hheld, hreceived]
    by_cases hdropped : .unsubscribe number ∈ later
    · obtain ⟨left, hleft, hgone⟩ := gone_of_unsubscribe hdoc terminal earlier later hdropped
      rw [← hcommands] at hleft
      exact ⟨left, hleft, fun hlive => absurd hdropped hlive,
        fun _ => ⟨hgone, handle_of_gone hdoc hleft hgone⟩⟩
    · obtain ⟨left, hleft, hconnected, hevents⟩ :=
        received_of_subscribe hdoc terminal earlier later hdropped
      rw [← hcommands] at hleft hevents
      exact ⟨left, hleft,
        fun _ => ⟨hconnected, hevents, handle_of_connected hdoc hleft hconnected⟩,
        fun hgone => absurd hgone hdropped⟩
  · intro keep _ output
    refine ⟨Handles.exists_commands_eq _, fun fewer hfewer => ?_⟩
    intro s'
    have hheld' : s'.held = (b.others keep output terminal).toHeld := by
      rw [Handles.held_callAll, hfewer, performAll_othersFrom]
    rw [hheld, hheld']
    refine ⟨rfl, fun houtput => if_pos houtput, fun number hnumber => ⟨?_, ?_⟩⟩
    · rw [hreceived, hreceived, hfewer]
      exact received_othersFrom hnumber terminal commands
    · exact getElem?_pick hnumber b.channels

/-- A buffer that is registered twice and cleared, a failing sink and a terminal that refuses all
lines in between, and two receivers of which one is dropped, through a bus and two clones. -/
theorem events_delivered_past_failures :
    let outlets : Outlets Queue Unit := {
      toChannels := .queues
      toTerminal := ⟨fun _ _ => (.error "broken pipe", ()), fun _ => (.ok (), ())⟩ }
    let first : Event := { scope := .execution, level := .info, message := "1", time := .epoch }
    let second : Event := { scope := .execution, level := .error, message := "2", time := .epoch }
    let earlier : List Command := [.addMemory "m", .addFailing, .addOutput .plain, .addMemory "m"]
    let later : List Command := [.subscribe, .publish first, .clear "m", .unsubscribe 1,
      .receive 0, .publish second]
    let calls : List Handles.Call := [.perform 0 (.addMemory "m"), .clone 0,
      .perform 1 .addFailing, .perform 1 (.addOutput .plain), .clone 1, .perform 2 (.addMemory "m"),
      .perform 0 .subscribe, .perform 2 .subscribe, .perform 1 (.publish first),
      .perform 0 (.clear "m"), .perform 0 (.unsubscribe 1), .perform 0 (.receive 0),
      .perform 3 (.publish first), .perform 2 (.publish second)]
    let fewer : List Handles.Call := [.perform 0 (.addMemory "m"), .perform 0 (.addMemory "m"),
      .perform 0 .subscribe, .perform 0 (.publish first), .perform 0 (.clear "m"),
      .perform 0 (.receive 0), .perform 0 (.publish second)]
    let start : Handles Queue Unit := .ofBus (silent ())
    let s := start.callAll outlets calls
    let b := (silent ()).performAll outlets (Handles.commands calls)
    outlets.toChannels.Documented (fun q => q.events) (fun q => q.live = true) ∧
      Handles.commands calls = earlier ++ .subscribe :: later ∧
      2 < s.addresses.length ∧ s.bus? 2 = some b ∧ s.held.events "m" = [second, second] ∧
      .unsubscribe 0 ∉ later ∧
      (∃ left, s.held.channels[0]? = some left ∧ left.live = true ∧
        start.received outlets 0 calls ++ left.channel.events = [first, second]) ∧
      (∀ e, (b.handle outlets e (.channel 1)).1 = .error "channel receiver dropped") ∧
      (∀ e, (b.handle outlets e (.output .plain)).1 = .error "broken pipe") ∧
      Handles.commands fewer = othersFrom (· ≠ 1) false 0 (Handles.commands calls) ∧
      (start.callAll outlets fewer).held.buffers = s.held.buffers ∧
      start.received outlets 0 fewer = start.received outlets 0 calls := by
  intro outlets first second earlier later calls fewer start s b
  have hdoc : outlets.toChannels.Documented (fun q => q.events) (fun q => q.live = true) :=
    Channels.documented_queues
  obtain ⟨hclones, hheld, hreceived, hothers⟩ := events_delivered hdoc () calls
  have hcommands : Handles.commands calls = earlier ++ .subscribe :: later := rfl
  have hfewer : Handles.commands fewer = othersFrom (· ≠ 1) false 0 (Handles.commands calls) := rfl
  have hlive : .unsubscribe 0 ∉ later := by decide
  obtain ⟨left, hleft, hzero, -⟩ := hreceived earlier later hcommands
  obtain ⟨hconnected, hevents, -⟩ := hzero hlive
  -- the second subscription comes right after the first one
  obtain ⟨_, -, -, hone⟩ := hreceived (earlier ++ [.subscribe]) later.tail hcommands
  have hrefused := (hone (by decide)).2
  obtain ⟨hbuffers, -, hchannels⟩ := (hothers (· ≠ 1) false).2 fewer hfewer
  have hcount : earlier.count .subscribe = 0 := by decide
  rw [hcount] at hleft hevents
  have hclone : 2 < s.addresses.length := by decide
  simp only [s, start] at hclone ⊢
  exact ⟨hdoc, hcommands, hclone, hclones 2 hclone, hheld "m", hlive,
    ⟨left, hleft, hconnected.live, hevents⟩, hrefused, fun _ => rfl, hfewer, hbuffers,
    (hchannels 0 (by decide)).1⟩

end Bus

end

end StepFlow
