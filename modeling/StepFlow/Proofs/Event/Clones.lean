import StepFlow.Event.Handles
import StepFlow.Proofs.Event.Buffers

/-!
# Clones share one bus

A handle and its clones hold the same address. So whatever is done through any of them is done to
one list of sinks, and a session of calls comes to what its commands come to on one bus.

## Main definitions

* `Handles.commands`: the commands of a session that reach the bus.
* `Handles.sharedBy`: handles that all lead to one bus.

## Main statements

* `Handles.bus?_callAll`, `Handles.held_callAll`: what is left after a session.
* `Handles.received_ofBus`: what is received on the way.
-/

namespace StepFlow.Handles

/-- The commands that reach the bus if there are so many handles before. A call through a handle
that there is not does nothing. -/
def commandsFrom (handles : Nat) : List Call → List Bus.Command
  | [] => []
  | .clone handle :: calls =>
    commandsFrom (if handle < handles then handles + 1 else handles) calls
  | .perform handle c :: calls =>
    (if handle < handles then [c] else []) ++ commandsFrom handles calls

/-- The commands that reach the bus in a session that starts with one handle. -/
def commands (calls : List Call) : List Bus.Command :=
  commandsFrom 1 calls

/-- Any commands reach the bus in some session, such as one without clones. -/
theorem exists_commands_eq (wanted : List Bus.Command) :
    ∃ calls, commands calls = wanted := by
  refine ⟨wanted.map (.perform 0), ?_⟩
  induction wanted with
  | nil => rfl
  | cons c wanted ih => exact congrArg (c :: ·) ih

variable {γ τ : Type} {outlets : Outlets γ τ} {handle : Nat}

/-- So many handles that all lead to one bus. -/
def sharedBy (handles : Nat) (b : Bus γ τ) : Handles γ τ :=
  ⟨[b.sinks], List.replicate handles 0, b.toHeld⟩

theorem ofBus_eq (b : Bus γ τ) : ofBus b = sharedBy 1 b :=
  rfl

/-- A clone of a handle is one more handle of the bus. -/
theorem call_clone (b : Bus γ τ) (handles handle : Nat) :
    (sharedBy handles b).call outlets (.clone handle) =
      (none, sharedBy (if handle < handles then handles + 1 else handles) b) := by
  rw [call]
  by_cases h : handle < handles
  · simp [sharedBy, h, List.replicate_succ']
  · simp [sharedBy, h]

/-- A command through any handle goes to the one bus. -/
theorem call_perform (b : Bus γ τ) (handles handle : Nat) (c : Bus.Command) :
    (sharedBy handles b).call outlets (.perform handle c) =
      if handle < handles then
        ((b.perform outlets c).1, sharedBy handles (b.perform outlets c).2)
      else (none, sharedBy handles b) := by
  rw [call]
  by_cases h : handle < handles
  · simp [sharedBy, h, busAt]
  · simp [sharedBy, h]

theorem callAll_sharedBy (outlets : Outlets γ τ) (b : Bus γ τ) (handles : Nat)
    (calls : List Call) :
    ∃ more, (sharedBy handles b).callAll outlets calls =
      sharedBy more (b.performAll outlets (commandsFrom handles calls)) := by
  induction calls generalizing b handles with
  | nil => exact ⟨handles, rfl⟩
  | cons c calls ih =>
    rw [callAll, List.foldl_cons]
    cases c with
    | clone handle =>
      rw [call_clone]
      exact ih b _
    | perform handle c =>
      rw [call_perform, commandsFrom]
      by_cases h : handle < handles
      · rw [if_pos h, if_pos h]
        exact ih (b.perform outlets c).2 handles
      · rw [if_neg h, if_neg h]
        exact ih b handles

/-- After a session each handle leads to the bus to which all its commands were given. -/
theorem bus?_callAll (b : Bus γ τ) (calls : List Call)
    (h : handle < ((ofBus b).callAll outlets calls).addresses.length) :
    ((ofBus b).callAll outlets calls).bus? handle =
      some (b.performAll outlets (commands calls)) := by
  obtain ⟨more, hcalls⟩ := callAll_sharedBy outlets b 1 calls
  rw [ofBus_eq, hcalls] at h ⊢
  have hmore : handle < more := lt_of_lt_of_eq h List.length_replicate
  rw [bus?, sharedBy, List.getElem?_replicate, if_pos hmore]
  rfl

theorem held_callAll (b : Bus γ τ) (calls : List Call) :
    ((ofBus b).callAll outlets calls).held = (b.performAll outlets (commands calls)).toHeld := by
  obtain ⟨more, hcalls⟩ := callAll_sharedBy outlets b 1 calls
  rw [ofBus_eq, hcalls]
  rfl

theorem received_sharedBy (number : Nat) (b : Bus γ τ) (handles : Nat) (calls : List Call) :
    received outlets number (sharedBy handles b) calls =
      b.received outlets number (commandsFrom handles calls) := by
  induction calls generalizing b handles with
  | nil => rfl
  | cons c calls ih =>
    rw [received]
    cases c with
    | clone handle =>
      rw [call_clone]
      exact ih b _
    | perform handle c =>
      rw [call_perform, commandsFrom]
      by_cases h : handle < handles
      · rw [if_pos h, if_pos h]
        simp only [ih, List.cons_append, List.nil_append, Bus.received, Bus.taken,
          Call.receivesFrom, decide_eq_true_eq]
      · rw [if_neg h, if_neg h]
        simp [ih]

theorem received_ofBus (number : Nat) (b : Bus γ τ) (calls : List Call) :
    received outlets number (ofBus b) calls = b.received outlets number (commands calls) := by
  rw [ofBus_eq]
  exact received_sharedBy number b 1 calls

end StepFlow.Handles
