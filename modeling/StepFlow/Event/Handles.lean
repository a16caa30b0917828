import StepFlow.Event.Command

/-!
# Clones of a bus

A bus is known to those who use it by a handle. The handle holds the address of a list of sinks, and
a clone of the handle holds the same address.

## Main definitions

* `Handles`: the handles of a bus and what they lead to.
* `Handles.Call`: something that is done through a handle.
* `Handles.call`: carries out a call.
* `Handles.received`: the events received from a channel in the course of several calls.

## Design notes

A command through a handle works on a bus with the sinks at the address of the handle, and puts them
back there. Handles are known by their number, in the order in which they were made. Nobody has a
handle that was not made yet, so a call through one does nothing. Handles that are given up are just
not used any more.
-/

namespace StepFlow

/-- The handles of a bus and what they lead to. -/
structure Handles (γ τ : Type) where
  /-- The lists of sinks, by their addresses. -/
  lists : List (List Sink)
  /-- The address that each handle holds. -/
  addresses : List Nat
  held : Held γ τ

namespace Handles

/-- Something that is done through a handle. -/
inductive Call
  | clone (handle : Nat)
  | perform (handle : Nat) (c : Bus.Command)
  deriving DecidableEq, Repr

variable {γ τ : Type} (outlets : Outlets γ τ) (s : Handles γ τ)

/-- One handle that leads to a bus. -/
def ofBus (b : Bus γ τ) : Handles γ τ :=
  ⟨[b.sinks], [0], b.toHeld⟩

/-- The bus at an address. -/
def busAt (address : Nat) : Bus γ τ :=
  ⟨s.held, s.lists.getD address []⟩

/-- The bus to which a handle leads. -/
def bus? (handle : Nat) : Option (Bus γ τ) :=
  s.addresses[handle]?.map s.busAt

/-- Carries out a call. Returns the event that was received. -/
def call : Call → Option Event × Handles γ τ
  | .clone handle =>
    match s.addresses[handle]? with
    | none => (none, s)
    | some address => (none, { s with addresses := s.addresses ++ [address] })
  | .perform handle c =>
    match s.addresses[handle]? with
    | none => (none, s)
    | some address =>
      let (event, b) := (s.busAt address).perform outlets c
      (event, { s with lists := s.lists.set address b.sinks, held := b.toHeld })

/-- What is left of a bus and its clones after a list of calls. -/
def callAll (calls : List Call) : Handles γ τ :=
  calls.foldl (fun s c => (s.call outlets c).2) s

/-- Whether a call asks for the next event of a channel. -/
def Call.receivesFrom (number : Nat) : Call → Bool
  | .perform _ c => c = .receive number
  | .clone _ => false

/-- The events that a list of calls receives from a channel. -/
def received (number : Nat) : Handles γ τ → List Call → List Event
  | _, [] => []
  | s, c :: calls =>
    let (event, later) := s.call outlets c
    (if c.receivesFrom number then event.toList else []) ++ received number later calls

end Handles

end StepFlow
