import StepFlow.Keyed
import StepFlow.Storage.Source
import StepFlow.Wire.Storage

/-!
# Repositories

A collection of flows in memory. It saves and loads flows for runs and is a source of flows for
composition.

## Main definitions

* `Repository`: the stored entries by flow id.
* `Repository.insert`: stores a flow under a new id.
* `Repository.save`, `Repository.load`: what a run asks of storage.
* `Repository.source`: the flows in the shape in which they were stored.
* `PersistenceError`: why saving or loading failed.

## Design notes

New ids come from the caller. Saving a flow under a known id keeps the successor that is stored with
it, since the record of a run says nothing about it.
-/

namespace StepFlow

/-- Why a flow could not be saved or loaded. -/
inductive PersistenceError
  | notFound (flow : String)
  | backend (reason : String)
  deriving DecidableEq, Repr

/-- How an error of storage is reported. -/
def PersistenceError.diagnostic : PersistenceError → Diagnostic
  | notFound flow =>
    { code := "flowweave::persistence::not_found"
      message := s!"flow {flow} not found" }
  | backend reason =>
    { code := "flowweave::persistence::backend"
      message := s!"storage backend error: {reason}"
      help := some "The flow was not saved; approving again retries the save." }

/-- A flow in the repository. -/
structure Entry where
  name : String
  flow : StoredFlow
  current : Option String := none
  next : Option String := none
  deriving Inhabited

/-- The flow as a run gets it back. -/
def Entry.toPersisted (e : Entry) : PersistedFlow where
  name := some e.name
  nodes := e.flow.toGraph.nodes
  edges := e.flow.toGraph.edges
  current := e.current
  next := e.next

/-- Flows by their ids. -/
abbrev Repository := KeyMap Entry

namespace Repository

variable (r : Repository)

/-- Stores a flow under a new id. -/
def store (id name : String) (flow : StoredFlow) : Repository :=
  r.insert id { name, flow }

/-- Stores a flow given as JSON under a new id. -/
def storeJson (id name : String) (v : Json.Value) : Except SourceError Repository := do
  return store r id name (← StoredFlow.ofJson v)

/-- The entry for a record; what is stored under its id keeps its successor. -/
def entryFor (id : String) (record : FlowRecord) : Entry where
  name := record.name
  flow := .graph ⟨record.nodes, record.edges⟩
  current := record.current
  next := (r.get? id).bind (·.next)

/-- Saves a record under its flow's id, or under the new id if the flow has none. Returns the id in
use. -/
def save (newId : String) (flow : Option String) (record : FlowRecord) : String × Repository :=
  let id := flow.getD newId
  (id, r.insert id (entryFor r id record))

/-- The flow with an id, as a run gets it. -/
def load (flow : String) : Except PersistenceError PersistedFlow :=
  match r.get? flow with
  | some entry => .ok entry.toPersisted
  | none => .error (.notFound flow)

/-- The flow with an id, in the shape in which it was stored. -/
def source : Source := fun flow =>
  match r.get? flow with
  | some entry => .ok entry.flow
  | none => .error (.notFound flow)

end Repository

end StepFlow
