import StepFlow.Diagnostic
import StepFlow.Json.Merge
import StepFlow.Layout.Synthesis
import StepFlow.Storage.Flow
import StepFlow.Store.Context

/-!
# The store

The flow that is being authored, together with the state of its current run.

## Main definitions

* `Pointers`: where a run stands in its plan.
* `Store`: the flow and its run. The operations on it are functions from stores to stores.
* `StoreError`: why an operation on a node failed.

## Design notes

Ids of new nodes come from the caller. A node id may occur more than once if the store was filled
with such a graph; an operation on a node then concerns the first one.
-/

namespace StepFlow

open Json (Object Value)

/-- The name of a flow that was never named. -/
def untitled : String := "Untitled Flow"

/-- Where a run stands. -/
structure Pointers where
  current : Option String := none
  next : Option String := none
  deriving DecidableEq, Repr, Inhabited

/-- Why an operation on a node failed. -/
inductive StoreError
  | duplicateNode (id : String)
  | unknownNode (id : String)
  deriving DecidableEq, Repr

/-- How an error of the store is reported. -/
def StoreError.diagnostic : StoreError → Diagnostic
  | duplicateNode id =>
    { code := "flowweave::store::duplicate_node"
      message := s!"node {id} already exists" }
  | unknownNode id =>
    { code := "flowweave::store::unknown_node"
      message := s!"node {id} does not exist" }

/-- How many nodes and edges a merge appended. -/
structure MergeSummary where
  nodesAdded : Nat
  edgesAdded : Nat
  deriving DecidableEq, Repr, Inhabited

/-- The flow that is being authored and the state of its run. -/
structure Store where
  flowId : Option String := none
  name : String := untitled
  graph : Graph := {}
  pointers : Pointers := {}
  context : Context := {}
  deriving Inhabited

/-- The settings of an agent that was added on the canvas. -/
def agentConfig : Object :=
  [("assigned_flow_ids", .arr []), ("behavior", .str "default"), ("context_mode", .str "standard"),
    ("cooldown_seconds", .int 30), ("created_by", .str "flowweave"), ("default_flow_id", .str "")]

/-- A new agent at the given place. -/
def Node.agent (id : String) (position : Position) : Node where
  id := id
  kind := some .agent
  label := some "Agent"
  run := some "runAgent"
  config := agentConfig
  position := position

/-- Applies a function to the first node with an id. -/
def modifyNode (id : String) (f : Node → Node) : List Node → List Node
  | [] => []
  | n :: rest => if n.id = id then f n :: rest else n :: modifyNode id f rest

/-- Appends the nodes of `extra` one after the other, each unless its id is taken. Also returns how
many were appended. -/
def mergeNodes (nodes : List Node) : List Node → List Node × Nat
  | [] => (nodes, 0)
  | n :: extra =>
    if nodes.any fun known => known.id = n.id then mergeNodes nodes extra
    else
      let (merged, added) := mergeNodes (nodes ++ [n]) extra
      (merged, added + 1)

namespace Store

variable (s : Store)

/-- The store of an unsaved graph. -/
def ofGraph (g : Graph) : Store := { graph := g }

/-- The store with other nodes. -/
def withNodes (nodes : List Node) : Store :=
  { s with graph := { s.graph with nodes } }

/-- The store with other edges. -/
def withEdges (edges : List Edge) : Store :=
  { s with graph := { s.graph with edges } }

/-- The nodes that refer to a flow which is not composed under them yet. -/
def pendingSubflows : List Node :=
  s.graph.nodes.filter fun n =>
    n.subflowId?.isSome && !s.graph.nodes.any fun child => child.isUnder n.id

/-- Whether some node was composed under the given one. -/
def hasSubflow (parent : String) : Bool :=
  s.graph.nodes.any fun n => n.isUnder parent

/-- Sets the id and the name of the flow. -/
def setMetadata (flowId : Option String) (name : String) : Store :=
  { s with flowId, name }

/-- Sets the id of the flow. -/
def setFlowId (flowId : String) : Store :=
  { s with flowId := some flowId }

/-- Forgets the pointers and the results of the run. -/
def resetRun : Store :=
  { s with pointers := {}, context := {} }

/-- Drops the graph and the state of the run. -/
def clear : Store :=
  { s with graph := {} }.resetRun

/-- The store of a flow from storage. Neighbours in its layout are chained as far as the stored
edges leave room, the stored pointers are taken over, and nothing is recorded yet. -/
def load (flowId : String) (flow : PersistedFlow) : Store where
  flowId := some flowId
  name := flow.name.getD untitled
  graph := ⟨flow.nodes, (mergeEdges flow.edges (sequentialChain flow.nodes)).1⟩
  pointers := ⟨flow.current, flow.next⟩

/-- Appends a node with a new id. -/
def addNode (n : Node) : Except StoreError Store :=
  if s.graph.hasNode n.id then .error (.duplicateNode n.id)
  else .ok (s.withNodes (s.graph.nodes ++ [n]))

/-- Appends a new agent; its id is not looked up. -/
def addAgent (id : String) (position : Position) : Store :=
  s.withNodes (s.graph.nodes ++ [.agent id position])

/-- Removes a node and the edges that touch it. -/
def removeNode (id : String) : Except StoreError (Node × Store) :=
  match s.graph.node? id with
  | none => .error (.unknownNode id)
  | some n =>
    .ok (n, { s with graph :=
      ⟨s.graph.nodes.eraseP fun m => m.id = id, s.graph.edges.filter fun e => !e.touches id⟩ })

/-- Applies a function to a node. -/
def updateNode (id : String) (f : Node → Node) : Except StoreError Store :=
  if s.graph.hasNode id then .ok (s.withNodes (modifyNode id f s.graph.nodes))
  else .error (.unknownNode id)

/-- Moves a node to another place. -/
def moveNode (id : String) (position : Position) : Except StoreError Store :=
  s.updateNode id fun n => { n with position }

/-- Merges a patch into the settings of a node. -/
def patchConfig (id : String) (patch : Object) : Except StoreError Store :=
  s.updateNode id fun n => { n with config := n.config.deepMerge patch }

/-- Appends an edge unless it clashes with one that is there; says whether it was appended. -/
def addEdge (e : Edge) : Bool × Store :=
  let (edges, added) := mergeEdges s.graph.edges [e]
  (added = 1, s.withEdges edges)

/-- Joins two nodes by a sequential edge unless they are joined already. Returns the id of the edge
between them. -/
def connect (source target : String) : Except StoreError (String × Store) :=
  if !s.graph.hasNode source then .error (.unknownNode source)
  else if !s.graph.hasNode target then .error (.unknownNode target)
  else
    match s.graph.edgeBetween? source target with
    | some e => .ok (e.id, s)
    | none =>
      .ok (sequentialId source target,
        s.withEdges (s.graph.edges ++ [.sequential source target]))

/-- Removes the first edge with an id and returns it. -/
def removeEdge (id : String) : Option Edge × Store :=
  (s.graph.edges.find? fun e => e.id = id,
    s.withEdges (s.graph.edges.eraseP fun e => e.id = id))

/-- Fills the gaps of the graph; returns how many edges were added. -/
def fillGaps (mode : GapMode) : Nat × Store :=
  let edges := StepFlow.fillGaps s.graph.nodes s.graph.edges mode
  (edges.length - s.graph.edges.length, s.withEdges edges)

/-- Appends the nodes and edges of another graph as far as they do not clash. -/
def merge (g : Graph) : MergeSummary × Store :=
  let (nodes, nodesAdded) := mergeNodes s.graph.nodes g.nodes
  let (edges, edgesAdded) := mergeEdges s.graph.edges g.edges
  (⟨nodesAdded, edgesAdded⟩, { s with graph := ⟨nodes, edges⟩ })

/-- The ids of the nodes composed under the given one, each once. -/
def subflowIds (parent : String) : List String :=
  ((s.graph.nodes.filter fun n => n.isUnder parent).map (·.id)).eraseDups

/-- Removes the nodes composed under the given one, all nodes that share an id with them, and the
edges that touch them. Returns the number of ids removed. -/
def removeSubflow (parent : String) : Nat × Store :=
  let removed := s.subflowIds parent
  (removed.length, { s with graph :=
    ⟨s.graph.nodes.filter fun n => !removed.contains n.id,
      s.graph.edges.filter fun e => !(removed.contains e.source || removed.contains e.target)⟩ })

/-- Sets the pointers of the run. -/
def setPointers (pointers : Pointers) : Store :=
  { s with pointers }

/-- Records the result of a step. -/
def record (step : String) (result : Value) : Store :=
  { s with context := s.context.record step result }

end Store

end StepFlow
