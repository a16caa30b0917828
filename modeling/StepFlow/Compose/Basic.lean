import StepFlow.Compose.Fragment
import StepFlow.Event.Notice
import StepFlow.Storage.Source
import StepFlow.Store.Basic

/-!
# Composition

Merging the flows that nodes refer to into the flow that is being authored.

## Main definitions

* `ComposeError`: why a flow was not composed.
* `Composer`: where flows come from and how their gaps are filled.
* `Composer.compose`: composes the flow of one node.
* `Composer.composePending`: composes the flows of all nodes that wait for it.
* `Composer.composeAll`: the same with a source that always answers alike.

## Design notes

Each result lists the ids that the source was asked for and the notices that were given, in order.
All pending flows are fetched before the first one is merged, so the nodes that a merge brings in
wait for the next time. They are fetched at the same time, each by a request of its own. A source
may be unavailable for one of them and not for the next, even if both ask for the same flow, so each
request has its own answers.
-/

namespace StepFlow

/-- Why the flow of a node was not composed. -/
inductive ComposeError
  | missingParent (parent : String)
  | noSubflow (parent : String)
  | alreadyComposed (parent : String)
  | fetch (parent flow : String) (cause : SourceError)
  | emptySubflow (parent flow : String)
  deriving DecidableEq, Repr

namespace ComposeError

/-- The node that the error concerns. -/
def parent : ComposeError → String
  | missingParent parent => parent
  | noSubflow parent => parent
  | alreadyComposed parent => parent
  | fetch parent _ _ => parent
  | emptySubflow parent _ => parent

/-- How a failed composition is reported. -/
def diagnostic : ComposeError → Diagnostic
  | missingParent parent =>
    { code := "flowweave::compose::missing_parent"
      message := s!"parent node {parent} does not exist" }
  | noSubflow parent =>
    { code := "flowweave::compose::no_subflow"
      message := s!"node {parent} does not reference a subflow"
      help := some "Set config.default_flow_id on the node first." }
  | alreadyComposed parent =>
    { code := "flowweave::compose::already_composed"
      message := s!"subflow of {parent} is already composed"
      help := some "Remove the existing composition before composing it again." }
  | fetch parent flow cause =>
    .causedBy "flowweave::compose::fetch" s!"failed to fetch subflow {flow} for {parent}"
      cause.diagnostic
  | emptySubflow parent flow =>
    { code := "flowweave::compose::empty_subflow"
      message := s!"subflow {flow} for {parent} has no nodes" }

/-- The notice of a failed composition. -/
def notice (e : ComposeError) : Notice :=
  .error .composition e.diagnostic.message (some e.parent)

end ComposeError

/-- The notice of a merged fragment. -/
def Fragment.notice (f : Fragment) (summary : MergeSummary) : Notice :=
  .info .composition
    (s!"composed subflow {f.flow}: " ++
      s!"{summary.nodesAdded} nodes, {summary.edgesAdded} edges")
    f.parent

/-- Where flows come from and how their gaps are filled. -/
structure Composer where
  source : Source
  mode : GapMode := .default

/-- What came of composing the flow of one node. -/
structure Composition where
  result : Except ComposeError MergeSummary
  store : Store
  notices : List Notice
  /-- The ids that the source was asked for. -/
  fetched : List String

/-- What came of composing all pending flows. -/
structure CompositionReport where
  composed : List (String × MergeSummary) := []
  failed : List ComposeError := []
  store : Store
  notices : List Notice := []
  fetched : List String := []

namespace CompositionReport

/-- Whether nothing failed. -/
def isClean (r : CompositionReport) : Bool :=
  r.failed.isEmpty

end CompositionReport

namespace Composer

variable (c : Composer)

/-- The fragment for a node, with its flow fetched from the source. -/
def fetchFragment (parent : Node) : Except ComposeError Fragment :=
  match parent.subflowId? with
  | none => .error (.noSubflow parent.id)
  | some flow =>
    match c.source flow with
    | .error cause => .error (.fetch parent.id flow cause)
    | .ok stored =>
      let fragment := stored.fragment parent flow c.mode
      if fragment.graph.isEmpty then .error (.emptySubflow parent.id flow) else .ok fragment

/-- The node to compose under, if its flow may be fetched. -/
def candidate (s : Store) (parent : String) : Except ComposeError Node :=
  match s.graph.node? parent with
  | none => .error (.missingParent parent)
  | some n => if s.hasSubflow parent then .error (.alreadyComposed parent) else .ok n

/-- Merges a fragment into the store, or reports why there is none. -/
def merge (s : Store) (fetched : List String) :
    Except ComposeError Fragment → Composition
  | .error e => ⟨.error e, s, [e.notice], fetched⟩
  | .ok fragment =>
    let (summary, s) := s.merge fragment.graph
    ⟨.ok summary, s, [fragment.notice summary], fetched⟩

/-- Composes the flow that a node refers to. -/
def compose (s : Store) (parent : String) : Composition :=
  match candidate s parent with
  | .error e => merge s [] (.error e)
  | .ok n => merge s n.subflowId?.toList (c.fetchFragment n)

/-- The report after the fragment of one more node, or after the error that took its place. -/
def addFragment (r : CompositionReport) : Except ComposeError Fragment → CompositionReport
  | .error e => { r with failed := r.failed ++ [e], notices := r.notices ++ [e.notice] }
  | .ok fragment =>
    let (summary, store) := r.store.merge fragment.graph
    { r with
      composed := r.composed ++ [(fragment.parent, summary)]
      store := store
      notices := r.notices ++ [fragment.notice summary] }

/-- Composes the flows of the given nodes in their order, each as the source beside it answers. -/
def composeEach (mode : GapMode) (s : Store) (requests : List (Node × Source)) :
    CompositionReport :=
  (requests.map fun (n, source) => fetchFragment ⟨source, mode⟩ n).foldl addFragment
    { store := s, fetched := requests.filterMap fun (n, _) => n.subflowId? }

/-- The requests for all pending flows, in node order, with the answers to each of them. -/
def requests (s : Store) (answers : Nat → Source) : List (Node × Source) :=
  s.pendingSubflows.mapIdx fun i n => (n, answers i)

/-- Composes the flows of all nodes that wait for it, in node order. The requests are answered one
by one. -/
def composePending (mode : GapMode) (answers : Nat → Source) (s : Store) : CompositionReport :=
  composeEach mode s (requests s answers)

/-- Composes the flows of all nodes that wait for it, in node order. All requests are answered
alike. -/
def composeAll (s : Store) : CompositionReport :=
  composePending c.mode (fun _ => c.source) s

end Composer

end StepFlow
