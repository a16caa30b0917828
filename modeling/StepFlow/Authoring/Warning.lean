import StepFlow.Authoring.Registry
import StepFlow.Diagnostic
import StepFlow.Flow.Graph

/-!
# Authoring warnings

Problems of a graph that never stop a run: edges that lead nowhere, handlers that nobody knows, and
arguments that nobody supplies.

## Main definitions

* `AuthoringWarning`: a problem of a graph.
* `Node.signature`: what the handler of a node expects, as the node itself restates it.
* `warnings`: all problems of a graph, those of the edges first.
-/

namespace StepFlow

/-- A problem of a graph that does not stop a run. -/
inductive AuthoringWarning
  | danglingSource (edge source : String)
  | danglingTarget (edge target : String)
  | unknownHandler (node run : String)
  | missingArgument (node run argument : String)
  deriving DecidableEq, Repr

namespace AuthoringWarning

/-- The node or edge that the warning is about. -/
def subject : AuthoringWarning → String
  | danglingSource edge _ => edge
  | danglingTarget edge _ => edge
  | unknownHandler node _ => node
  | missingArgument node _ _ => node

/-- How a warning is reported. -/
def diagnostic : AuthoringWarning → Diagnostic
  | danglingSource edge source =>
    { code := "flowweave::authoring::dangling_source"
      message := s!"edge {edge} starts at unknown node {source}" }
  | danglingTarget edge target =>
    { code := "flowweave::authoring::dangling_target"
      message := s!"edge {edge} points at unknown node {target}"
      help := some "Delete the edge or restore the node it pointed at." }
  | unknownHandler node run =>
    { code := "flowweave::authoring::unknown_handler"
      message := s!"node {node} uses unregistered handler {run}" }
  | missingArgument node run argument =>
    { code := "flowweave::authoring::missing_argument"
      message := s!"node {node} is missing required argument {argument} for handler {run}" }

end AuthoringWarning

/-- The specs that a node states for its own arguments. Entries of another shape say nothing. -/
def Node.ownSpecs (n : Node) : Keyed ArgSpec :=
  n.argsSchema.filterMap fun (name, v) => (ArgSpec.fromJson v).toOption.map fun spec => (name, spec)

/-- What the handler of a node expects: the registered specs, overridden by the node's own. -/
def Node.signature (n : Node) (registered : Signature) : Signature :=
  registered.insertAll n.ownSpecs

/-- The handler that a node names. -/
def Node.handler? (n : Node) : Option String :=
  n.run.filter fun run => run ≠ ""

/-- The ends of an edge that are no nodes. -/
def Edge.warnings (e : Edge) (ids : List String) : List AuthoringWarning :=
  (if ids.contains e.source then [] else [.danglingSource e.id e.source])
    ++ if ids.contains e.target then [] else [.danglingTarget e.id e.target]

/-- The arguments that a node has to supply and does not, in the order of their names. -/
def Node.missingArguments (n : Node) (signature : Signature) : List String :=
  (signature.entries.filter fun (name, spec) =>
    spec.mustBeSupplied && !Keyed.contains n.args name).map (·.1)

/-- The problems of a node's handler. A node that names none is not looked up. -/
def Node.warnings (n : Node) (registry : Registry) : List AuthoringWarning :=
  match n.handler? with
  | none => []
  | some run =>
    match registry.get? run with
    | none => [.unknownHandler n.id run]
    | some registered =>
      (n.missingArguments (n.signature registered)).map (.missingArgument n.id run ·)

/-- The problems of a graph. Without a registry only the edges are looked at. -/
def warnings (nodes : List Node) (edges : List Edge) (registry : Option Registry) :
    List AuthoringWarning :=
  let ids := nodes.map (·.id)
  edges.flatMap (·.warnings ids) ++
    match registry with
    | none => []
    | some known => nodes.flatMap (·.warnings known)

end StepFlow
