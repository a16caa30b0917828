import Mathlib.Data.List.Sort
import StepFlow.Proofs.Authoring.Signature

/-!
# The report on a graph

What is reported, said without the functions that compute it: of each edge its ends that are no
nodes, and of each node that its handler is unknown or which arguments are missing. A report is
determined by this, down to the order.

## Main definitions

* `Edge.danglingEnds`: what is to be said of an edge.
* `Node.Reports`: what is to be said of a node.
* `Reports`: what is to be said of a graph.

## Main statements

* `Node.reports_iff`: what is said of a node is what is to be said.
* `warnings_exact`: so is what is said of a graph.
-/

namespace StepFlow

/-- The ends of an edge that are no nodes, the source before the target. -/
def Edge.danglingEnds (e : Edge) (nodes : List Node) : List AuthoringWarning :=
  (if ∃ n ∈ nodes, n.id = e.source then [] else [.danglingSource e.id e.source]) ++
    if ∃ n ∈ nodes, n.id = e.target then [] else [.danglingTarget e.id e.target]

/-- All that is to be said of a node: nothing if it names no handler, that the handler is unknown,
or what the node lacks, each argument once and in the order of the names. -/
inductive Node.Reports (n : Node) (known : Registry) : List AuthoringWarning → Prop
  | unnamed (hrun : n.run = none ∨ n.run = some "") : Reports n known []
  | unknown {run : String} (hrun : n.run = some run) (hne : run ≠ "")
    (hunknown : known.get? run = none) : Reports n known [.unknownHandler n.id run]
  | lacking {run : String} {registered : Signature} {names : List String}
    (hrun : n.run = some run) (hne : run ≠ "") (hknown : known.get? run = some registered)
    (hascending : names.Pairwise (· < ·))
    (hnames : ∀ name, name ∈ names ↔ n.Lacks registered name) :
    Reports n known (names.map (.missingArgument n.id run))

/-- All that is to be said of a graph: of its edges whatever is known of handlers, then of its
nodes if there is a registry. -/
def Reports (nodes : List Node) (edges : List Edge) (registry : Option Registry)
    (report : List AuthoringWarning) : Prop :=
  ∃ ofNodes : List (List AuthoringWarning),
    report = edges.flatMap (·.danglingEnds nodes) ++ ofNodes.flatten ∧
      match registry with
      | none => ofNodes = []
      | some known => List.Forall₂ (fun n ofNode => n.Reports known ofNode) nodes ofNodes

theorem Edge.warnings_eq (e : Edge) (nodes : List Node) :
    e.warnings (nodes.map (·.id)) = e.danglingEnds nodes := by
  simp [Edge.warnings, Edge.danglingEnds]

namespace Node

variable {n : Node} {known : Registry} {ofNode : List AuthoringWarning}

theorem reports_warnings (n : Node) (hschema : Keyed.Ordered n.argsSchema) (known : Registry) :
    n.Reports known (n.warnings known) := by
  cases hrun : n.handler? with
  | none =>
    simp only [warnings, hrun]
    exact .unnamed (handler?_eq_none_iff.1 hrun)
  | some run =>
    obtain ⟨hset, hne⟩ := handler?_eq_some_iff.1 hrun
    cases hknown : known.get? run with
    | none =>
      simp only [warnings, hrun, hknown]
      exact .unknown hset hne hknown
    | some registered =>
      rw [warnings_of_known hrun hknown]
      exact .lacking hset hne hknown (ascending_missingArguments n _)
        fun _ => mem_missingArguments_signature hschema

theorem eq_warnings_of_reports (hschema : Keyed.Ordered n.argsSchema)
    (h : n.Reports known ofNode) : ofNode = n.warnings known := by
  cases h with
  | unnamed hrun => simp only [warnings, handler?_eq_none_iff.2 hrun]
  | unknown hrun hne hunknown =>
    simp only [warnings, handler?_eq_some_iff.2 ⟨hrun, hne⟩, hunknown]
  | lacking hrun hne hknown hascending hnames =>
    rw [warnings_of_known (handler?_eq_some_iff.2 ⟨hrun, hne⟩) hknown]
    refine congrArg _ (hascending.eq_of_mem_iff (ascending_missingArguments n _) fun name => ?_)
    rw [hnames, mem_missingArguments_signature hschema]

theorem reports_iff (hschema : Keyed.Ordered n.argsSchema) :
    n.Reports known ofNode ↔ ofNode = n.warnings known :=
  ⟨eq_warnings_of_reports hschema, fun h => h ▸ reports_warnings n hschema known⟩

/-- Nothing is said twice of a node. -/
theorem Reports.nodup (h : n.Reports known ofNode) : ofNode.Nodup := by
  cases h with
  | unnamed => exact List.nodup_nil
  | unknown => exact List.nodup_singleton _
  | lacking _ _ _ hascending _ =>
    exact hascending.nodup.map fun _ _ heq => (AuthoringWarning.missingArgument.inj heq).2.2

end Node

theorem forall₂_reports_iff {nodes : List Node} (hschemas : ∀ n ∈ nodes, Keyed.Ordered n.argsSchema)
    {known : Registry} {ofNodes : List (List AuthoringWarning)} :
    List.Forall₂ (fun n ofNode => n.Reports known ofNode) nodes ofNodes ↔
      ofNodes = nodes.map (·.warnings known) := by
  induction nodes generalizing ofNodes with
  | nil => simp
  | cons n nodes ih =>
    obtain ⟨hn, hnodes⟩ := List.forall_mem_cons.1 hschemas
    cases ofNodes with
    | nil => simp
    | cons ofNode ofNodes => simp [Node.reports_iff hn, ih hnodes]

/-- The report on a graph is all that is to be said of it, in this order, and what comes of the
registry stands behind what is reported without one. Nothing is said twice of a node. -/
theorem warnings_exact {nodes : List Node} (hschemas : ∀ n ∈ nodes, Keyed.Ordered n.argsSchema)
    (edges : List Edge) (registry : Option Registry) :
    (∀ report, Reports nodes edges registry report ↔ report = warnings nodes edges registry) ∧
      warnings nodes edges none <+: warnings nodes edges registry ∧
      ∀ n ∈ nodes, ∀ known ofNode, n.Reports known ofNode → ofNode.Nodup := by
  refine ⟨fun report => ?_, ?_, fun n _ known ofNode h => h.nodup⟩
  · cases registry with
    | none => simp [Reports, warnings, Edge.warnings_eq]
    | some known =>
      simp only [Reports, warnings, Edge.warnings_eq, forall₂_reports_iff hschemas,
        List.flatMap_def]
      constructor
      · rintro ⟨_, rfl, rfl⟩
        rfl
      · exact fun h => ⟨_, h, rfl⟩
  · rw [warnings, List.append_nil]
    exact List.prefix_append _ _

/-- Two edges dangle, one of them at both ends; one node lacks an argument, one names a handler that
nobody knows, and one names none. -/
theorem warnings_exact_of_mail :
    let nodes : List Node := [{ id := "mail", run := some "sendEmail", argsSchema :=
      [("cc", .obj [("required", .bool true)]), ("retries", .obj [("default", .int 3)])] },
      { id := "odd", run := some "teleport" }, { id := "bare" }]
    let edges : List Edge := [⟨"1", "mail", "missing", none⟩, ⟨"2", "ghost", "gone", none⟩]
    let registered : Signature :=
      (KeyMap.empty.insert "to" { required := true }).insert "retries" { required := true }
    let known : Registry := KeyMap.empty.insert "sendEmail" registered
    (∀ n ∈ nodes, Keyed.Ordered n.argsSchema) ∧
      Reports nodes edges (some known) [.danglingTarget "1" "missing", .danglingSource "2" "ghost",
        .danglingTarget "2" "gone", .missingArgument "mail" "sendEmail" "cc",
        .missingArgument "mail" "sendEmail" "to", .unknownHandler "odd" "teleport"] := by
  intro nodes edges registered known
  have hschemas : ∀ n ∈ nodes, Keyed.Ordered n.argsSchema := by decide
  exact ⟨hschemas, ((warnings_exact hschemas edges (some known)).1 _).2 rfl⟩

end StepFlow
