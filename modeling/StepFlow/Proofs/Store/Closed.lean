import StepFlow.Authoring.Warning
import StepFlow.Proofs.Layout.Chain
import StepFlow.Proofs.Store.Revision

/-!
# Edges between nodes that are there

What edits infer or copy joins nodes that are there: a connection looks for both ends, inferred
edges join neighbours of the layout, and a fragment has a copy of each end of an edge of the flow.
What takes nodes out takes along the edges that touch them. So a dangling edge can only come in from
outside.

## Main definitions

* `Graph.Closed`: a graph whose edges join its nodes.
* `Store.ClosedInput`: what a command has to grant.

## Main statements

* `Graph.Closed.revision`: every edit keeps a graph closed.
* `closed_iff_no_warning`: closed graphs are those without a warning about an edge.
* `closed_editAll`: both, for all commands.
-/

namespace StepFlow

namespace Graph

/-- Whether both ends of every edge are nodes of the graph. -/
def Closed (g : Graph) : Prop :=
  ∀ e ∈ g.edges, e.Within g.nodes

instance (g : Graph) : Decidable g.Closed :=
  inferInstanceAs (Decidable (∀ e ∈ g.edges, e.Within g.nodes))

variable {g more : Graph}

/-- Merging keeps a graph closed if what is brought in joins old and new nodes. -/
theorem Closed.merge (h : g.Closed) (hmore : ∀ e ∈ more.edges, e.Within (g.nodes ++ more.nodes)) :
    (g.merge more).Closed := by
  have hold : nodeIds g.nodes ⊆ nodeIds (g.merge more).nodes := fun _ hid =>
    mem_nodeIds_merge.2 (.inl hid)
  have hall : nodeIds (g.nodes ++ more.nodes) ⊆ nodeIds (g.merge more).nodes := by
    intro id hid
    rw [nodeIds_append, List.mem_append] at hid
    exact mem_nodeIds_merge.2 hid
  intro e he
  rcases List.mem_append.1 he with he | he
  · exact (h e he).mono hold
  · exact (hmore e (mem_of_mem_newcomers he)).mono hall

theorem Closed.merge_closed (h : g.Closed) (hmore : more.Closed) : (g.merge more).Closed :=
  h.merge fun e he => (hmore e he).mono (by
    rw [nodeIds_append]
    exact List.subset_append_right _ _)

end Graph

theorem within_sequential {nodes : List Node} {a b : Node} (ha : a ∈ nodes) (hb : b ∈ nodes) :
    (Edge.sequential a.id b.id).Within nodes :=
  ⟨List.mem_map_of_mem ha, List.mem_map_of_mem hb⟩

theorem within_of_mem_layoutEdges {nodes : List Node} {e : Edge} (h : e ∈ layoutEdges nodes) :
    e.Within nodes := by
  obtain ⟨a, ha, b, hb, rfl⟩ := mem_layoutEdges h
  exact within_sequential ha hb

/-- The edges of a fragment join the node that it is for and the copies. -/
theorem StoredFlow.within_fragment {flow : StoredFlow} (h : flow.toGraph.Closed) {parent : Node}
    {nodes : List Node} (hparent : parent ∈ nodes) (flowId : String) (mode : GapMode) :
    ∀ e ∈ (flow.fragment parent flowId mode).graph.edges,
      e.Within (nodes ++ (flow.fragment parent flowId mode).graph.nodes) := by
  have hcopy : ∀ id ∈ nodeIds flow.toGraph.nodes, namespacedId parent.id id ∈
      nodeIds (nodes ++ (flow.fragment parent flowId mode).graph.nodes) := by
    intro id hid
    obtain ⟨m, hm, rfl⟩ := List.mem_map.1 hid
    obtain ⟨copy, hcopy, hid⟩ := exists_mem_fragment_nodes hm
    exact hid ▸ List.mem_map_of_mem (List.mem_append_right _ hcopy)
  intro e he
  rcases mem_fragment_edges he with ⟨n, hn, rfl⟩ | ⟨e', he', rfl⟩ | ⟨a, ha, b, hb, rfl⟩
  · exact ⟨List.mem_map_of_mem (List.mem_append_left _ hparent),
      List.mem_map_of_mem (List.mem_append_right _ hn)⟩
  · exact ⟨hcopy _ (h e' he').1, hcopy _ (h e' he').2⟩
  · exact within_sequential (List.mem_append_right _ ha) (List.mem_append_right _ hb)

/-- Whether the flow that is composed under a node joins its own nodes. -/
def Composer.SuppliesClosed (c : Composer) (n : Node) : Prop :=
  ∀ flow stored, n.subflowId? = some flow → c.source flow = .ok stored → stored.toGraph.Closed

namespace Composer

variable {c : Composer} {n : Node} {nodes parents : List Node}

theorem within_fragmentGraph (h : c.SuppliesClosed n) (hn : n ∈ nodes) :
    ∀ e ∈ (c.fragmentGraph n).edges, e.Within (nodes ++ (c.fragmentGraph n).nodes) := by
  rw [fragmentGraph]
  cases hf : c.fetchFragment n with
  | error e => exact fun e he => absurd he List.not_mem_nil
  | ok f =>
    obtain ⟨flow, stored, hflow, hstored, rfl⟩ := of_fetchFragment hf
    exact StoredFlow.within_fragment (h flow stored hflow hstored) hn flow c.mode

theorem within_fragmentGraphs (h : ∀ n ∈ parents, c.SuppliesClosed n) (hsub : parents ⊆ nodes) :
    ∀ e ∈ (c.fragmentGraphs parents).edges,
      e.Within (nodes ++ (c.fragmentGraphs parents).nodes) := by
  induction parents with
  | nil => exact fun e he => absurd he List.not_mem_nil
  | cons n parents ih =>
    obtain ⟨hn, hparents⟩ := List.cons_subset.1 hsub
    intro e he
    have hnodes : (c.fragmentGraphs (n :: parents)).nodes =
        (c.fragmentGraph n).nodes ++ (c.fragmentGraphs parents).nodes := rfl
    rcases List.mem_append.1 he with he | he
    · refine (within_fragmentGraph (h n List.mem_cons_self) hn e he).mono ?_
      simp only [hnodes, nodeIds_append]
      grind
    · refine (ih (fun m hm => h m (List.mem_cons_of_mem _ hm)) hparents e he).mono ?_
      simp only [hnodes, nodeIds_append]
      grind

end Composer

/-- Whether what a command brings in from outside joins nodes that are there: an edge those of the
store, a graph, a flow that is loaded and a flow that is composed their own ones. -/
def Store.ClosedInput (s : Store) : Store.Command → Prop
  | .addEdge e => e.Within s.graph.nodes
  | .merge g => g.Closed
  | .compose c parent => ∀ n, Composer.candidate s parent = .ok n → c.SuppliesClosed n
  | .composeAll c => ∀ n ∈ s.pendingSubflows, c.SuppliesClosed n
  | .load _ flow => flow.graph.Closed
  | _ => True

theorem Composer.mem_of_candidate {s : Store} {parent : String} {n : Node}
    (h : candidate s parent = .ok n) : n ∈ s.graph.nodes :=
  (Graph.of_node? (of_candidate h).1).1

/-- Every edit keeps a graph closed. -/
theorem Graph.Closed.revision {s : Store} {c : Store.Command} {g : Graph} (h : s.graph.Closed)
    (hinput : s.ClosedInput c) (hrevision : s.Revision c g) : g.Closed := by
  cases hrevision with
  | merged hbrings =>
    cases hbrings with
    | node n => exact h.merge fun e he => absurd he List.not_mem_nil
    | edge e =>
      refine h.merge fun e' he' => ?_
      rw [List.mem_singleton.1 he', List.append_nil]
      exact hinput
    | gaps mode =>
      refine h.merge fun e he => ?_
      rw [List.append_nil]
      exact within_of_mem_layoutEdges (mem_gapEdges.1 he).1
    | graph more => exact h.merge_closed hinput
    | fragment c hn =>
      exact h.merge (Composer.within_fragmentGraph (hinput _ hn) (Composer.mem_of_candidate hn))
    | fragments c =>
      have hsub : s.pendingSubflows ⊆ s.graph.nodes := fun _ hn =>
        (Store.mem_pendingSubflows.1 hn).1
      exact h.merge (Composer.within_fragmentGraphs hinput hsub)
  | trimmed _ hedges hwithin => exact fun e he => hwithin e he (h e (hedges.subset he))
  | altered hids => exact fun e he => (h e he).mono fun _ hid => hids ▸ hid
  | agent id position =>
    refine fun e he => (h e (by simpa using he)).mono ?_
    rw [nodes_append, nodeIds_append]
    exact List.subset_append_left _ _
  | joined hwithin _ =>
    intro e he
    rw [nodes_append, List.append_nil]
    rcases List.mem_append.1 he with he | he
    · exact h e he
    · exact List.mem_singleton.1 he ▸ hwithin
  | loaded flowId flow =>
    refine Closed.merge hinput fun e he => ?_
    rw [List.append_nil]
    exact within_of_mem_layoutEdges (mem_sequentialChain.1 he)

section

variable {nodes : List Node} {edges : List Edge} {registry : Option Registry} {edge id : String}

theorem of_mem_node_warnings {n : Node} {known : Registry} {w : AuthoringWarning}
    (h : w ∈ n.warnings known) :
    (∃ run, w = .unknownHandler n.id run) ∨ ∃ run name, w = .missingArgument n.id run name := by
  unfold Node.warnings at h
  split at h
  · cases h
  · next run _ =>
    split at h
    · exact .inl ⟨run, List.mem_singleton.1 h⟩
    · obtain ⟨name, -, rfl⟩ := List.mem_map.1 h
      exact .inr ⟨run, name, rfl⟩

/-- Whatever a registry says is not about edges. -/
theorem mem_warnings_of_edge {w : AuthoringWarning}
    (hhandler : ∀ node run, w ≠ .unknownHandler node run)
    (hargument : ∀ node run name, w ≠ .missingArgument node run name) :
    w ∈ warnings nodes edges registry ↔ ∃ e ∈ edges, w ∈ e.warnings (nodeIds nodes) := by
  cases registry with
  | none =>
    rw [warnings, List.append_nil]
    exact List.mem_flatMap
  | some known =>
    rw [warnings, List.mem_append]
    refine (or_iff_left fun h => ?_).trans List.mem_flatMap
    obtain ⟨n, -, hn⟩ := List.mem_flatMap.1 h
    rcases of_mem_node_warnings hn with ⟨run, rfl⟩ | ⟨run, name, rfl⟩
    · exact hhandler _ _ rfl
    · exact hargument _ _ _ rfl

theorem danglingSource_mem_warnings_iff :
    .danglingSource edge id ∈ warnings nodes edges registry ↔
      ∃ e ∈ edges, e.id = edge ∧ e.source = id ∧ id ∉ nodeIds nodes := by
  rw [mem_warnings_of_edge (by simp) (by simp)]
  refine exists_congr fun e => and_congr_right fun _ => ?_
  rw [Edge.warnings]
  grind

theorem danglingTarget_mem_warnings_iff :
    .danglingTarget edge id ∈ warnings nodes edges registry ↔
      ∃ e ∈ edges, e.id = edge ∧ e.target = id ∧ id ∉ nodeIds nodes := by
  rw [mem_warnings_of_edge (by simp) (by simp)]
  refine exists_congr fun e => and_congr_right fun _ => ?_
  rw [Edge.warnings]
  grind

end

/-- No edge dangles exactly if there is no warning about one. -/
theorem closed_iff_no_warning (g : Graph) (registry : Option Registry) :
    g.Closed ↔ ∀ edge id, .danglingSource edge id ∉ warnings g.nodes g.edges registry ∧
      .danglingTarget edge id ∉ warnings g.nodes g.edges registry := by
  simp only [danglingSource_mem_warnings_iff, danglingTarget_mem_warnings_iff]
  constructor
  · intro h edge id
    constructor
    · rintro ⟨e, he, -, rfl, hout⟩
      exact hout (h e he).1
    · rintro ⟨e, he, -, rfl, hout⟩
      exact hout (h e he).2
  · intro h e he
    constructor
    · by_contra hout
      exact (h e.id e.source).1 ⟨e, he, rfl, rfl, hout⟩
    · by_contra hout
      exact (h e.id e.target).2 ⟨e, he, rfl, rfl, hout⟩

/-- As long as the edges that come in from outside join nodes, both ends of every edge are nodes,
and nothing is reported about an edge, whichever handlers are known. The empty store may be the
first one. -/
theorem closed_editAll {s : Store} {commands : List Store.Command} (h : s.graph.Closed)
    (hinput : s.Permits Store.ClosedInput commands) :
    let g := (s.editAll commands).graph
    (∀ e ∈ g.edges, e.source ∈ nodeIds g.nodes ∧ e.target ∈ nodeIds g.nodes) ∧
      ∀ registry edge id, .danglingSource edge id ∉ warnings g.nodes g.edges registry ∧
        .danglingTarget edge id ∉ warnings g.nodes g.edges registry := by
  have hclosed : (s.editAll commands).graph.Closed :=
    hinput.keeps (fun s c hs hc => hs.revision hc (s.revision_edit c)) h
  exact ⟨hclosed, fun registry => (closed_iff_no_warning _ registry).1 hclosed⟩

/-- A flow is composed under one of two nodes and the other one is taken out. -/
theorem closed_editAll_of_session :
    let composer : Composer := {
      source := fun _ => .ok (.graph ⟨[{ id := "x" }, { id := "y" }], [⟨"1", "y", "x", none⟩]⟩) }
    let commands : List Store.Command := [.addNode { id := "a", config := [(subflowKey, .str "f")] },
      .addNode { id := "b" }, .addEdge ⟨"1", "b", "a", none⟩, .composeAll composer,
      .merge ⟨[{ id := "b" }, { id := "c" }], [⟨"2", "c", "b", none⟩]⟩, .removeNode "b",
      .removeSubflow "a", .compose composer "a"]
    ({} : Store).graph.Closed ∧ ({} : Store).Permits Store.ClosedInput commands ∧
      (({} : Store).editAll commands).graph.Closed := by
  intro composer commands
  have hempty : ({} : Store).graph.Closed := fun e he => absurd he List.not_mem_nil
  have hflow : ∀ n, composer.SuppliesClosed n := by
    rintro n flow stored - ⟨⟩
    decide
  have hedge : (Edge.mk "1" "b" "a" none).Within [{ id := "a" }, { id := "b" }] := by decide
  have hgraph : (⟨[{ id := "b" }, { id := "c" }], [⟨"2", "c", "b", none⟩]⟩ : Graph).Closed := by
    decide
  have hinput : ({} : Store).Permits Store.ClosedInput commands :=
    ⟨trivial, trivial, hedge, fun n _ => hflow n, hgraph, trivial, trivial, fun n _ => hflow n,
      trivial⟩
  exact ⟨hempty, hinput, (closed_editAll hempty hinput).1⟩

end StepFlow
