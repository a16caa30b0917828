import StepFlow.Proofs.Compose.Plan
import StepFlow.Proofs.Store.Edits

/-!
# Copies of flows

A composition copies a flow below a node. Between a flow and its copy stand new names, edges that
fill gaps, the connector in front and a merge that drops what clashes. If the namespace of the node
is free and the ids of the flow are distinct, nothing of the flow is lost on the way, and the copy
is joined to the rest of the graph by the connector alone.

## Main definitions

* `Node.IsCopy`: a node and its copy.
* `Graph.Embeds`: a graph with the copy of another one below a node.

## Main statements

* `StoredFlow.copies_fragment`: the nodes of a fragment.
* `StoredFlow.exists_copy_of_edge`: no edge of the flow is lost.
* `Graph.ClearOf.filter_entering`, `Graph.ClearOf.leaving`: the edges between the copies and what was
  there.
* `compose_embeds_flow`: a composition embeds the flow.
-/

namespace StepFlow

/-- Whether a node is the copy of another one below `p`: it has the id in the namespace of `p`, says
that it was composed there, and does the same. -/
structure Node.IsCopy (p : String) (n copy : Node) : Prop where
  id : copy.id = namespacedId p n.id
  parent : copy.parent = some p
  run : copy.run = n.run
  args : copy.args = n.args
  argsSchema : copy.argsSchema = n.argsSchema
  config : copy.config = n.config

/-- Whether a graph is embedded as a copy below the node `p` if `added` is appended to `g`. -/
structure Graph.Embeds (g : Graph) (p : String) (child added : Graph) : Prop where
  /-- What is appended are the copies of all nodes, in their order. -/
  nodes : List.Forall₂ (Node.IsCopy p) child.nodes added.nodes
  /-- Each edge runs between the copies of its ends. -/
  edges : ∀ e ∈ child.edges, ∃ copy ∈ added.edges,
    copy.source = namespacedId p e.source ∧ copy.target = namespacedId p e.target
  /-- Any other edge between copies joins neighbours in the layout. -/
  inner : ∀ e ∈ (g ++ added).edges,
    e.source ∈ nodeIds added.nodes → e.target ∈ nodeIds added.nodes →
      (∃ e' ∈ child.edges, e = e'.placedUnder p) ∨ e ∈ layoutEdges added.nodes
  /-- The only edge from another node to a copy is the connector to the first one. -/
  entering : ∃ first, added.nodes.head? = some first ∧
    ((g ++ added).edges.filter fun e =>
      e.source ∈ nodeIds g.nodes ∧ e.target ∈ nodeIds added.nodes) = [.connector p first.id] ∧
    ∀ e ∈ (g ++ added).edges, e.target ∈ nodeIds added.nodes →
      e = .connector p first.id ∨ InNamespace p e.source
  /-- No edge leads from a copy to another node, or to any id outside of the namespace. -/
  leaving : ∀ e ∈ (g ++ added).edges, e.source ∈ nodeIds added.nodes →
    e.target ∉ nodeIds g.nodes ∧ InNamespace p e.target

section fragment

variable {flow : StoredFlow} {parent : Node} {flowId : String} {mode : GapMode}

/-- The nodes of a fragment are the copies of those of the flow. -/
theorem StoredFlow.copies_fragment (flow : StoredFlow) (parent : Node) (flowId : String)
    (mode : GapMode) : List.Forall₂ (Node.IsCopy parent.id) flow.toGraph.nodes
      (flow.fragment parent flowId mode).graph.nodes := by
  refine List.forall₂_iff_get.2 ⟨(List.length_mapIdx ..).symm, fun i hi hi' => ?_⟩
  have hget : (flow.fragment parent flowId mode).graph.nodes.get ⟨i, hi'⟩ =
      (flow.toGraph.nodes.get ⟨i, hi⟩).placedUnder parent i := List.getElem_mapIdx ..
  rw [hget]
  exact ⟨rfl, rfl, rfl, rfl, rfl, rfl⟩

theorem StoredFlow.head?_fragment_nodes (flow : StoredFlow) (parent : Node) (flowId : String)
    (mode : GapMode) : (flow.fragment parent flowId mode).graph.nodes.head? =
      flow.toGraph.nodes.head?.map (·.placedUnder parent 0) :=
  List.head?_mapIdx

/-- What leaves a copy in a fragment is an edge of the flow or suggested by the layout: a connector
leaves the node itself, whose id is too short to be in its own namespace. -/
theorem mem_fragment_edges_of_inNamespace {e : Edge}
    (h : e ∈ (flow.fragment parent flowId mode).graph.edges)
    (hsource : InNamespace parent.id e.source) :
    (∃ e' ∈ flow.toGraph.edges, e = e'.placedUnder parent.id) ∨
      e ∈ layoutEdges (flow.fragment parent flowId mode).graph.nodes := by
  refine (mem_fragment_edges_layout h).resolve_left ?_
  rintro ⟨_, -, rfl⟩
  exact not_inNamespace_of_length_le (Nat.le_refl _) hsource

/-- If the ids of edges are distinct and the connector takes none of them, each edge has its copy in
a fragment after merging it. -/
theorem StoredFlow.exists_copy_of_edge (hids : (flow.toGraph.edges.map (·.id)).Nodup)
    (hfree : ∀ first, flow.toGraph.nodes.head? = some first → ∀ e ∈ flow.toGraph.edges,
      e.id ≠ "connect__" ++ namespacedId parent.id first.id) {e : Edge}
    (he : e ∈ flow.toGraph.edges) :
    ∃ copy ∈ (flow.fragment parent flowId mode).graph.distinct.edges,
      copy.ends = (e.placedUnder parent.id).ends := by
  let g := (flow.fragment parent flowId mode).graph
  let placed := flow.toGraph.edges.map (·.placedUnder parent.id)
  have hplaced : e.placedUnder parent.id ∈ placed := List.mem_map_of_mem he
  have hedges := edges_fragment flow parent flowId mode
  have hmem : e.placedUnder parent.id ∈ g.edges := by
    rw [hedges]
    exact List.mem_append_right _ (List.mem_append_left _ hplaced)
  obtain ⟨copy, hcopy, hclash⟩ :=
    @exists_clash Edge Edge.clashes [] g.edges _ Edge.clashes_self hmem
  refine ⟨copy, hcopy, ?_⟩
  rcases Edge.clashes_iff.1 hclash with hid | hends
  · -- of all edges only the copy itself has the id of the copy
    have hcopy' := mem_of_mem_newcomers hcopy
    rw [hedges] at hcopy'
    rcases List.mem_append.1 hcopy' with hconnector | hfilled
    · obtain ⟨first, hfirst, rfl⟩ := Option.map_eq_some_iff.1 (Option.mem_toList.1 hconnector)
      rw [flow.head?_fragment_nodes] at hfirst
      obtain ⟨m, hm, rfl⟩ := Option.map_eq_some_iff.1 hfirst
      have hsame : namespacedId parent.id ("connect__" ++ namespacedId parent.id m.id) =
          namespacedId parent.id e.id :=
        (connectorId_eq parent.id (namespacedId parent.id m.id)).symm.trans hid
      exact absurd (namespacedId_inj.1 hsame).symm (hfree m hm e he)
    · rcases List.mem_append.1 hfilled with hother | hnew
      · obtain ⟨e', he', rfl⟩ := List.mem_map.1 hother
        rw [List.inj_on_of_nodup_map hids he' he (namespacedId_inj.1 hid)]
      · have hapart := newcomers_not_clash hnew _ hplaced
        rw [Edge.clashes_comm, hclash] at hapart
        cases hapart
  · exact hends

end fragment

namespace Graph

variable {g added : Graph} {p : String} {first : Node} {inner : List Edge} {e : Edge} {id : String}

theorem Beneath.inNamespace (h : added.Beneath p) (hid : id ∈ nodeIds added.nodes) :
    InNamespace p id := by
  obtain ⟨n, hn, rfl⟩ := List.mem_map.1 hid
  exact (h.node n hn).1

theorem ClearOf.not_mem_nodeIds (h : g.ClearOf p) (hid : InNamespace p id) :
    id ∉ nodeIds g.nodes := by
  intro hmem
  obtain ⟨n, hn, rfl⟩ := List.mem_map.1 hmem
  exact h.node n hn hid

/-- An edge that touches a free namespace was appended. -/
theorem ClearOf.mem_added (h : g.ClearOf p) (he : e ∈ (g ++ added).edges)
    (hin : InNamespace p e.source ∨ InNamespace p e.target) : e ∈ added.edges := by
  rcases List.mem_append.1 he with hold | hnew
  · obtain ⟨-, hsource, htarget⟩ := h.edge e hold
    exact absurd hin (not_or.2 ⟨hsource, htarget⟩)
  · exact hnew

/-- From a copy one comes neither to the nodes that were there nor out of the namespace. -/
theorem ClearOf.leaving (h : g.ClearOf p) (hbeneath : added.Beneath p)
    (he : e ∈ (g ++ added).edges) (hsource : e.source ∈ nodeIds added.nodes) :
    e.target ∉ nodeIds g.nodes ∧ InNamespace p e.target := by
  have hnew := h.mem_added he (.inl (hbeneath.inNamespace hsource))
  have htarget := (hbeneath.edge e hnew).2.2
  exact ⟨h.not_mem_nodeIds htarget, htarget⟩

/-- From the nodes that were there, only the connector comes to a copy. -/
theorem ClearOf.filter_entering (h : g.ClearOf p) (hbeneath : added.Beneath p)
    (hp : p ∈ nodeIds g.nodes) (hfirst : first ∈ added.nodes)
    (hadded : added.edges = .connector p first.id :: inner)
    (hinner : ∀ e ∈ inner, InNamespace p e.source) :
    ((g ++ added).edges.filter fun e =>
      e.source ∈ nodeIds g.nodes ∧ e.target ∈ nodeIds added.nodes) = [.connector p first.id] := by
  let enters (e : Edge) : Bool := e.source ∈ nodeIds g.nodes ∧ e.target ∈ nodeIds added.nodes
  have hold : g.edges.filter enters = [] := by
    refine List.filter_eq_nil_iff.2 fun e he henters => ?_
    obtain ⟨-, htarget⟩ := of_decide_eq_true henters
    exact (h.edge e he).2.2 (hbeneath.inNamespace htarget)
  have hrest : inner.filter enters = [] := by
    refine List.filter_eq_nil_iff.2 fun e he henters => ?_
    obtain ⟨hsource, -⟩ := of_decide_eq_true henters
    exact h.not_mem_nodeIds (hinner e he) hsource
  have hconnector : enters (.connector p first.id) = true :=
    decide_eq_true ⟨hp, List.mem_map_of_mem hfirst⟩
  rw [edges_append, hadded, List.filter_append]
  show g.edges.filter enters ++ (Edge.connector p first.id :: inner).filter enters = _
  rw [hold, List.filter_cons_of_pos hconnector, hrest, List.nil_append]

end Graph

/-- A composition embeds the flow. The namespace of the node has to be free and the ids of the
flow's nodes and edges distinct, and no edge of the flow may have the id that the connector gets. -/
theorem compose_embeds_flow (c : Composer) (s : Store) (p : String) {n : Node} {flow : String}
    {stored : StoredFlow} {summary : MergeSummary}
    (hnodes : ∀ m ∈ s.graph.nodes, ¬InNamespace p m.id)
    (hedges : ∀ e ∈ s.graph.edges,
      ¬InNamespace p e.id ∧ ¬InNamespace p e.source ∧ ¬InNamespace p e.target)
    (hn : s.graph.node? p = some n) (hflow : n.subflowId? = some flow)
    (hstored : c.source flow = .ok stored) (hids : (nodeIds stored.toGraph.nodes).Nodup)
    (hedgeIds : (stored.toGraph.edges.map (·.id)).Nodup)
    (hfree : ∀ first, stored.toGraph.nodes.head? = some first → ∀ e ∈ stored.toGraph.edges,
      e.id ≠ "connect__" ++ namespacedId p first.id)
    (hok : (c.compose s p).result = .ok summary) :
    ∃ added, (c.compose s p).store = s.withGraph (s.graph ++ added) ∧
      s.graph.Embeds p stored.toGraph added := by
  obtain ⟨-, first, others, inner, -, -, hadded, hgraph, hinner⟩ :=
    Composer.of_compose_ok_of_fresh hok hnodes hedges
  obtain ⟨hmem, rfl⟩ := Graph.of_node? hn
  have hclear := Composer.clearOf_of_compose_ok hok hnodes hedges
  have hbeneath := c.addition_beneath s.graph n.id
  have hcopied : c.addition s.graph n.id = (stored.fragment n flow c.mode).graph.distinct :=
    Composer.addition_of_fetchFragment hn
      (Composer.fetchFragment_of_compose_ok hok hn hflow hstored)
  have hkept : (c.addition s.graph n.id).nodes = (stored.fragment n flow c.mode).graph.nodes := by
    rw [hcopied]
    exact Graph.distinct_nodes_of_nodup (nodup_nodeIds_fragment hids n flow c.mode)
  have hfirst : first ∈ (c.addition s.graph n.id).nodes := by
    rw [hadded]
    exact List.mem_cons_self
  refine ⟨c.addition s.graph n.id, ?store,
    { nodes := ?nodes
      edges := ?edges
      inner := ?inner
      entering := ⟨first, ?head, ?connector, ?outside⟩
      leaving := fun e he => hclear.leaving hbeneath he }⟩
  case store => rw [Composer.compose_store, hgraph]
  case nodes =>
    rw [hkept]
    exact stored.copies_fragment n flow c.mode
  case edges =>
    intro e he
    obtain ⟨copy, hcopy, hends⟩ :=
      @StoredFlow.exists_copy_of_edge stored n flow c.mode hedgeIds hfree e he
    exact ⟨copy, hcopied ▸ hcopy, congrArg Prod.fst hends, congrArg Prod.snd hends⟩
  case inner =>
    intro e he hsource _
    have hsource := hbeneath.inNamespace hsource
    have hnew := hclear.mem_added he (.inl hsource)
    rw [hcopied] at hnew
    rw [hkept]
    exact mem_fragment_edges_of_inNamespace (Graph.mem_of_mem_distinct_edges hnew) hsource
  case head =>
    rw [hadded]
    rfl
  case connector =>
    exact hclear.filter_entering hbeneath (List.mem_map_of_mem hmem) hfirst
      (congrArg Graph.edges hadded) hinner
  case outside =>
    intro e he htarget
    have hnew := hclear.mem_added he (.inr (hbeneath.inNamespace htarget))
    rw [hadded] at hnew
    exact (List.mem_cons.1 hnew).imp_right (hinner e)

/-- A flow in which two edges join the same nodes and a third one leads nowhere. -/
theorem compose_embeds_flow_with_parallel_edges :
    let child : Graph := ⟨[{ id := "a" }, { id := "b" }, { id := "c" }],
      [⟨"1", "a", "c", none⟩, ⟨"2", "a", "c", none⟩, ⟨"3", "b", "d", none⟩]⟩
    let composer : Composer := { source := fun _ => .ok (.graph child) }
    let s : Store := .ofGraph ⟨[{ id := "p", config := [(subflowKey, .str "f")] }, { id := "q" }],
      [⟨"1", "p", "q", none⟩]⟩
    ∃ summary added, (composer.compose s "p").result = .ok summary ∧
      (composer.compose s "p").store = s.withGraph (s.graph ++ added) ∧
      s.graph.Embeds "p" child added := by
  intro child composer s
  have hout : ∀ id : String, id.length ≤ 1 → ¬InNamespace "p" id :=
    fun id hid => not_inNamespace_of_length_le hid
  have hnodes : ∀ n ∈ s.graph.nodes, n.id.length ≤ 1 := by decide
  have hedges : ∀ e ∈ s.graph.edges,
      e.id.length ≤ 1 ∧ e.source.length ≤ 1 ∧ e.target.length ≤ 1 := by decide
  have hfree : ∀ first, child.nodes.head? = some first → ∀ e ∈ child.edges,
      e.id ≠ "connect__" ++ namespacedId "p" first.id := by
    rintro first ⟨⟩
    decide
  have hok : ∃ summary, (composer.compose s "p").result = .ok summary :=
    composer.exists_compose_ok rfl rfl rfl rfl (List.cons_ne_nil _ _)
  obtain ⟨summary, hok⟩ := hok
  obtain ⟨added, hstore, hembeds⟩ := compose_embeds_flow composer s "p"
    (fun n hn => hout _ (hnodes n hn))
    (fun e he => ⟨hout _ (hedges e he).1, hout _ (hedges e he).2.1, hout _ (hedges e he).2.2⟩)
    rfl rfl rfl (by decide) (by decide) hfree hok
  exact ⟨summary, added, hok, hstore, hembeds⟩

end StepFlow
