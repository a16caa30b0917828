import StepFlow.Proofs.Compose.Undo
import StepFlow.Proofs.Plan.Part
import StepFlow.Proofs.Plan.Rounds

/-!
# Plans after a composition

What is copied below a node leads only to ids in the namespace of the node, and only the connector
comes from outside. So the graph grows at one node: its successors get the first copy behind them,
no other step changes, and the plan lists the old ids in the old order.

## Main definitions

* `Step.Grown`: a step after a composition.

## Main statements

* `Graph.Beneath.outgrowth`: what is copied below a node leads only to new ids.
* `compose_keeps_plan`: the plan after a composition.
-/

namespace StepFlow

/-- Whether a step is what a composition under `p` makes of another one: only its successors may
differ, and those of `p` have the id of the first copy behind them. -/
def Step.Grown (p first : String) (step grown : Step) : Prop :=
  ∃ next, grown = { step with next } ∧
    if step.id = p then next.targets = step.next.targets ++ [first] else next = step.next

/-- Among the edges of a fragment only the connector leaves the parent. -/
theorem StoredFlow.fragment_edges_eq {flow : StoredFlow} {parent : Node} {flowId : String}
    {mode : GapMode} {first : Node} {others : List Node}
    (h : (flow.fragment parent flowId mode).graph.nodes = first :: others) :
    ∃ inner, (flow.fragment parent flowId mode).graph.edges =
        .connector parent.id first.id :: inner ∧
      ∀ e ∈ inner, InNamespace parent.id e.source := by
  have hnode := (flow.fragment_beneath parent flowId mode).node
  have hedges : (flow.fragment parent flowId mode).graph.edges =
      connectorTo parent.id (flow.fragment parent flowId mode).graph.nodes ++
        fillGaps (flow.fragment parent flowId mode).graph.nodes
          (flow.toGraph.edges.map (·.placedUnder parent.id)) mode := rfl
  rw [h] at hedges hnode
  refine ⟨_, hedges, fun e he => ?_⟩
  rcases mem_fillGaps he with hplaced | ⟨a, ha, b, -, rfl⟩
  · obtain ⟨e', -, rfl⟩ := List.mem_map.1 hplaced
    exact inNamespace_namespacedId _ _
  · exact (hnode a ha).1

namespace Composer

variable {c : Composer} {s : Store} {p : String} {summary : MergeSummary}

/-- A free namespace of a node below which a composition succeeds: nothing says that it was composed
there. -/
theorem clearOf_of_compose_ok (h : (c.compose s p).result = .ok summary)
    (hnodes : ∀ n ∈ s.graph.nodes, ¬InNamespace p n.id)
    (hedges : ∀ e ∈ s.graph.edges,
      ¬InNamespace p e.id ∧ ¬InNamespace p e.source ∧ ¬InNamespace p e.target) :
    s.graph.ClearOf p := by
  obtain ⟨-, -, -, hnone, -, -⟩ := of_compose_ok h
  refine ⟨hnodes, fun m hm hparent => ?_, hedges⟩
  have hunder := List.any_eq_false.1 hnone m hm
  exact hunder (decide_eq_true hparent)

/-- A composition that succeeds has appended at least one node, and behind the old edges a connector
to it; all other new edges come from the namespace. -/
theorem of_compose_ok_of_fresh (h : (c.compose s p).result = .ok summary)
    (hnodes : ∀ n ∈ s.graph.nodes, ¬InNamespace p n.id)
    (hedges : ∀ e ∈ s.graph.edges,
      ¬InNamespace p e.id ∧ ¬InNamespace p e.source ∧ ¬InNamespace p e.target) :
    ∃ n first others inner, s.graph.node? p = some n ∧ first.parent = some p ∧
      c.addition s.graph p = ⟨first :: others, .connector p first.id :: inner⟩ ∧
      (c.compose s p).store.graph = s.graph ++ c.addition s.graph p ∧
      ∀ e ∈ inner, InNamespace p e.source := by
  obtain ⟨n, f, hn, -, hf, -⟩ := of_compose_ok h
  have hclear := clearOf_of_compose_ok h hnodes hedges
  obtain ⟨first, others, hfirst⟩ := List.exists_cons_of_ne_nil (ne_nil_of_fetchFragment hf)
  obtain ⟨flow, stored, -, -, rfl⟩ := of_fetchFragment hf
  obtain ⟨-, rfl⟩ := Graph.of_node? hn
  obtain ⟨inner, hinner, hsource⟩ := StoredFlow.fragment_edges_eq hfirst
  have hadded : c.addition s.graph n.id =
      ⟨first :: newcomers Node.clashes [first] others,
        .connector n.id first.id :: newcomers Edge.clashes [.connector n.id first.id] inner⟩ := by
    rw [addition, hn]
    simp only [hf, Graph.distinct, hfirst, hinner, newcomers, List.any_nil, Bool.false_eq_true,
      if_false, List.nil_append]
  have hparent : first.parent = some n.id := by
    have hmem : first ∈ (stored.fragment n flow c.mode).graph.nodes := by
      rw [hfirst]
      exact List.mem_cons_self
    exact ((stored.fragment_beneath n flow c.mode).node first hmem).2
  refine ⟨n, first, _, _, hn, hparent, hadded, ?_, fun e he => hsource e (mem_of_mem_newcomers he)⟩
  rw [(c.compose_of_clear hclear).1]

end Composer

section

variable {g added : Graph} {p : String} {first : Node} {others : List Node} {inner : List Edge}

/-- What is copied below a node leads only to ids in its namespace. -/
theorem Graph.Beneath.outgrowth (h : added.Beneath p)
    (hnodes : ∀ n ∈ g.nodes, ¬InNamespace p n.id)
    (hedges : ∀ e ∈ g.edges, ¬InNamespace p e.source ∧ ¬InNamespace p e.target) :
    g.Outgrowth (¬InNamespace p ·) added where
  node := hnodes
  source e he := (hedges e he).1
  target e he := (hedges e he).2
  newNode n hn hout := hout (h.node n hn).1
  newTarget e he hout := hout (h.edge e he).2.2

/-- Outside of the namespace only the node itself gets a target. -/
theorem targetsFrom_connector_cons (hinner : ∀ e ∈ inner, InNamespace p e.source) {id : String}
    (hid : ¬InNamespace p id) :
    targetsFrom (.connector p first.id :: inner) id = if id = p then [first.id] else [] := by
  have hnone : targetsFrom inner id = [] :=
    targetsFrom_eq_nil_iff.2 fun e he hsource => hid (hsource ▸ hinner e he)
  rw [targetsFrom_cons, hnone, List.append_nil]
  by_cases h : id = p
  · simp [Edge.connector, h]
  · simp [Edge.connector, h, Ne.symm h]

theorem grown_steps (hnodes : ∀ n ∈ g.nodes, ¬InNamespace p n.id)
    (hadded : added.edges = .connector p first.id :: inner)
    (hinner : ∀ e ∈ inner, InNamespace p e.source) {i : Nat} {step : Step}
    (h : g.steps[i]? = some step) :
    ∃ grown, (g ++ added).steps[i]? = some grown ∧ step.Grown p first.id grown := by
  rw [Graph.getElem?_steps] at h
  obtain ⟨n, hn, rfl⟩ := Option.map_eq_some_iff.1 h
  have hlt : i < g.nodes.length := (List.getElem?_eq_some_iff.1 hn).1
  have htargets : targetsFrom (g ++ added).edges n.id =
      targetsFrom g.edges n.id ++ if n.id = p then [first.id] else [] := by
    have hid := hnodes n (List.mem_of_getElem? hn)
    rw [Graph.edges_append, targetsFrom_append, hadded, targetsFrom_connector_cons hinner hid]
  refine ⟨_, ?_, .ofTargets (targetsFrom (g ++ added).edges n.id) n.condition?, rfl, ?_⟩
  · rw [Graph.getElem?_steps, Graph.nodes_append, List.getElem?_append_left hlt, hn]
    rfl
  · rw [htargets]
    by_cases hp : n.id = p
    · simp [Node.toStep, hp]
    · simp [Node.toStep, hp]

theorem Step.Grown.id_eq {step grown : Step} (h : step.Grown p first.id grown) :
    grown.id = step.id := by
  obtain ⟨next, rfl, -⟩ := h
  rfl

end

/-- A composition under a node whose namespace is free does not reorder the plan: the graph still
has one, and without the new ids it is the old one. No step but that of the node itself changes its
successors; the node has the first of the new nodes behind its old targets, and that one is planned
if the node is. -/
theorem compose_keeps_plan (c : Composer) (s : Store) (p : String) {plan : Plan}
    {summary : MergeSummary} (hnodup : (nodeIds s.graph.nodes).Nodup)
    (hnodes : ∀ n ∈ s.graph.nodes, ¬InNamespace p n.id)
    (hedges : ∀ e ∈ s.graph.edges,
      ¬InNamespace p e.id ∧ ¬InNamespace p e.source ∧ ¬InNamespace p e.target)
    (hplan : s.graph.plan = .ok plan) (h : (c.compose s p).result = .ok summary) :
    let composed := (c.compose s p).store.graph
    ∃ first later, composed.nodes[s.graph.nodes.length]? = some first ∧ first.parent = some p ∧
      composed.plan = .ok later ∧
      later.ids.filter (· ∈ nodeIds s.graph.nodes) = plan.ids ∧
      (∀ (i : Nat) (step : Step), s.graph.steps[i]? = some step →
        ∃ grown, composed.steps[i]? = some grown ∧ step.Grown p first.id grown) ∧
      (∀ step ∈ plan.steps, ∃ grown ∈ later.steps, step.Grown p first.id grown) ∧
      (p ∈ plan.ids → first.id ∈ later.ids) := by
  intro composed
  obtain ⟨n, first, others, inner, hn, hparent, hadded, hcomposed, hinner⟩ :=
    Composer.of_compose_ok_of_fresh h hnodes hedges
  have hcomposed : composed = s.graph ++ c.addition s.graph p := hcomposed
  -- what is new lies in the namespace, so nothing of it leads back to an old id
  have hgrows := (c.addition_beneath s.graph p).outgrowth hnodes fun e he => (hedges e he).2
  have hdistinct : (nodeIds composed.nodes).Nodup := by
    rw [hcomposed]
    exact hgrows.nodup hnodup (c.nodup_addition s.graph p)
  obtain ⟨later, hlater, hids⟩ := hgrows.plan hplan
  rw [← hcomposed] at hlater
  have hsub : ∀ id ∈ plan.ids, id ∈ later.ids := by
    rw [← hids]
    exact fun id hid => (List.mem_filter.1 hid).1
  have hsteps : ∀ (i : Nat) (step : Step), s.graph.steps[i]? = some step →
      ∃ grown, composed.steps[i]? = some grown ∧ step.Grown p first.id grown := by
    intro i step hstep
    rw [hcomposed]
    exact grown_steps hnodes (congrArg Graph.edges hadded) hinner hstep
  refine ⟨first, later, ?_, hparent, hlater, hids, hsteps, ?_, ?_⟩
  · rw [hcomposed, hadded, Graph.nodes_append, List.getElem?_append_right (Nat.le_refl _),
      Nat.sub_self]
    rfl
  · intro step hstep
    obtain ⟨i, hi⟩ := List.getElem?_of_mem (mem_resolve_of_mem_plan hplan hstep)
    obtain ⟨grown, hget, hgrown⟩ := hsteps i step hi
    -- the ids are distinct, so no other step is planned under the id
    have hplanned : grown.id ∈ later.ids := by
      rw [hgrown.id_eq]
      exact hsub step.id (List.mem_map_of_mem hstep)
    have hmem := mem_plan_of_mem_resolve hlater hdistinct (List.mem_of_getElem? hget) hplanned
    exact ⟨grown, hmem, hgrown⟩
  · intro hp
    have hreach := (mem_ids_iff_reachable hlater).1 (hsub p hp)
    refine (mem_ids_iff_reachable hlater).2 (hreach.link ⟨hreach.mem_nodeIds, ?_, ?_⟩)
    · rw [hcomposed, hadded]
      exact List.mem_map_of_mem (List.mem_append_right _ List.mem_cons_self)
    · rw [hcomposed, hadded]
      exact ⟨_, List.mem_append_right _ List.mem_cons_self, rfl, rfl⟩

/-- A composition in the middle of a plan, on a graph with a cycle and a dangling edge. -/
theorem compose_keeps_plan_of_middle :
    let composer : Composer := { source := fun _ => .ok (.graph
      ⟨[{ id := "x" }, { id := "y", kind := some .trigger }], [⟨"1", "x", "y", none⟩]⟩) }
    let s : Store := .ofGraph ⟨[{ id := "a", kind := some .trigger },
      { id := "p", config := [(subflowKey, .str "f")] }, { id := "z" }],
      [⟨"1", "a", "p", none⟩, ⟨"2", "a", "z", none⟩, ⟨"3", "z", "a", none⟩,
        ⟨"4", "p", "g", none⟩]⟩
    let composed := (composer.compose s "p").store.graph
    ∃ (first : Node) (later : Plan), first.parent = some "p" ∧ composed.plan = .ok later ∧
      first.id ∈ later.ids ∧
      later.ids.filter (· ∈ ["a", "p", "z"]) = ["a", "p", "z"] := by
  intro composer s composed
  have hplan := linearize_eq_of_iterate_round s.graph.nodes s.graph.edges (by decide) 8 rfl
  have hok : ∃ summary, (composer.compose s "p").result = .ok summary :=
    composer.exists_compose_ok rfl rfl rfl rfl (List.cons_ne_nil _ _)
  obtain ⟨summary, hsummary⟩ := hok
  have hout : ∀ id : String, id.length ≤ 1 → ¬InNamespace "p" id :=
    fun id hlength => not_inNamespace_of_length_le hlength
  have hnodes : ∀ n ∈ s.graph.nodes, n.id.length ≤ 1 := by decide
  have hedges : ∀ e ∈ s.graph.edges,
      e.id.length ≤ 1 ∧ e.source.length ≤ 1 ∧ e.target.length ≤ 1 := by decide
  obtain ⟨first, later, -, hparent, hlater, hids, -, -, hfirst⟩ :=
    compose_keeps_plan composer s "p" (by decide) (fun n hn => hout _ (hnodes n hn))
      (fun e he => ⟨hout _ (hedges e he).1, hout _ (hedges e he).2.1, hout _ (hedges e he).2.2⟩)
      hplan hsummary
  have hp : "p" ∈ ["a", "p", "z"] := by decide
  exact ⟨first, later, hparent, hlater, hfirst hp, hids⟩

end StepFlow
