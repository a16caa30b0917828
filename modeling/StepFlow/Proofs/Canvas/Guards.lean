import StepFlow.Proofs.Canvas.RoundTrip
import StepFlow.Proofs.Compose.Undo
import StepFlow.Proofs.Layout.Unjoined
import StepFlow.Proofs.Run.Open
import StepFlow.Proofs.Wire.Stable

/-!
# Guards of stored steps

A stored list of steps becomes a graph when it is loaded or composed. The targets of a step are then
its edges, and the layout adds at most one to them. The condition of a step has no place in a graph:
in its stead the step gets the one in its settings, which only a condition has.

## Main statements

* `Step.Normal.ofTargets_guard?_iff`: which steps keep what follows them.
* `length_targetsFrom_layout_le_one`: the layout gives a node at most one target.
* `steps_lowered`: the steps of a stored list after loading and composing.
-/

namespace StepFlow

/-- The canvas keeps what follows a step if there is nothing to guard or if the step has the
condition of its node. -/
theorem Step.Normal.ofTargets_guard?_iff {s : Step} (h : s.Normal) :
    Successors.ofTargets s.next.targets s.guard? = s.next ↔
      s.next.targets = [] ∨ s.next.condition = s.guard? := by
  constructor
  · intro hnext
    by_cases htargets : s.next.targets = []
    · exact .inl htargets
    · have hcondition := Successors.condition_ofTargets s.next.targets s.guard?
      rw [hnext, if_neg htargets] at hcondition
      exact .inr hcondition
  · rintro (htargets | hcondition)
    · have hnext := h.next
      rw [htargets] at hnext ⊢
      exact hnext
    · rw [← hcondition, h.next]

/-- Nothing is left to fill in of a step in normal form, so it comes back from the canvas with
another place, and with what follows it there. -/
theorem Step.Normal.toStep_toNode {s : Step} (h : s.Normal) (p : Position) (next : Successors) :
    (s.toNode p).toStep next = { s with position := p, next } := by
  simp only [Node.toStep, Step.toNode, Option.getD_some, h.label, h.run]

/-- What is made of the layout gives a node at most one target. -/
theorem length_targetsFrom_layout_le_one {nodes : List Node} (hnodup : (nodeIds nodes).Nodup)
    {edges : List Edge} (h : edges.Sublist (layoutEdges nodes)) (id : String) :
    (targetsFrom edges id).length ≤ 1 := by
  have hsources : (edges.map (·.source)).Nodup :=
    List.pairwise_map.2 ((pairwise_source_ne hnodup).sublist h)
  have hcount : (targetsFrom edges id).length = (edges.map (·.source)).count id := by
    rw [targetsFrom, List.length_map, ← List.countP_eq_length_filter, List.count, List.countP_map]
    rfl
  rw [hcount]
  exact List.nodup_iff_count_le_one.1 hsources id

section placing

variable {list : List Step} {s : Step} {parent : Node} {flowId : String} {mode : GapMode} {i : Nat}

theorem targetsFrom_placedUnder (p : String) (edges : List Edge) (id : String) :
    targetsFrom (edges.map (·.placedUnder p)) (namespacedId p id) =
      (targetsFrom edges id).map (namespacedId p) := by
  simp only [targetsFrom, List.filter_map, List.map_map, Function.comp_def, Edge.placedUnder,
    namespacedId_inj]

/-- A step in normal form has a label, so its copy does not show the former id. -/
theorem Step.Normal.toStep_placedUnder (h : s.Normal) (place : Position) (parent : Node) (i : Nat)
    (next : Successors) :
    ∃ position, ((s.toNode place).placedUnder parent i).toStep next =
      { s with id := namespacedId parent.id s.id, position, next } := by
  have hlabel : filled (some (filled (some s.label) s.id)) defaultLabel = s.label := by
    have hne : s.label ≠ "" := by
      intro hempty
      have hfilled := h.label
      rw [hempty] at hfilled
      exact absurd hfilled (by decide)
    rw [filled_some s.label s.id, if_neg hne, h.label]
  refine ⟨((s.toNode place).placedUnder parent i).position, ?_⟩
  simp only [Node.toStep, Node.placedUnder, Step.toNode, Option.getD_some, hlabel, h.run]

/-- The nodes of a fragment of steps: each step has its copy. -/
theorem getElem?_fragment_nodes (hi : i < list.length) :
    ((StoredFlow.steps list).fragment parent flowId mode).graph.nodes[i]? =
      some ((list[i].toNode (gridPosition i list[i].kind)).placedUnder parent i) := by
  simp [StoredFlow.fragment, StoredFlow.toGraph, Graph.ofSteps, hi]

theorem nodup_fragment (hnodup : (list.map (·.id)).Nodup) :
    (nodeIds ((StoredFlow.steps list).fragment parent flowId mode).graph.nodes).Nodup := by
  apply nodup_nodeIds_fragment
  rwa [StoredFlow.toGraph, nodeIds_ofSteps]

/-- From a copy one comes to the copies of its targets, and perhaps to one more. -/
theorem targetsFrom_fragment (hnodup : (list.map (·.id)).Nodup) (hs : s ∈ list) :
    ∃ extra, extra.length ≤ 1 ∧
      targetsFrom ((StoredFlow.steps list).fragment parent flowId mode).graph.edges
          (namespacedId parent.id s.id) =
        s.next.targets.map (namespacedId parent.id) ++ extra := by
  let g := ((StoredFlow.steps list).fragment parent flowId mode).graph
  let placed := (Graph.ofSteps list).edges.map (·.placedUnder parent.id)
  let inferred := newcomers Edge.clashes placed (gapEdges g.nodes placed mode)
  have hedges : g.edges = connectorTo parent.id g.nodes ++ (placed ++ inferred) :=
    edges_fragment _ parent flowId mode
  have hconnector : targetsFrom (connectorTo parent.id g.nodes) (namespacedId parent.id s.id) =
      [] := by
    refine targetsFrom_eq_nil_iff.2 fun e he hsource => ?_
    obtain ⟨first, -, rfl⟩ := Option.map_eq_some_iff.1 (Option.mem_toList.1 he)
    -- a connector leaves the parent, whose id is too short to be in its own namespace
    exact not_inNamespace_of_length_le (Nat.le_refl _) ⟨s.id, hsource⟩
  have hplaced : targetsFrom placed (namespacedId parent.id s.id) =
      s.next.targets.map (namespacedId parent.id) := by
    rw [targetsFrom_placedUnder]
    show (targetsFrom (list.flatMap Step.edges) s.id).map _ = _
    rw [targetsFrom_flatMap_edges, filter_id_of_nodup hnodup hs, List.flatMap_singleton]
  have hinferred : inferred.Sublist (layoutEdges g.nodes) :=
    (newcomers_sublist _ _ _).trans List.filter_sublist
  refine ⟨targetsFrom inferred (namespacedId parent.id s.id),
    length_targetsFrom_layout_le_one (nodup_fragment hnodup) hinferred _, ?_⟩
  show targetsFrom g.edges _ = _
  rw [hedges, targetsFrom_append, targetsFrom_append, hconnector, hplaced, List.nil_append]

/-- Merging a fragment drops an edge only if another one has its ends or its id. -/
theorem mem_targetsFrom_distinct (hs : s ∈ list) {target : String}
    (htarget : target ∈ s.next.targets) :
    let g := ((StoredFlow.steps list).fragment parent flowId mode).graph
    namespacedId parent.id target ∈ targetsFrom g.distinct.edges (namespacedId parent.id s.id) ∨
      ∃ e ∈ g.distinct.edges, e.id = namespacedId parent.id (sequentialId s.id target) ∧
        e.ends ≠ (namespacedId parent.id s.id, namespacedId parent.id target) := by
  intro g
  have hedge : (Edge.sequential s.id target).placedUnder parent.id ∈ g.edges := by
    refine List.mem_append_right _ (subset_fillGaps _ _ mode (List.mem_map_of_mem ?_))
    exact List.mem_flatMap.2 ⟨s, hs, List.mem_map_of_mem htarget⟩
  obtain ⟨e, he, hclash⟩ := @exists_clash Edge Edge.clashes [] g.edges _ Edge.clashes_self hedge
  by_cases hends : e.ends = (namespacedId parent.id s.id, namespacedId parent.id target)
  · obtain ⟨hsource, htarget⟩ := Prod.mk.inj hends
    exact .inl (mem_targetsFrom.2 ⟨e, he, hsource, htarget⟩)
  · exact .inr ⟨e, he, (Edge.clashes_iff.1 hclash).resolve_right hends, hends⟩

end placing

/-- The steps of a stored list after loading: the chain of the layout gives each at most one target
more. -/
theorem getElem?_steps_load {list : List Step} (hnormal : ∀ s ∈ list, s.Normal)
    (hnodup : (list.map (·.id)).Nodup) (flowId : String) {entry : Entry}
    (hentry : entry.flow = .steps list) {i : Nat} (hi : i < list.length) :
    ∃ extra, extra.length ≤ 1 ∧
      (Store.load flowId entry.toPersisted).graph.steps[i]? = some { list[i] with
        position := gridPosition i list[i].kind
        next := .ofTargets (list[i].next.targets ++ extra) list[i].guard? } := by
  have hnodes : entry.toPersisted.nodes = (Graph.ofSteps list).nodes := by
    rw [Entry.toPersisted, hentry, StoredFlow.toGraph]
  have hedges : entry.toPersisted.edges = (Graph.ofSteps list).edges := by
    rw [Entry.toPersisted, hentry, StoredFlow.toGraph]
  have hdistinct : (nodeIds (Graph.ofSteps list).nodes).Nodup := nodeIds_ofSteps list ▸ hnodup
  let chain := newcomers Edge.clashes (Graph.ofSteps list).edges
    (sequentialChain (Graph.ofSteps list).nodes)
  have hchain : chain.Sublist (layoutEdges (Graph.ofSteps list).nodes) := by
    rw [← sequentialChain_of_nodup hdistinct]
    exact newcomers_sublist _ _ _
  refine ⟨targetsFrom chain list[i].id,
    length_targetsFrom_layout_le_one hdistinct hchain list[i].id, ?_⟩
  have hsteps : (Store.load flowId entry.toPersisted).graph.steps =
      resolve (Graph.ofSteps list).nodes ((Graph.ofSteps list).edges ++ chain) := by
    rw [Graph.steps, Store.edges_load, hedges, hnodes]
    exact congrArg (resolve · _) hnodes
  rw [hsteps, steps_ofSteps_append hnodup, List.getElem?_mapIdx, List.getElem?_eq_getElem hi,
    Option.map_some, (hnormal _ (List.getElem_mem hi)).toStep_toNode]

theorem distinct_nodes_fragment {list : List Step} (hnodup : (list.map (·.id)).Nodup)
    (parent : Node) (flowId : String) (mode : GapMode) :
    let g := ((StoredFlow.steps list).fragment parent flowId mode).graph
    g.distinct.nodes = g.nodes :=
  Graph.distinct_nodes_of_nodup (nodup_fragment hnodup)

/-- Composing a stored list under a node whose namespace is free appends its fragment. -/
theorem Composer.graph_compose_of_steps {list : List Step} (hne : list ≠ []) (c : Composer)
    {store : Store} {parent : Node} {flowId : String} (hclear : store.graph.ClearOf parent.id)
    (hparent : store.graph.node? parent.id = some parent) (hflow : parent.subflowId? = some flowId)
    (hstored : c.source flowId = .ok (.steps list)) :
    (∃ summary, (c.compose store parent.id).result = .ok summary) ∧
      (c.compose store parent.id).store.graph = store.graph ++
        ((StoredFlow.steps list).fragment parent flowId c.mode).graph.distinct := by
  have hfull : (StoredFlow.steps list).toGraph.nodes ≠ [] := by
    intro hnil
    have hids := nodeIds_ofSteps list
    rw [show (Graph.ofSteps list).nodes = [] from hnil] at hids
    exact hne (List.map_eq_nil_iff.1 hids.symm)
  have hadded : c.addition store.graph parent.id =
      ((StoredFlow.steps list).fragment parent flowId c.mode).graph.distinct := by
    simp only [addition, hparent, fetchFragment_of_ne_nil hflow hstored hfull]
  refine ⟨c.compose_succeeds hclear hparent hflow hstored hfull, ?_⟩
  rw [← hadded, (c.compose_of_clear hclear).1]

/-- The steps of a stored list after composing it under a node whose namespace is free. -/
theorem getElem?_steps_compose {list : List Step} (hnormal : ∀ s ∈ list, s.Normal)
    (hnodup : (list.map (·.id)).Nodup) {g : Graph} {parent : Node} (hclear : g.ClearOf parent.id)
    (flowId : String) (mode : GapMode) {i : Nat} (hi : i < list.length) :
    let composed := g ++ ((StoredFlow.steps list).fragment parent flowId mode).graph.distinct
    ∃ position targets extra, extra.length ≤ 1 ∧
      targets.Sublist (list[i].next.targets.map (namespacedId parent.id) ++ extra) ∧
      (∀ t ∈ list[i].next.targets, namespacedId parent.id t ∈ targets ∨
        ∃ e ∈ composed.edges, e.id = namespacedId parent.id (sequentialId list[i].id t) ∧
          e.ends ≠ (namespacedId parent.id list[i].id, namespacedId parent.id t)) ∧
      composed.steps[g.nodes.length + i]? = some { list[i] with
        id := namespacedId parent.id list[i].id
        position
        next := .ofTargets targets list[i].guard? } := by
  intro composed
  let fragment := ((StoredFlow.steps list).fragment parent flowId mode).graph
  let id := namespacedId parent.id list[i].id
  have hmem := List.getElem_mem hi
  have hget : composed.nodes[g.nodes.length + i]? =
      some ((list[i].toNode (gridPosition i list[i].kind)).placedUnder parent i) := by
    rw [Graph.nodes_append, distinct_nodes_fragment hnodup,
      List.getElem?_append_right (Nat.le_add_right _ _), Nat.add_sub_cancel_left]
    exact getElem?_fragment_nodes hi
  -- no old edge leaves a copy, since the namespace was free
  have htargets : targetsFrom composed.edges id = targetsFrom fragment.distinct.edges id := by
    have hnone : targetsFrom g.edges id = [] :=
      targetsFrom_eq_nil_iff.2 fun e he hsource => (hclear.edge e he).2.1 ⟨_, hsource⟩
    rw [Graph.edges_append, targetsFrom_append, hnone, List.nil_append]
  obtain ⟨extra, hextra, hfragment⟩ :=
    @targetsFrom_fragment list list[i] parent flowId mode hnodup hmem
  obtain ⟨position, hstep⟩ := (hnormal _ hmem).toStep_placedUnder
    (gridPosition i list[i].kind) parent i
    (.ofTargets (targetsFrom fragment.distinct.edges id) list[i].guard?)
  refine ⟨position, targetsFrom fragment.distinct.edges id, extra, hextra, ?_, ?_, ?_⟩
  · rw [← hfragment]
    exact ((newcomers_sublist _ _ _).filter _).map _
  · intro t ht
    rcases mem_targetsFrom_distinct hmem ht with hkept | ⟨e, he, hclash⟩
    · exact .inl hkept
    · exact .inr ⟨e, List.mem_append_right _ he, hclash⟩
  · rw [Graph.getElem?_steps, hget, ← hstep, ← htargets]
    rfl

/-- A stored list of steps with distinct ids becomes a graph whose steps have their targets, and the
condition of their nodes: what follows a step stays as it was if there is nothing to guard or if its
condition is also the one in the settings of a condition. After loading, the same holds but for at
most one target more, which comes from the layout. After composing the list under a node with a free
namespace, each copy has the condition of its node as well, and copies of its targets, each unless
some other edge has taken its id. -/
theorem steps_lowered {v : Json.Value} (hv : v.isFinite = true) {list : List Step}
    (hread : StoredFlow.fromJson v = .ok (.steps list)) (hnodup : (list.map (·.id)).Nodup) :
    (StoredFlow.steps list).toGraph.steps = (list.mapIdx fun i s => { s with
      position := gridPosition i s.kind
      next := .ofTargets s.next.targets s.guard? }) ∧
    (∀ s ∈ list, Successors.ofTargets s.next.targets s.guard? = s.next ↔
      s.next.targets = [] ∨ s.next.condition = s.guard?) ∧
    (∀ (flowId : String) (entry : Entry), entry.flow = .steps list →
      ∀ i (hi : i < list.length), ∃ extra, extra.length ≤ 1 ∧
        (Store.load flowId entry.toPersisted).graph.steps[i]? = some { list[i] with
          position := gridPosition i list[i].kind
          next := .ofTargets (list[i].next.targets ++ extra) list[i].guard? }) ∧
    ∀ (c : Composer) (store : Store) (parent : Node) (flowId : String), list ≠ [] →
      store.graph.ClearOf parent.id → store.graph.node? parent.id = some parent →
      parent.subflowId? = some flowId → c.source flowId = .ok (.steps list) →
      let composed := (c.compose store parent.id).store.graph
      (∃ summary, (c.compose store parent.id).result = .ok summary) ∧
        ∀ i (hi : i < list.length), ∃ position targets extra, extra.length ≤ 1 ∧
          targets.Sublist (list[i].next.targets.map (namespacedId parent.id) ++ extra) ∧
          (∀ t ∈ list[i].next.targets, namespacedId parent.id t ∈ targets ∨
            ∃ e ∈ composed.edges, e.id = namespacedId parent.id (sequentialId list[i].id t) ∧
              e.ends ≠ (namespacedId parent.id list[i].id, namespacedId parent.id t)) ∧
          composed.steps[store.graph.nodes.length + i]? = some { list[i] with
            id := namespacedId parent.id list[i].id
            position
            next := .ofTargets targets list[i].guard? } := by
  have hnormal : ∀ s ∈ list, s.Normal := StoredFlow.yields_readable hv hread
  refine ⟨?_, ?_, ?_, ?_⟩
  · refine (steps_ofSteps hnodup).trans (List.mapIdx_eq_mapIdx_iff.2 fun i hi => ?_)
    exact (hnormal _ (List.getElem_mem hi)).toStep_toNode _ _
  · exact fun s hs => (hnormal s hs).ofTargets_guard?_iff
  · exact fun flowId entry hentry i hi => getElem?_steps_load hnormal hnodup flowId hentry hi
  · intro c store parent flowId hne hclear hparent hflow hstored composed
    obtain ⟨hok, hgraph⟩ := c.graph_compose_of_steps hne hclear hparent hflow hstored
    have hcomposed : composed = _ := hgraph
    rw [hcomposed]
    exact ⟨hok, fun i hi => getElem?_steps_compose hnormal hnodup hclear flowId c.mode hi⟩

/-- A condition whose settings repeat its guard keeps it, also where it is loaded or composed. -/
theorem steps_lowered_of_condition :
    let v : Json.Value := .obj [("steps", .arr [
      .obj [("condition", .str "x > 3"), ("config", .obj [("condition", .str "x > 3")]),
        ("id", .str "a"), ("next", .arr [.str "b"]), ("type", .str "condition")],
      .obj [("id", .str "b")]])]
    let parent : Node := { id := "p", config := [("default_flow_id", .str "f")] }
    let base : Store := .ofGraph ⟨[parent], []⟩
    ∃ list, v.isFinite = true ∧ StoredFlow.fromJson v = .ok (.steps list) ∧
      (list.map (·.id)).Nodup ∧
      let entry : Entry := { name := "f", flow := .steps list }
      let composer : Composer := { source := fun _ => .ok (.steps list) }
      (StoredFlow.steps list).toGraph.steps.map (·.next) = list.map (·.next) ∧
        (∃ targets, (Store.load "f" entry.toPersisted).graph.steps[0]?.map (·.next) =
          some (.ofTargets targets (some "x > 3"))) ∧
        ∃ targets, (composer.compose base "p").store.graph.steps[1]?.map (·.next) =
          some (.ofTargets targets (some "x > 3")) := by
  intro v parent base
  have hfinite : v.isFinite = true := by decide
  refine ⟨_, hfinite, rfl, by decide, ?_⟩
  intro entry composer
  obtain ⟨hsteps, -, hload, hcompose⟩ := steps_lowered hfinite rfl (by decide)
  refine ⟨?_, ?_, ?_⟩
  · rw [hsteps]
    rfl
  · obtain ⟨extra, -, hget⟩ := hload "f" entry rfl 0 (by decide)
    exact ⟨_, congrArg (Option.map (·.next)) hget⟩
  · have hclear : base.graph.ClearOf parent.id := by
      have hnode : ¬InNamespace parent.id parent.id := not_inNamespace_of_length_le (Nat.le_refl _)
      exact ⟨by simpa [base, Store.ofGraph] using hnode, by simp [base, parent, Store.ofGraph],
        by simp [base, Store.ofGraph]⟩
    obtain ⟨-, hcopies⟩ :=
      hcompose composer base parent "f" (List.cons_ne_nil _ _) hclear rfl rfl rfl
    obtain ⟨position, targets, -, -, -, -, hget⟩ := hcopies 0 (by decide)
    exact ⟨targets, congrArg (Option.map (·.next)) hget⟩

/-- A step that is no condition loses its guard. -/
theorem guard_lost_by_lowering :
    let v : Json.Value := .obj [("steps", .arr [
      .obj [("condition", .str "ok"), ("id", .str "a"), ("next", .arr [.str "b"])],
      .obj [("id", .str "b")]])]
    ∃ list, StoredFlow.fromJson v = .ok (.steps list) ∧ (list.map (·.id)).Nodup ∧
      list.map (·.next) = [.branch ["b"] (some "ok"), .terminal] ∧
      (StoredFlow.steps list).toGraph.steps.map (·.next) = [.single "b", .terminal] :=
  ⟨_, rfl, by decide, rfl, rfl⟩

end StepFlow
