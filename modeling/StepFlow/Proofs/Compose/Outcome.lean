import Mathlib.Data.List.Nodup
import StepFlow.Compose.Basic
import StepFlow.Proofs.Compose.Namespace
import StepFlow.Proofs.Keyed
import StepFlow.Proofs.Plan.Resolve

/-!
# What a composition leaves behind

A composition that succeeds has merged the fragment of a flow. Whether the node counts as composed
afterwards is read off the nodes that were composed under it, and a merge skips what is there
already. So the node counts as composed if and only if at least one copy was new. If none was, the
composition can be repeated for ever, and changes nothing after the first time.

## Main statements

* `Composer.of_compose_ok`: what a composition has done that succeeds.
* `Composer.exists_compose_ok`: when a composition succeeds.
* `Composer.hasSubflow_compose`: when a composition that succeeded counts.
* `Composer.compose_again`: composing again after one that does not count.
* `compose_settles`: what holds after a composition that succeeded.
-/

namespace StepFlow

/-- What is picked out of a list, with what comes from its first member in front. -/
theorem filterMap_cons_append {α β : Type} (f : α → Option β) (a : α) (l : List α) :
    (a :: l).filterMap f = (f a).toList ++ l.filterMap f := by
  cases h : f a <;> simp [h]

namespace Graph

variable {g : Graph} {p : String} {n : Node}

theorem of_node? (h : g.node? p = some n) : n ∈ g.nodes ∧ n.id = p :=
  ⟨List.mem_of_find?_eq_some h, of_decide_eq_true (List.find?_some h :)⟩

theorem node?_append_of_eq_some (h : g.node? p = some n) (g' : Graph) :
    (g ++ g').node? p = some n := by
  rw [node?] at h
  rw [node?, nodes_append, List.find?_append, h]
  rfl

theorem node?_of_mem (hnodup : (nodeIds g.nodes).Nodup) (h : n ∈ g.nodes) :
    g.node? n.id = some n :=
  find?_key_of_nodup hnodup h

end Graph

namespace Composer

variable {c : Composer} {s : Store} {p : String} {n : Node} {summary : MergeSummary}

theorem of_fetchFragment {f : Fragment} (h : c.fetchFragment n = .ok f) :
    ∃ flow stored, n.subflowId? = some flow ∧ c.source flow = .ok stored ∧
      f = stored.fragment n flow c.mode := by
  unfold fetchFragment at h
  split at h
  · cases h
  · next flow hflow =>
    split at h
    · cases h
    · next stored hstored =>
      simp only at h
      split at h
      · cases h
      · cases h
        exact ⟨flow, stored, hflow, hstored, rfl⟩

/-- Asking one source for all pending flows. -/
theorem composeAll_eq (c : Composer) (s : Store) :
    c.composeAll s = (s.pendingSubflows.map c.fetchFragment).foldl addFragment
      { store := s, fetched := s.pendingSubflows.filterMap (·.subflowId?) } := by
  have hrequests : ∀ parents : List Node,
      (parents.mapIdx fun _ n => (n, c.source)) = parents.map fun n => (n, c.source) := by
    intro parents
    induction parents with
    | nil => rfl
    | cons n parents ih => rw [List.mapIdx_cons, ih, List.map_cons]
  rw [composeAll, composePending, requests, hrequests, composeEach, List.map_map,
    List.filterMap_map]
  rfl

/-- A node of the flow has a copy in its fragment, so a flow with nodes can be fetched. -/
theorem fetchFragment_of_ne_nil {flow : String} (hflow : n.subflowId? = some flow)
    {stored : StoredFlow} (hstored : c.source flow = .ok stored) (hne : stored.toGraph.nodes ≠ []) :
    c.fetchFragment n = .ok (stored.fragment n flow c.mode) := by
  have hfull : (stored.fragment n flow c.mode).graph.isEmpty = false := by
    obtain ⟨m, hm⟩ := List.exists_mem_of_ne_nil _ hne
    obtain ⟨copy, hcopy, -⟩ := @exists_mem_fragment_nodes stored n flow c.mode m hm
    exact List.isEmpty_eq_false_iff_exists_mem.2 ⟨copy, hcopy⟩
  simp [fetchFragment, hflow, hstored, hfull]

theorem ne_nil_of_fetchFragment {f : Fragment} (h : c.fetchFragment n = .ok f) :
    f.graph.nodes ≠ [] := by
  intro hnil
  unfold fetchFragment at h
  split at h
  · cases h
  · split at h
    · cases h
    · simp only at h
      split at h
      · cases h
      · next hfull =>
        cases h
        exact hfull (List.isEmpty_iff.2 hnil)

/-- A fragment is for the node for which it was fetched, and so are all nodes in it. -/
theorem of_fetchFragment_isUnder {f : Fragment} (h : c.fetchFragment n = .ok f) :
    f.parent = n.id ∧ ∀ m ∈ f.graph.nodes, m.isUnder n.id := by
  obtain ⟨flow, stored, -, -, rfl⟩ := of_fetchFragment h
  refine ⟨rfl, fun m hm => ?_⟩
  obtain ⟨-, -, -, hparent⟩ := mem_fragment_nodes hm
  exact decide_eq_true hparent

theorem of_candidate (h : candidate s p = .ok n) :
    s.graph.node? p = some n ∧ s.hasSubflow p = false := by
  unfold candidate at h
  split at h
  · cases h
  · next m hm =>
    split at h
    · cases h
    · next hnone =>
      cases h
      exact ⟨hm, Bool.eq_false_iff.2 hnone⟩

theorem compose_of_node (c : Composer) (hnone : s.hasSubflow p = false)
    (hn : s.graph.node? p = some n) :
    c.compose s p = merge s n.subflowId?.toList (c.fetchFragment n) := by
  have hcandidate : candidate s p = .ok n := by simp [candidate, hn, hnone]
  rw [compose, hcandidate]

/-- A composition that succeeds has merged the fragment of the node's flow; nothing was composed
under the node before. -/
theorem of_compose_ok (h : (c.compose s p).result = .ok summary) :
    ∃ n f, s.graph.node? p = some n ∧ s.hasSubflow p = false ∧ c.fetchFragment n = .ok f ∧
      (summary, (c.compose s p).store) = s.merge f.graph := by
  cases hn : s.graph.node? p with
  | none =>
    simp only [compose, candidate, hn, merge] at h
    cases h
  | some n =>
    cases hsub : s.hasSubflow p with
    | true =>
      simp only [compose, candidate, hn, hsub, if_true, merge] at h
      cases h
    | false =>
      rw [c.compose_of_node hsub hn] at h ⊢
      cases hf : c.fetchFragment n with
      | error e =>
        rw [hf, merge] at h
        cases h
      | ok f =>
        rw [hf, merge] at h
        cases h
        exact ⟨n, f, rfl, rfl, hf, rfl⟩

theorem fetchFragment_of_compose_ok (h : (c.compose s p).result = .ok summary)
    (hn : s.graph.node? p = some n) {flow : String} (hflow : n.subflowId? = some flow)
    {stored : StoredFlow} (hstored : c.source flow = .ok stored) :
    c.fetchFragment n = .ok (stored.fragment n flow c.mode) := by
  obtain ⟨n', f, hn', -, hf, -⟩ := of_compose_ok h
  obtain rfl := Option.some.inj (hn'.symm.trans hn)
  obtain ⟨flow', stored', hflow', hstored', rfl⟩ := of_fetchFragment hf
  obtain rfl := Option.some.inj (hflow'.symm.trans hflow)
  obtain rfl := Except.ok.inj (hstored'.symm.trans hstored)
  exact hf

/-- Composing succeeds if the node refers to a stored flow with nodes and nothing is composed under
it. -/
theorem exists_compose_ok (c : Composer) (hnone : s.hasSubflow p = false)
    (hn : s.graph.node? p = some n) {flow : String} (hflow : n.subflowId? = some flow)
    {stored : StoredFlow} (hstored : c.source flow = .ok stored) (hne : stored.toGraph.nodes ≠ []) :
    ∃ summary, (c.compose s p).result = .ok summary := by
  rw [c.compose_of_node hnone hn, fetchFragment_of_ne_nil hflow hstored hne]
  exact ⟨_, rfl⟩

theorem compose_of_hasSubflow (c : Composer) (hn : s.graph.node? p = some n)
    (hsub : s.hasSubflow p = true) : (c.compose s p).result = .error (.alreadyComposed p) := by
  simp [compose, candidate, hn, hsub, merge]

end Composer

namespace Store

variable {s : Store} {g : Graph} {p : String} {n : Node}

theorem mem_pendingSubflows :
    n ∈ s.pendingSubflows ↔
      n ∈ s.graph.nodes ∧ n.subflowId?.isSome ∧ s.hasSubflow n.id = false := by
  simp [pendingSubflows, hasSubflow]

/-- After merging nodes that are all under one node, that one counts as composed if and only if one
of them was new. -/
theorem hasSubflow_merge (hnone : s.hasSubflow p = false) (hunder : ∀ n ∈ g.nodes, n.isUnder p) :
    (s.merge g).2.hasSubflow p = true ↔ 0 < (s.merge g).1.nodesAdded := by
  have hnew : ∀ n ∈ newcomers Node.clashes s.graph.nodes g.nodes, n.isUnder p :=
    fun n hn => hunder n (mem_of_mem_newcomers hn)
  rw [hasSubflow] at hnone
  rw [s.merge_eq, hasSubflow, Graph.nodes_append, List.any_append, hnone, Bool.false_or,
    List.any_eq_true, List.length_pos_iff_exists_mem]
  exact exists_congr fun n => and_iff_left_of_imp (hnew n)

/-- A merge appends no node if and only if the ids of all are taken. -/
theorem nodesAdded_merge_eq_zero_iff :
    (s.merge g).1.nodesAdded = 0 ↔ ∀ n ∈ g.nodes, n.id ∈ nodeIds s.graph.nodes := by
  rw [s.merge_eq, List.length_eq_zero_iff, newcomers_eq_nil_iff]
  simp [Node.clashes, nodeIds]

end Store

theorem nodeIds_fragment (flow : StoredFlow) (parent : Node) (flowId : String) (mode : GapMode) :
    nodeIds (flow.fragment parent flowId mode).graph.nodes =
      (nodeIds flow.toGraph.nodes).map (namespacedId parent.id) := by
  refine List.ext_getElem (by simp [nodeIds, StoredFlow.fragment]) fun i _ _ => ?_
  simp only [nodeIds, StoredFlow.fragment, List.getElem_map, List.getElem_mapIdx, Node.placedUnder]

theorem nodup_nodeIds_fragment {flow : StoredFlow} (h : (nodeIds flow.toGraph.nodes).Nodup)
    (parent : Node) (flowId : String) (mode : GapMode) :
    (nodeIds (flow.fragment parent flowId mode).graph.nodes).Nodup := by
  rw [nodeIds_fragment]
  exact h.map fun _ _ => namespacedId_inj.1

/-- A property of ids holds of all copies in a fragment if it holds of all ids that they get. -/
theorem StoredFlow.forall_copy_id {stored : StoredFlow} {n : Node} {flow : String} {mode : GapMode}
    {P : String → Prop} :
    (∀ copy ∈ (stored.fragment n flow mode).graph.nodes, P copy.id) ↔
      ∀ m ∈ stored.toGraph.nodes, P (namespacedId n.id m.id) := by
  constructor
  · intro hall m hm
    obtain ⟨copy, hcopy, hid⟩ := @exists_mem_fragment_nodes stored n flow mode m hm
    exact hid ▸ hall copy hcopy
  · intro hall copy hcopy
    obtain ⟨m, hm, hid, -⟩ := mem_fragment_nodes hcopy
    exact hid ▸ hall m hm

namespace Composer

variable {c : Composer} {s : Store} {p : String} {n : Node} {summary : MergeSummary}

theorem node?_compose (h : (c.compose s p).result = .ok summary)
    (hn : s.graph.node? p = some n) : (c.compose s p).store.graph.node? p = some n := by
  obtain ⟨-, f, -, -, -, hmerge⟩ := of_compose_ok h
  rw [show (c.compose s p).store = _ from congrArg Prod.snd hmerge, s.merge_eq]
  exact Graph.node?_append_of_eq_some hn _

/-- A composition that succeeded counts if it added a node. -/
theorem hasSubflow_compose (h : (c.compose s p).result = .ok summary) :
    (c.compose s p).store.hasSubflow p = true ↔ 0 < summary.nodesAdded := by
  obtain ⟨n, f, hn, hnone, hf, hmerge⟩ := of_compose_ok h
  obtain ⟨-, rfl⟩ := Graph.of_node? hn
  rw [show (c.compose s n.id).store = _ from congrArg Prod.snd hmerge,
    show summary = _ from congrArg Prod.fst hmerge]
  exact Store.hasSubflow_merge hnone (of_fetchFragment_isUnder hf).2

theorem nodesAdded_compose_eq_zero_iff (h : (c.compose s p).result = .ok summary)
    (hn : s.graph.node? p = some n) {flow : String} (hflow : n.subflowId? = some flow)
    {stored : StoredFlow} (hstored : c.source flow = .ok stored) :
    summary.nodesAdded = 0 ↔
      ∀ m ∈ stored.toGraph.nodes, namespacedId p m.id ∈ nodeIds s.graph.nodes := by
  obtain ⟨n', f, hn', -, hf, hmerge⟩ := of_compose_ok h
  obtain rfl := Option.some.inj (hn'.symm.trans hn)
  obtain rfl := Except.ok.inj (hf.symm.trans (fetchFragment_of_compose_ok h hn hflow hstored))
  obtain ⟨-, rfl⟩ := Graph.of_node? hn
  rw [show summary = _ from congrArg Prod.fst hmerge, Store.nodesAdded_merge_eq_zero_iff,
    StoredFlow.forall_copy_id]

/-- A composition that succeeded without counting can be repeated, and changes nothing then. -/
theorem compose_again (h : (c.compose s p).result = .ok summary)
    (hnone : (c.compose s p).store.hasSubflow p = false) :
    (c.compose (c.compose s p).store p).result = .ok ⟨0, 0⟩ ∧
      (c.compose (c.compose s p).store p).store = (c.compose s p).store := by
  obtain ⟨n, f, hn, -, hf, hmerge⟩ := of_compose_ok h
  have hagain : (c.compose s p).store.merge f.graph = (⟨0, 0⟩, (c.compose s p).store) := by
    rw [show (c.compose s p).store = _ from congrArg Prod.snd hmerge]
    exact s.merge_again f.graph
  rw [c.compose_of_node hnone (node?_compose h hn), hf, merge, hagain]
  exact ⟨rfl, rfl⟩

end Composer

/-- After a composition that succeeded, the node counts as composed if at least one node of the
flow got a new id: it is pending no longer and cannot be composed again. If the ids of all copies
were taken, no node was added and the node is as pending as before; composing again succeeds and
changes nothing. -/
theorem compose_settles (c : Composer) (s : Store) (p : String) {summary : MergeSummary}
    (h : (c.compose s p).result = .ok summary) :
    let composed := (c.compose s p).store
    ∃ n flow stored, s.graph.node? p = some n ∧ n.subflowId? = some flow ∧
      c.source flow = .ok stored ∧
      ((∃ m ∈ stored.toGraph.nodes, namespacedId p m.id ∉ nodeIds s.graph.nodes) →
        0 < summary.nodesAdded ∧ composed.hasSubflow p = true ∧
        (∀ m ∈ composed.pendingSubflows, m.id ≠ p) ∧
        ∀ other : Composer, (other.compose composed p).result = .error (.alreadyComposed p)) ∧
      ((∀ m ∈ stored.toGraph.nodes, namespacedId p m.id ∈ nodeIds s.graph.nodes) →
        summary.nodesAdded = 0 ∧ composed.hasSubflow p = false ∧ n ∈ composed.pendingSubflows ∧
        (c.compose composed p).result = .ok ⟨0, 0⟩ ∧ (c.compose composed p).store = composed) := by
  intro composed
  obtain ⟨n, f, hn, -, hf, -⟩ := Composer.of_compose_ok h
  obtain ⟨flow, stored, hflow, hstored, rfl⟩ := Composer.of_fetchFragment hf
  have hadded := Composer.nodesAdded_compose_eq_zero_iff h hn hflow hstored
  have hsub : composed.hasSubflow p = true ↔ 0 < summary.nodesAdded :=
    Composer.hasSubflow_compose h
  have hnode : composed.graph.node? p = some n := Composer.node?_compose h hn
  refine ⟨n, flow, stored, hn, hflow, hstored, ?_, ?_⟩
  · rintro ⟨m, hm, hfree⟩
    have hpos : 0 < summary.nodesAdded :=
      Nat.pos_of_ne_zero fun hzero => hfree (hadded.1 hzero m hm)
    have htrue := hsub.2 hpos
    refine ⟨hpos, htrue, ?_, fun other => other.compose_of_hasSubflow hnode htrue⟩
    rintro m hm rfl
    obtain ⟨-, -, hfalse⟩ := Store.mem_pendingSubflows.1 hm
    exact Bool.false_ne_true (hfalse.symm.trans htrue)
  · intro htaken
    have hzero := hadded.2 htaken
    have hfalse : composed.hasSubflow p = false := by
      refine Bool.eq_false_iff.2 fun htrue => ?_
      have hpos := hsub.1 htrue
      omega
    have hpending : n ∈ composed.pendingSubflows := by
      obtain ⟨hmem, hid⟩ := Graph.of_node? hnode
      exact Store.mem_pendingSubflows.2 ⟨hmem, by simp [hflow], by rwa [hid]⟩
    obtain ⟨hresult, hstore⟩ := Composer.compose_again h hfalse
    exact ⟨hzero, hfalse, hpending, hresult, hstore⟩

/-- Of the ids of two copies one is taken. -/
theorem compose_settles_beside_taken_id :
    let composer : Composer := {
      source := fun _ => .ok (.graph ⟨[{ id := "a" }, { id := "b" }], []⟩) }
    let s : Store := .ofGraph ⟨[{ id := "p", config := [(subflowKey, .str "f")] },
      { id := "p__a" }], []⟩
    let composed := (composer.compose s "p").store
    ∃ summary, (composer.compose s "p").result = .ok summary ∧ 0 < summary.nodesAdded ∧
      composed.hasSubflow "p" = true ∧ (∀ m ∈ composed.pendingSubflows, m.id ≠ "p") ∧
      (composer.compose composed "p").result = .error (.alreadyComposed "p") := by
  intro composer s composed
  have hok : ∃ summary, (composer.compose s "p").result = .ok summary :=
    composer.exists_compose_ok rfl rfl rfl rfl (List.cons_ne_nil _ _)
  obtain ⟨summary, hsummary⟩ := hok
  obtain ⟨n, flow, stored, -, -, ⟨⟩, hnew, -⟩ := compose_settles composer s "p" hsummary
  obtain ⟨hadded, hsub, hpending, hagain⟩ :=
    hnew ⟨{ id := "b" }, by simp [StoredFlow.toGraph], by decide⟩
  exact ⟨summary, hsummary, hadded, hsub, hpending, hagain composer⟩

/-- If the id of the only copy is taken, a composition that succeeds does not count. -/
theorem compose_onto_taken_id :
    let composer : Composer := { source := fun _ => .ok (.graph ⟨[{ id := "a" }], []⟩) }
    let s : Store := .ofGraph ⟨[{ id := "p", config := [(subflowKey, .str "f")] },
      { id := "p__a" }], []⟩
    let composed := (composer.compose s "p").store
    (nodeIds s.graph.nodes).Nodup ∧ (∃ summary, (composer.compose s "p").result = .ok summary) ∧
      composed.hasSubflow "p" = false ∧ composed.pendingSubflows.map (·.id) = ["p"] ∧
      ∃ summary, (composer.compose composed "p").result = .ok summary := by
  intro composer s composed
  have hok : ∀ s' : Store, s'.hasSubflow "p" = false →
      s'.graph.node? "p" = some { id := "p", config := [(subflowKey, .str "f")] } →
      ∃ summary, (composer.compose s' "p").result = .ok summary := by
    intro s' hnone hn
    exact composer.exists_compose_ok hnone hn rfl rfl (List.cons_ne_nil _ _)
  exact ⟨by decide, hok s rfl rfl, rfl, rfl, hok composed rfl rfl⟩

end StepFlow
