import StepFlow.Proofs.Compose.Orphans
import StepFlow.Proofs.Compose.Outcome

/-!
# What edits do to the graph

Most edits that add something bring in a graph and append what is new of it; composing all pending
flows brings in all their fragments at once. Apart from these there are edits that take something
out, edits that change nodes under their ids, and three with a rule of their own: a new agent, a
connection and a flow from storage. An edit that fails leaves the graph as it is.

## Main definitions

* `Store.Brings`: the graph that an edit brings in.
* `Store.Revision`: a graph that an edit may leave behind.
* `Store.Permits`: a list of commands each of which is permitted in the store that it finds.

## Main statements

* `Store.revision_edit`: every edit leaves such a graph.
* `Store.Permits.keeps`, `Store.permits_iff`: what permitted commands keep.
-/

namespace StepFlow

/-- The graph of a flow from storage. -/
def PersistedFlow.graph (flow : PersistedFlow) : Graph :=
  ⟨flow.nodes, flow.edges⟩

/-- Whether both ends of an edge are among the given nodes. -/
def Edge.Within (e : Edge) (nodes : List Node) : Prop :=
  e.source ∈ nodeIds nodes ∧ e.target ∈ nodeIds nodes

instance (e : Edge) (nodes : List Node) : Decidable (e.Within nodes) :=
  inferInstanceAs (Decidable (_ ∧ _))

theorem Edge.Within.mono {e : Edge} {nodes nodes' : List Node} (h : e.Within nodes)
    (hsub : nodeIds nodes ⊆ nodeIds nodes') : e.Within nodes' :=
  ⟨hsub h.1, hsub h.2⟩

namespace Graph

variable {g more : Graph} {id source target : String}

theorem hasNode_iff : g.hasNode id = true ↔ id ∈ nodeIds g.nodes := by
  simp [hasNode, node?, nodeIds]

theorem isSome_edgeBetween? : (g.edgeBetween? source target).isSome = g.connects source target := by
  rw [Bool.eq_iff_iff, edgeBetween?, connects, List.find?_isSome, List.any_eq_true]

theorem mem_nodeIds_merge :
    id ∈ nodeIds (g.merge more).nodes ↔ id ∈ nodeIds g.nodes ∨ id ∈ nodeIds more.nodes := by
  rw [nodes_merge, nodeIds_append, List.mem_append]
  refine or_congr_right' fun hout => ?_
  constructor
  · intro h
    obtain ⟨n, hn, rfl⟩ := List.mem_map.1 h
    exact List.mem_map_of_mem (mem_of_mem_newcomers hn)
  · intro h
    obtain ⟨n, hn, rfl⟩ := List.mem_map.1 h
    -- a node that is not taken shares its id with one that is there
    obtain ⟨known, hknown, hclash⟩ := @exists_clash _ _ g.nodes _ n Node.clashes_self hn
    rw [← of_decide_eq_true (hclash : known.clashes n = true)]
    rcases List.mem_append.1 hknown with hknown | hknown
    · exact absurd (of_decide_eq_true hclash ▸ List.mem_map_of_mem hknown) hout
    · exact List.mem_map_of_mem hknown

end Graph

namespace Composer

/-- The graph of the fragment for a node, empty if there is none. -/
def fragmentGraph (c : Composer) (n : Node) : Graph :=
  match c.fetchFragment n with
  | .ok f => f.graph
  | .error _ => {}

/-- The fragments for several nodes side by side. -/
def fragmentGraphs (c : Composer) (parents : List Node) : Graph :=
  parents.foldr (fun n g => c.fragmentGraph n ++ g) {}

theorem graph_merge (c : Composer) (s : Store) (fetched : List String) (n : Node) :
    (merge s fetched (c.fetchFragment n)).store.graph = s.graph.merge (c.fragmentGraph n) := by
  rw [fragmentGraph]
  cases c.fetchFragment n with
  | error e => exact s.graph.merge_empty.symm
  | ok f => exact s.graph_merge f.graph

theorem graph_addFragment (c : Composer) (r : CompositionReport) (n : Node) :
    (addFragment r (c.fetchFragment n)).store.graph =
      r.store.graph.merge (c.fragmentGraph n) := by
  rw [fragmentGraph]
  cases c.fetchFragment n with
  | error e => exact r.store.graph.merge_empty.symm
  | ok f => exact r.store.graph_merge f.graph

/-- Composing several flows merges all their fragments. -/
theorem graph_foldl_addFragment (c : Composer) (parents : List Node) (r : CompositionReport) :
    ((parents.map c.fetchFragment).foldl addFragment r).store.graph =
      r.store.graph.merge (c.fragmentGraphs parents) := by
  induction parents generalizing r with
  | nil => exact r.store.graph.merge_empty.symm
  | cons n parents ih =>
    rw [List.map_cons, List.foldl_cons, ih, c.graph_addFragment, ← Graph.merge_append]
    rfl

end Composer

namespace Store

variable {s s' : Store} {c : Command} {g : Graph}

/-- The graph that an edit brings in. -/
inductive Brings (s : Store) : Command → Graph → Prop
  | node (n : Node) : Brings s (.addNode n) ⟨[n], []⟩
  | edge (e : Edge) : Brings s (.addEdge e) ⟨[], [e]⟩
  | gaps (mode : GapMode) :
    Brings s (.fillGaps mode) ⟨[], gapEdges s.graph.nodes s.graph.edges mode⟩
  | graph (g : Graph) : Brings s (.merge g) g
  | fragment (c : Composer) {p : String} {n : Node} (h : Composer.candidate s p = .ok n) :
    Brings s (.compose c p) (c.fragmentGraph n)
  | fragments (c : Composer) : Brings s (.composeAll c) (c.fragmentGraphs s.pendingSubflows)

/-- A graph that an edit may leave behind. -/
inductive Revision (s : Store) : Command → Graph → Prop
  | merged {c : Command} {more : Graph} (h : s.Brings c more) : Revision s c (s.graph.merge more)
  /-- Something was taken out, and no edge stayed without a node that it had. -/
  | trimmed {c : Command} {nodes : List Node} {edges : List Edge}
    (hnodes : nodes.Sublist s.graph.nodes) (hedges : edges.Sublist s.graph.edges)
    (hwithin : ∀ e ∈ edges, e.Within s.graph.nodes → e.Within nodes) : Revision s c ⟨nodes, edges⟩
  | altered {c : Command} {nodes : List Node} (hids : nodeIds nodes = nodeIds s.graph.nodes) :
    Revision s c ⟨nodes, s.graph.edges⟩
  | agent (id : String) (position : Position) :
    Revision s (.addAgent id position) (s.graph ++ ⟨[.agent id position], []⟩)
  | joined {source target : String} (hwithin : (Edge.sequential source target).Within s.graph.nodes)
    (hfree : s.graph.connects source target = false) :
    Revision s (.connect source target) (s.graph ++ ⟨[], [.sequential source target]⟩)
  | loaded (flowId : String) (flow : PersistedFlow) :
    Revision s (.load flowId flow) (flow.graph.merge ⟨[], sequentialChain flow.nodes⟩)

theorem Revision.kept (s : Store) (c : Command) : s.Revision c s.graph :=
  .altered rfl

/-- An edit that may fail leaves such a graph if it does so where it succeeds. -/
theorem revision_editedOr {β : Type} {result : Except StoreError β} {f : β → Answer × Store}
    (h : ∀ b, result = .ok b → s.Revision c (f b).2.graph) :
    s.Revision c (s.editedOr (result.map f)).store.graph := by
  cases result with
  | ok b => exact h b rfl
  | error e => exact .kept s c

theorem graph_addNode (s : Store) (n : Node) :
    (s.edit (.addNode n)).store.graph = s.graph.merge ⟨[n], []⟩ := by
  have htaken : s.graph.hasNode n.id = s.graph.nodes.any (·.clashes n) := by
    rw [Bool.eq_iff_iff, Graph.hasNode, Graph.node?, List.find?_isSome, List.any_eq_true]
    rfl
  simp only [edit, addNode, Graph.merge, newcomers, htaken]
  split
  · exact (Graph.append_empty _).symm
  · exact Graph.ext rfl (List.append_nil _).symm

theorem graph_addEdge (s : Store) (e : Edge) : (s.addEdge e).2.graph = s.graph.merge ⟨[], [e]⟩ := by
  refine Graph.ext (List.append_nil _).symm ?_
  exact congrArg Prod.fst (mergeEdges_eq s.graph.edges [e])

theorem graph_fillGaps (s : Store) (mode : GapMode) :
    (s.fillGaps mode).2.graph =
      s.graph.merge ⟨[], gapEdges s.graph.nodes s.graph.edges mode⟩ :=
  Graph.ext (List.append_nil _).symm (fillGaps_eq ..)

theorem graph_load (flowId : String) (flow : PersistedFlow) :
    (load flowId flow).graph = flow.graph.merge ⟨[], sequentialChain flow.nodes⟩ := by
  refine Graph.ext (List.append_nil _).symm ?_
  exact congrArg Prod.fst (mergeEdges_eq flow.edges _)

theorem nodeIds_modifyNode (id : String) {f : Node → Node} (hf : ∀ n, (f n).id = n.id)
    (nodes : List Node) : nodeIds (modifyNode id f nodes) = nodeIds nodes := by
  induction nodes with
  | nil => rfl
  | cons n nodes ih =>
    rw [modifyNode]
    split
    · exact congrArg (· :: nodeIds nodes) (hf n)
    · exact congrArg (n.id :: ·) ih

theorem revision_updateNode {id : String} {f : Node → Node} (h : s.updateNode id f = .ok s')
    (hf : ∀ n, (f n).id = n.id) : s.Revision c s'.graph := by
  unfold updateNode at h
  split at h
  · cases h
    exact .altered (nodeIds_modifyNode id hf _)
  · cases h

/-- A node that is taken out takes along the edges that touch it; another node of its id stays. -/
theorem revision_removeNode {id : String} {n : Node} (h : s.removeNode id = .ok (n, s')) :
    s.Revision c s'.graph := by
  unfold removeNode at h
  split at h
  · cases h
  · cases h
    refine .trimmed List.eraseP_sublist List.filter_sublist fun e he hwithin => ?_
    have huntouched : e.source ≠ id ∧ e.target ≠ id := by
      simpa [Edge.touches] using (List.mem_filter.1 he).2
    exact ⟨mem_nodeIds_eraseP hwithin.1 huntouched.1, mem_nodeIds_eraseP hwithin.2 huntouched.2⟩

theorem revision_removeSubflow (s : Store) (p : String) :
    s.Revision c (s.removeSubflow p).2.graph := by
  refine .trimmed List.filter_sublist List.filter_sublist fun e he hwithin => ?_
  have huntouched : e.source ∉ s.subflowIds p ∧ e.target ∉ s.subflowIds p := by
    simpa using (List.mem_filter.1 he).2
  exact ⟨mem_nodeIds_removeSubflow.2 ⟨hwithin.1, huntouched.1⟩,
    mem_nodeIds_removeSubflow.2 ⟨hwithin.2, huntouched.2⟩⟩

theorem connect_of_within {source target : String}
    (hwithin : (Edge.sequential source target).Within s.graph.nodes)
    (hfree : s.graph.connects source target = false) :
    s.connect source target = .ok (sequentialId source target,
      s.withEdges (s.graph.edges ++ [.sequential source target])) := by
  have hnone : s.graph.edgeBetween? source target = none := by
    rw [← Option.isNone_iff_eq_none, ← Option.not_isSome, Graph.isSome_edgeBetween?, hfree]
    rfl
  have hsource : s.graph.hasNode source = true := Graph.hasNode_iff.2 hwithin.1
  have htarget : s.graph.hasNode target = true := Graph.hasNode_iff.2 hwithin.2
  simp [connect, hsource, htarget, hnone]

/-- The exits of a connection: an end is no node, the nodes are joined already, or an edge is
appended. -/
theorem connect_cases (s : Store) (source target : String) :
    (∃ e, s.connect source target = .error e ∧
      ¬(Edge.sequential source target).Within s.graph.nodes) ∨
    (∃ e ∈ s.graph.edges, e.source = source ∧ e.target = target ∧
      s.graph.connects source target = true ∧ s.connect source target = .ok (e.id, s)) ∨
    ((Edge.sequential source target).Within s.graph.nodes ∧
      s.graph.connects source target = false ∧
      s.connect source target = .ok (sequentialId source target,
        s.withEdges (s.graph.edges ++ [.sequential source target]))) := by
  by_cases hsource : s.graph.hasNode source = true
  · by_cases htarget : s.graph.hasNode target = true
    · right
      have hwithin : (Edge.sequential source target).Within s.graph.nodes :=
        ⟨Graph.hasNode_iff.1 hsource, Graph.hasNode_iff.1 htarget⟩
      cases hfree : s.graph.connects source target with
      | false => exact .inr ⟨hwithin, rfl, connect_of_within hwithin hfree⟩
      | true =>
        rw [← Graph.isSome_edgeBetween?] at hfree
        obtain ⟨e, he⟩ := Option.isSome_iff_exists.1 hfree
        have hends := List.find?_some he
        simp only [Bool.and_eq_true, decide_eq_true_eq] at hends
        exact .inl ⟨e, List.mem_of_find?_eq_some he, hends.1, hends.2, rfl,
          by simp [connect, hsource, htarget, he]⟩
    · exact .inl ⟨.unknownNode target, by simp [connect, hsource, htarget],
        fun h => htarget (Graph.hasNode_iff.2 h.2)⟩
  · exact .inl ⟨.unknownNode source, by simp [connect, hsource],
      fun h => hsource (Graph.hasNode_iff.2 h.1)⟩

theorem revision_connect {source target id : String} (h : s.connect source target = .ok (id, s')) :
    s.Revision (.connect source target) s'.graph := by
  rcases s.connect_cases source target with ⟨e, herror, -⟩ | ⟨e, -, -, -, -, hkept⟩ |
    ⟨hwithin, hfree, hjoined⟩
  · rw [herror] at h
    cases h
  · rw [hkept] at h
    cases h
    exact .kept _ _
  · rw [hjoined] at h
    cases h
    have hgraph : (s.withEdges (s.graph.edges ++ [.sequential source target])).graph =
        s.graph ++ ⟨[], [.sequential source target]⟩ :=
      Graph.ext (List.append_nil _).symm rfl
    rw [hgraph]
    exact .joined hwithin hfree

theorem revision_compose (s : Store) (composer : Composer) (p : String) :
    s.Revision (.compose composer p) (composer.compose s p).store.graph := by
  rw [Composer.compose]
  split
  · exact .kept _ _
  · next n hn =>
    rw [composer.graph_merge]
    exact .merged (.fragment composer hn)

/-- Every edit leaves a graph of one of these kinds. -/
theorem revision_edit (s : Store) (c : Command) : s.Revision c (s.edit c).store.graph := by
  cases c with
  | addNode n =>
    rw [s.graph_addNode]
    exact .merged (.node n)
  | addEdge e =>
    rw [edit, edited, s.graph_addEdge]
    exact .merged (.edge e)
  | fillGaps mode =>
    rw [edit, edited, s.graph_fillGaps]
    exact .merged (.gaps mode)
  | merge g =>
    rw [edit, edited, s.graph_merge]
    exact .merged (.graph g)
  | compose composer parent => exact s.revision_compose composer parent
  | composeAll composer =>
    rw [edit, composer.composeAll_eq, composer.graph_foldl_addFragment]
    exact .merged (.fragments composer)
  | load flowId flow =>
    rw [edit, edited, graph_load]
    exact .loaded flowId flow
  | addAgent id position =>
    rw [show (s.edit (.addAgent id position)).store.graph = s.graph ++ ⟨[.agent id position], []⟩
      from Graph.ext rfl (List.append_nil _).symm]
    exact .agent id position
  | connect source target => exact revision_editedOr fun _ h => revision_connect h
  | removeNode id => exact revision_editedOr fun _ h => revision_removeNode h
  | moveNode id position =>
    exact revision_editedOr fun _ h => revision_updateNode h fun _ => rfl
  | patchConfig id patch =>
    exact revision_editedOr fun _ h => revision_updateNode h fun _ => rfl
  | removeSubflow parent => exact s.revision_removeSubflow parent
  | removeEdge id => exact .trimmed (List.Sublist.refl _) List.eraseP_sublist fun _ _ h => h
  | clear =>
    exact .trimmed (List.nil_sublist _) (List.nil_sublist _) fun _ h => absurd h List.not_mem_nil
  | setPointers | record | resetRun | setMetadata | setFlowId => exact .kept _ _

section Permits

variable {allowed : Store → Command → Prop} {I : Graph → Prop} {commands : List Command}

/-- Whether each of several commands is permitted in the store that it finds. -/
def Permits (allowed : Store → Command → Prop) (s : Store) : List Command → Prop
  | [] => True
  | c :: rest => allowed s c ∧ (s.edit c).store.Permits allowed rest

/-- What each permitted command keeps is kept by all of them. -/
theorem Permits.keeps (hstep : ∀ (s : Store) (c : Command), I s.graph → allowed s c →
    I (s.edit c).store.graph) (h : s.Permits allowed commands) (hs : I s.graph) :
    I (s.editAll commands).graph := by
  induction commands generalizing s with
  | nil => exact hs
  | cons c rest ih => exact ih h.2 (hstep s c hs h.1)

/-- If a command keeps something exactly where it is permitted, then all commands are permitted
exactly if it holds at every point in between. -/
theorem permits_iff (hstep : ∀ (s : Store) (c : Command), I s.graph →
    (I (s.edit c).store.graph ↔ allowed s c)) (hs : I s.graph) :
    s.Permits allowed commands ↔ ∀ earlier, earlier <+: commands → I (s.editAll earlier).graph := by
  induction commands generalizing s with
  | nil =>
    refine iff_of_true trivial fun earlier h => ?_
    rw [List.prefix_nil.1 h]
    exact hs
  | cons c rest ih =>
    constructor
    · rintro ⟨hc, hrest⟩ earlier hearlier
      cases earlier with
      | nil => exact hs
      | cons c' earlier =>
        obtain ⟨rfl, hlater⟩ := List.cons_prefix_cons.1 hearlier
        exact (ih ((hstep s c' hs).2 hc)).1 hrest earlier hlater
    · intro hall
      have hc : I (s.edit c).store.graph :=
        hall [c] (List.cons_prefix_cons.2 ⟨rfl, List.nil_prefix⟩)
      refine ⟨(hstep s c hs).1 hc, (ih hc).2 fun earlier hearlier => ?_⟩
      exact hall (c :: earlier) (List.cons_prefix_cons.2 ⟨rfl, hearlier⟩)

end Permits

end Store

end StepFlow
