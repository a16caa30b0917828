import StepFlow.Compose.Fragment
import StepFlow.Proofs.Layout.Gaps
import StepFlow.Proofs.Store.Merge

/-!
# Namespaces

What is copied below a node has ids that start with the id of the node and a separator. The
separator may occur in ids, so the namespaces of two nodes are apart only if neither id goes on with
the first character of the separator where the other one ends.

## Main definitions

* `InNamespace`: the ids of what is copied below a node.
* `Graph.ClearOf`: a graph with nothing in the namespace of a node.
* `Graph.Beneath`: a graph that is copied below a node.
* `Graph.Attached`: a graph whose edges all touch one of its nodes.

## Main statements

* `eq_of_inNamespace`: when namespaces are apart.
* `StoredFlow.fragment_beneath`: a fragment is in the namespace of its parent.
* `Graph.ClearOf.merge`: merging a fragment into a clear graph.
-/

namespace StepFlow

/-- Whether an id is one of those that are copied below a node. -/
def InNamespace (parent id : String) : Prop :=
  ∃ inner, id = namespacedId parent inner

theorem inNamespace_namespacedId (parent inner : String) :
    InNamespace parent (namespacedId parent inner) :=
  ⟨inner, rfl⟩

theorem namespacedId_inj {p a b : String} : namespacedId p a = namespacedId p b ↔ a = b := by
  refine ⟨fun h => String.toList_inj.1 ?_, congrArg _⟩
  have hchars := congrArg String.toList h
  simp only [namespacedId, String.toList_append] at hchars
  exact List.append_cancel_left hchars

theorem ne_append_of_length_le {text p sign : String} (hlength : text.length ≤ p.length)
    (hsign : 0 < sign.length) (rest : String) : text ≠ p ++ sign ++ rest := by
  intro h
  have hlong := congrArg String.length h
  rw [String.length_append, String.length_append] at hlong
  omega

theorem not_inNamespace_of_length_le {parent id : String} (h : id.length ≤ parent.length) :
    ¬InNamespace parent id := by
  rintro ⟨inner, hinner⟩
  exact ne_append_of_length_le h (by decide) inner hinner

theorem inNamespace_sequentialId {parent source : String} (h : InNamespace parent source)
    (target : String) : InNamespace parent (sequentialId source target) := by
  obtain ⟨inner, rfl⟩ := h
  exact ⟨sequentialId inner target, by simp only [sequentialId, namespacedId, String.append_assoc]⟩

/-- The id of a connector is that of an edge copied below the node. -/
theorem connectorId_eq (parent first : String) :
    connectorId parent first = namespacedId parent ("connect__" ++ first) := by
  have hsplit : "__connect__" = "__" ++ "connect__" := by simp
  rw [connectorId, namespacedId, hsplit, ← String.append_assoc, ← String.append_assoc]

theorem inNamespace_connectorId (parent first : String) :
    InNamespace parent (connectorId parent first) :=
  ⟨"connect__" ++ first, connectorId_eq parent first⟩

/-- Two texts that end before the same sign of one text are the same, or the shorter one goes on
with the sign in the longer one. -/
theorem eq_or_continues {p q x y : List Char} {sign : Char} (h : p ++ sign :: x = q ++ sign :: y) :
    p = q ∨ (∃ rest, q = p ++ sign :: rest) ∨ ∃ rest, p = q ++ sign :: rest := by
  rcases List.append_eq_append_iff.1 h with ⟨more, rfl, hmore⟩ | ⟨more, rfl, hmore⟩
  · cases more with
    | nil => exact .inl (List.append_nil p).symm
    | cons c more =>
      obtain ⟨rfl, -⟩ := List.cons.inj hmore
      exact .inr (.inl ⟨more, rfl⟩)
  · cases more with
    | nil => exact .inl (List.append_nil q)
    | cons c more =>
      obtain ⟨rfl, -⟩ := List.cons.inj hmore
      exact .inr (.inr ⟨more, rfl⟩)

/-- Namespaces are apart unless the id of one node goes on with the separator where the other one
ends. -/
theorem eq_of_inNamespace {p q id : String} (hp : InNamespace p id) (hq : InNamespace q id)
    (hpq : ∀ rest, q ≠ p ++ "_" ++ rest) (hqp : ∀ rest, p ≠ q ++ "_" ++ rest) : p = q := by
  obtain ⟨a, rfl⟩ := hp
  obtain ⟨b, hb⟩ := hq
  have hseparator : "__".toList = ['_', '_'] := by simp
  have hsign : "_".toList = ['_'] := by simp
  have hlist : p.toList ++ '_' :: '_' :: a.toList = q.toList ++ '_' :: '_' :: b.toList := by
    have hchars := congrArg String.toList hb
    simpa only [namespacedId, String.toList_append, List.append_assoc, hseparator,
      List.cons_append, List.nil_append] using hchars
  have hcontinues : ∀ (r s : String) (rest : List Char), s.toList = r.toList ++ '_' :: rest →
      s = r ++ "_" ++ String.ofList rest := by
    intro r s rest hrest
    refine String.toList_inj.1 ?_
    rw [hrest]
    simp only [String.toList_append, String.toList_ofList, hsign, List.append_assoc,
      List.cons_append, List.nil_append]
  -- the ids agree up to the first sign of a separator, which one of the two may have inside
  rcases eq_or_continues hlist with heq | ⟨rest, hrest⟩ | ⟨rest, hrest⟩
  · exact String.toList_inj.1 heq
  · exact absurd (hcontinues p q rest hrest) (hpq _)
  · exact absurd (hcontinues q p rest hrest) (hqp _)

namespace Graph

/-- Whether nothing in a graph has the name of something below a node: no node and no edge has such
an id, no edge ends at such an id, and no node says that it was composed under it. -/
structure ClearOf (g : Graph) (p : String) : Prop where
  node : ∀ n ∈ g.nodes, ¬InNamespace p n.id
  parent : ∀ n ∈ g.nodes, n.parent ≠ some p
  edge : ∀ e ∈ g.edges, ¬InNamespace p e.id ∧ ¬InNamespace p e.source ∧ ¬InNamespace p e.target

/-- Whether a graph is one that is copied below a node. Only its connector leaves the node
itself. -/
structure Beneath (g : Graph) (p : String) : Prop where
  node : ∀ n ∈ g.nodes, InNamespace p n.id ∧ n.parent = some p
  edge : ∀ e ∈ g.edges, InNamespace p e.id ∧ (e.source = p ∨ InNamespace p e.source) ∧
    InNamespace p e.target

/-- Whether every edge touches a node of the graph. -/
def Attached (g : Graph) : Prop :=
  ∀ e ∈ g.edges, ∃ n ∈ g.nodes, e.touches n.id

variable {g g' : Graph} {p q : String}

theorem ClearOf.append (h : g.ClearOf p) (h' : g'.ClearOf p) : (g ++ g').ClearOf p where
  node n hn := (List.mem_append.1 hn).elim (h.node n) (h'.node n)
  parent n hn := (List.mem_append.1 hn).elim (h.parent n) (h'.parent n)
  edge e he := (List.mem_append.1 he).elim (h.edge e) (h'.edge e)

theorem clearOf_empty (p : String) : ClearOf {} p where
  node _ hn := absurd hn List.not_mem_nil
  parent _ hn := absurd hn List.not_mem_nil
  edge _ he := absurd he List.not_mem_nil

theorem beneath_empty (p : String) : Beneath {} p where
  node _ hn := absurd hn List.not_mem_nil
  edge _ he := absurd he List.not_mem_nil

theorem Beneath.distinct (h : g.Beneath p) : g.distinct.Beneath p where
  node n hn := h.node n (mem_of_mem_distinct_nodes hn)
  edge e he := h.edge e (mem_of_mem_distinct_edges he)

theorem Attached.distinct (h : g.Attached) : g.distinct.Attached := by
  intro e he
  obtain ⟨n, hn, htouches⟩ := h e (mem_of_mem_distinct_edges he)
  obtain ⟨m, hm, hid⟩ := exists_distinct hn
  exact ⟨m, hm, hid ▸ htouches⟩

/-- What is copied below one node is clear of another one whose namespace is apart. -/
theorem Beneath.clearOf (h : g.Beneath p) (hne : p ≠ q) (hpq : ∀ rest, q ≠ p ++ "_" ++ rest)
    (hqp : ∀ rest, p ≠ q ++ "_" ++ rest) (hout : ¬InNamespace q p) : g.ClearOf q where
  node n hn hin := hne (eq_of_inNamespace (h.node n hn).1 hin hpq hqp)
  parent n hn hparent := hne (Option.some.inj ((h.node n hn).2.symm.trans hparent))
  edge e he := by
    obtain ⟨hid, hsource, htarget⟩ := h.edge e he
    refine ⟨fun hin => hne (eq_of_inNamespace hid hin hpq hqp), ?_,
      fun hin => hne (eq_of_inNamespace htarget hin hpq hqp)⟩
    rcases hsource with rfl | hsource
    · exact hout
    · exact fun hin => hne (eq_of_inNamespace hsource hin hpq hqp)

/-- What is copied below a node clashes with nothing in a graph that is clear of the node. -/
theorem ClearOf.merge {s : Store} (h : s.graph.ClearOf p) (hg : g.Beneath p) :
    s.merge g = (⟨g.distinct.nodes.length, g.distinct.edges.length⟩,
      { s with graph := s.graph ++ g.distinct }) := by
  refine Store.merge_of_fresh ?_ ?_
  · intro n hn known hknown hid
    exact h.node known hknown (hid ▸ (hg.node n hn).1)
  · intro e he known hknown
    obtain ⟨hid, -, htarget⟩ := hg.edge e he
    obtain ⟨hid', -, htarget'⟩ := h.edge known hknown
    -- edges clash by their ids or by their ends, and the new one has its id and target inside
    refine Bool.eq_false_iff.2 fun hclash => ?_
    rcases Bool.or_eq_true_iff.1 hclash with hsame | hsame
    · exact hid' (of_decide_eq_true hsame ▸ hid)
    · have hends : known.target = e.target := congrArg Prod.snd (of_decide_eq_true hsame)
      exact htarget' (hends ▸ htarget)

end Graph

variable {flow : StoredFlow} {parent : Node} {flowId : String} {mode : GapMode}

theorem mem_fragment_nodes {n : Node} (h : n ∈ (flow.fragment parent flowId mode).graph.nodes) :
    ∃ m ∈ flow.toGraph.nodes, n.id = namespacedId parent.id m.id ∧ n.parent = some parent.id := by
  obtain ⟨i, hi, rfl⟩ := List.mem_mapIdx.1 h
  exact ⟨_, List.getElem_mem hi, rfl, rfl⟩

theorem exists_mem_fragment_nodes {m : Node} (h : m ∈ flow.toGraph.nodes) :
    ∃ n ∈ (flow.fragment parent flowId mode).graph.nodes,
      n.id = namespacedId parent.id m.id := by
  obtain ⟨i, hi, rfl⟩ := List.getElem_of_mem h
  exact ⟨_, List.mem_mapIdx.2 ⟨i, hi, rfl⟩, rfl⟩

/-- The edges of a fragment: the connector, those of the flow, and newcomers in its gaps. -/
theorem edges_fragment (flow : StoredFlow) (parent : Node) (flowId : String) (mode : GapMode) :
    let g := (flow.fragment parent flowId mode).graph
    let placed := flow.toGraph.edges.map (·.placedUnder parent.id)
    g.edges = connectorTo parent.id g.nodes ++
      (placed ++ newcomers Edge.clashes placed (gapEdges g.nodes placed mode)) := by
  intro g placed
  rw [← fillGaps_eq]
  rfl

/-- The edges of a fragment are the connector to its first node, the edges of the flow under their
new names, and edges that the layout suggests. -/
theorem mem_fragment_edges_layout {e : Edge}
    (h : e ∈ (flow.fragment parent flowId mode).graph.edges) :
    (∃ first, (flow.fragment parent flowId mode).graph.nodes.head? = some first ∧
      e = .connector parent.id first.id) ∨
    (∃ e' ∈ flow.toGraph.edges, e = e'.placedUnder parent.id) ∨
    e ∈ layoutEdges (flow.fragment parent flowId mode).graph.nodes := by
  rcases List.mem_append.1 h with hconnector | hfilled
  · obtain ⟨first, hfirst, rfl⟩ := Option.map_eq_some_iff.1 (Option.mem_toList.1 hconnector)
    exact .inl ⟨first, hfirst, rfl⟩
  · rcases mem_or_mem_layoutEdges_of_mem_fillGaps hfilled with hplaced | hinferred
    · obtain ⟨e', he', rfl⟩ := List.mem_map.1 hplaced
      exact .inr (.inl ⟨e', he', rfl⟩)
    · exact .inr (.inr hinferred)

/-- The edges of a fragment that are neither its connector nor copied join two of its nodes. -/
theorem mem_fragment_edges {e : Edge} (h : e ∈ (flow.fragment parent flowId mode).graph.edges) :
    (∃ n ∈ (flow.fragment parent flowId mode).graph.nodes, e = .connector parent.id n.id) ∨
    (∃ e' ∈ flow.toGraph.edges, e = e'.placedUnder parent.id) ∨
    ∃ a ∈ (flow.fragment parent flowId mode).graph.nodes,
      ∃ b ∈ (flow.fragment parent flowId mode).graph.nodes, e = .sequential a.id b.id := by
  rcases mem_fragment_edges_layout h with ⟨first, hfirst, rfl⟩ | hplaced | hinferred
  · exact .inl ⟨first, List.mem_of_head? hfirst, rfl⟩
  · exact .inr (.inl hplaced)
  · exact .inr (.inr (mem_layoutEdges hinferred))

theorem StoredFlow.fragment_beneath (flow : StoredFlow) (parent : Node) (flowId : String)
    (mode : GapMode) : (flow.fragment parent flowId mode).graph.Beneath parent.id := by
  have hnode : ∀ n ∈ (flow.fragment parent flowId mode).graph.nodes,
      InNamespace parent.id n.id ∧ n.parent = some parent.id := by
    intro n hn
    obtain ⟨m, -, hid, hparent⟩ := mem_fragment_nodes hn
    exact ⟨⟨m.id, hid⟩, hparent⟩
  refine ⟨hnode, fun e he => ?_⟩
  rcases mem_fragment_edges he with ⟨n, hn, rfl⟩ | ⟨e', -, rfl⟩ | ⟨a, ha, b, hb, rfl⟩
  · exact ⟨inNamespace_connectorId _ _, .inl rfl, (hnode n hn).1⟩
  · exact ⟨inNamespace_namespacedId _ _, .inr (inNamespace_namespacedId _ _),
      inNamespace_namespacedId _ _⟩
  · have hsource := (hnode a ha).1
    exact ⟨inNamespace_sequentialId hsource _, .inr hsource, (hnode b hb).1⟩

theorem StoredFlow.fragment_attached (h : flow.toGraph.Attached) (parent : Node) (flowId : String)
    (mode : GapMode) : (flow.fragment parent flowId mode).graph.Attached := by
  intro e he
  -- a connector touches the first copy, and what fills a gap joins two copies
  rcases mem_fragment_edges he with ⟨n, hn, rfl⟩ | ⟨e', he', rfl⟩ | ⟨a, ha, b, -, rfl⟩
  · exact ⟨n, hn, by simp [Edge.touches, Edge.connector]⟩
  · obtain ⟨m, hm, htouches⟩ := h e' he'
    obtain ⟨n, hn, hid⟩ := exists_mem_fragment_nodes hm
    refine ⟨n, hn, ?_⟩
    simp only [Edge.touches, Edge.placedUnder, hid, Bool.or_eq_true, decide_eq_true_eq]
      at htouches ⊢
    exact htouches.imp (congrArg _) (congrArg _)
  · exact ⟨a, ha, by simp [Edge.touches, Edge.sequential]⟩

end StepFlow
