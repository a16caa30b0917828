import StepFlow.Proofs.Layout.Unjoined

/-!
# The layout looks at places alone

What is inferred from the layout leads from each node to the next one. It depends on the order in
which nodes are listed only as far as it tells nodes of one height apart. So nodes of different
heights may be listed in any order. Nodes of one height are taken in the order of the list, and with
distinct ids any other order of theirs gives another chain.

## Main definitions

* `SameLevels`: two lists have the same nodes of each height, in the same order.
* `InferredAlike`: two lists of nodes get the same edges, whatever edges are there.
* `LeadsAlong`: edges that were added lead from nodes to the next ones in an order.
* `InferredAlong`: all edges that are inferred for a list of nodes do so.

## Main statements

* `layoutOrder_eq_iff`: when two lists have the same layout.
* `sequentialChain_eq_iff`: when two lists of the same nodes have the same chain.
* `inferredAlong_layoutOrder`: which edges are inferred.
* `layout_decides_edges`: what the order of a list of nodes means for the edges.
-/

namespace StepFlow

/-- Members of a rearranged list whose keys are distinct are the same for each key. -/
theorem filter_key_of_perm {α κ : Type} [DecidableEq κ] {key : α → κ} {l l' : List α}
    (hperm : l.Perm l') (hnodup : (l.map key).Nodup) (k : κ) :
    (l.filter fun a => key a = k) = l'.filter fun a => key a = k := by
  have hnone : ∀ {as : List α}, (as.map key).Nodup →
      (as.filter fun a => key a = k).Pairwise fun _ _ => False := by
    intro as has
    refine ((List.pairwise_map.1 has).filter _).imp_of_mem fun {a b} ha hb hne => hne ?_
    exact (of_decide_eq_true (List.mem_filter.1 ha).2).trans
      (of_decide_eq_true (List.mem_filter.1 hb).2).symm
  exact (hperm.filter _).eq_of_pairwise (fun _ _ _ _ h => h.elim) (hnone hnodup)
    (hnone ((hperm.map key).nodup_iff.1 hnodup))

/-- A rearranged list is known by its keys if these are distinct. -/
theorem eq_of_perm_of_map_eq {α κ : Type} {key : α → κ} {l l' : List α} (hperm : l.Perm l')
    (hnodup : (l.map key).Nodup) (h : l.map key = l'.map key) : l = l' := by
  have hlength : l.length = l'.length := hperm.length_eq
  refine List.ext_getElem hlength fun i hi hi' => ?_
  refine List.inj_on_of_nodup_map hnodup (List.getElem_mem hi)
    (hperm.mem_iff.2 (List.getElem_mem hi')) ?_
  have hkey := congrArg (fun keys => keys[i]?) h
  simpa [hi, hi'] using hkey

/-- Whether two lists have the same nodes of each height, in the same order. -/
def SameLevels (nodes nodes' : List Node) : Prop :=
  ∀ height, (nodes.filter fun n => n.position.height = height) =
    nodes'.filter fun n => n.position.height = height

/-- Whether two lists of nodes get the same edges from the layout: alone, in addition to any edges,
and when a flow is loaded. -/
structure InferredAlike (nodes nodes' : List Node) : Prop where
  chain : sequentialChain nodes = sequentialChain nodes'
  filled : ∀ edges mode, fillGaps nodes edges mode = fillGaps nodes' edges mode
  loaded : ∀ (flowId : String) (flow : PersistedFlow),
    (Store.load flowId { flow with nodes := nodes }).graph.edges =
      (Store.load flowId { flow with nodes := nodes' }).graph.edges

/-- Whether edges are given ones, followed by some that lead from a node to the next one in an order
of nodes. Each node where this is asked for is left by such an edge, unless the id or the ends of
that edge are taken. -/
structure LeadsAlong (order : List Node) (asked : String → Bool) (given result : List Edge) :
    Prop where
  inferred : ∃ added, result = given ++ added ∧
    added.Sublist ((pathEdges order).filter fun e => asked e.source)
  present : ∀ e ∈ pathEdges order, asked e.source = true →
    ∃ known ∈ result, known.id = e.id ∨ known.ends = e.ends

/-- Whether the edges that are inferred for a list of nodes lead along an order of theirs: alone,
in addition to any edges where the mode asks for one, and when a flow is loaded. -/
structure InferredAlong (nodes order : List Node) : Prop where
  chain : LeadsAlong order (fun _ => true) [] (sequentialChain nodes)
  complete : ∀ e ∈ pathEdges order, e ∈ sequentialChain nodes
  filled : ∀ edges mode,
    LeadsAlong order (GapMode.lacks mode edges) edges (fillGaps nodes edges mode)
  loaded : ∀ (flowId : String) (flow : PersistedFlow), LeadsAlong order (fun _ => true) flow.edges
    (Store.load flowId { flow with nodes := nodes }).graph.edges

variable {nodes nodes' : List Node}

/-- Two lists have the same layout if and only if they have the same nodes of each height in the
same order. -/
theorem layoutOrder_eq_iff : layoutOrder nodes = layoutOrder nodes' ↔ SameLevels nodes nodes' := by
  have hlayout := isLayout_layoutOrder nodes
  have hlayout' := isLayout_layoutOrder nodes'
  constructor
  · intro h height
    rw [← hlayout.ties, h, hlayout'.ties]
  · intro h
    exact isLayout_iff.1 ⟨hlayout.ascending, fun height => (hlayout.ties height).trans (h height)⟩

theorem sameLevels_of_perm (hperm : nodes.Perm nodes')
    (hnodup : (nodes.map fun n => n.position.height).Nodup) : SameLevels nodes nodes' :=
  filter_key_of_perm hperm hnodup

theorem SameLevels.inferredAlike (h : SameLevels nodes nodes') : InferredAlike nodes nodes' := by
  have horder := layoutOrder_eq_iff.2 h
  have hedges : layoutEdges nodes = layoutEdges nodes' := by rw [layoutEdges, horder, layoutEdges]
  have hchain : sequentialChain nodes = sequentialChain nodes' := by
    rw [sequentialChain, hedges, sequentialChain]
  refine ⟨hchain, fun edges mode => ?_, fun flowId flow => ?_⟩
  · rw [fillGaps, hedges, fillGaps]
  · simp only [Store.load, hchain]

/-- The ids of two nodes or more in the layout can be read off the edges between them. -/
theorem nodeIds_layoutOrder (htwo : 2 ≤ nodes.length) :
    nodeIds (layoutOrder nodes) =
      ((layoutEdges nodes).map (·.source)).take 1 ++ (layoutEdges nodes).map (·.target) := by
  have hlength : (layoutOrder nodes).length = nodes.length := List.length_mergeSort _
  rw [map_source_layoutEdges, map_target_layoutEdges]
  match layoutOrder nodes, hlength.symm ▸ htwo with
  | a :: b :: rest, _ => rfl

/-- Two lists of the same nodes with distinct ids have the same chain if and only if they list nodes
of one height in the same order. -/
theorem sequentialChain_eq_iff (hperm : nodes.Perm nodes') (hnodup : (nodeIds nodes).Nodup) :
    sequentialChain nodes = sequentialChain nodes' ↔ SameLevels nodes nodes' := by
  refine ⟨fun h => ?_, fun h => h.inferredAlike.chain⟩
  rw [sequentialChain_of_nodup hnodup,
    sequentialChain_of_nodup ((hperm.map _).nodup_iff.1 hnodup)] at h
  have horder : (layoutOrder nodes).Perm (layoutOrder nodes') :=
    (List.mergeSort_perm nodes _).trans (hperm.trans (List.mergeSort_perm nodes' _).symm)
  by_cases htwo : 2 ≤ nodes.length
  · rw [← layoutOrder_eq_iff]
    refine eq_of_perm_of_map_eq horder (nodup_layoutOrder hnodup) ?_
    have hids := nodeIds_layoutOrder (hperm.length_eq ▸ htwo)
    rw [← h, ← nodeIds_layoutOrder htwo] at hids
    exact hids.symm
  · -- one node or none can be listed in one order only
    match nodes, htwo with
    | [], _ => rw [hperm.nil_eq]; exact fun _ => rfl
    | [a], _ => rw [List.singleton_perm.1 hperm]; exact fun _ => rfl
    | _ :: _ :: _, htwo => exact absurd (by simp) htwo

/-- Newcomers among the edges of a path lead along it. -/
theorem leadsAlong_newcomers {order : List Node} {asked : String → Bool} {wanted : List Edge}
    (given : List Edge) (hsub : wanted.Sublist ((pathEdges order).filter fun e => asked e.source))
    (hall : ∀ e ∈ pathEdges order, asked e.source = true → e ∈ wanted) :
    LeadsAlong order asked given (given ++ newcomers Edge.clashes given wanted) where
  inferred := ⟨_, rfl, (newcomers_sublist _ _ _).trans hsub⟩
  present e he hasked := by
    obtain ⟨known, hknown, hclash⟩ := exists_clash Edge.clashes_self (hall e he hasked)
    exact ⟨known, hknown, Edge.clashes_iff.1 hclash⟩

theorem sublist_sequentialChain (nodes : List Node) :
    (sequentialChain nodes).Sublist ((pathEdges (layoutOrder nodes)).filter fun _ => true) := by
  rw [List.filter_true, sequentialChain_eq]
  exact newcomers_sublist _ _ _

/-- All inferred edges lead from a node to the next one of the layout. -/
theorem inferredAlong_layoutOrder (nodes : List Node) :
    InferredAlong nodes (layoutOrder nodes) := by
  have hcomplete : ∀ e ∈ pathEdges (layoutOrder nodes), e ∈ sequentialChain nodes :=
    fun _ => mem_sequentialChain.2
  refine ⟨⟨⟨_, rfl, sublist_sequentialChain nodes⟩, fun e he _ => ?_⟩, hcomplete,
    fun edges mode => ?_, fun flowId flow => ?_⟩
  · exact ⟨e, hcomplete e he, .inl rfl⟩
  · rw [fillGaps_eq]
    exact leadsAlong_newcomers edges (List.Sublist.refl _) fun e he hlacks =>
      mem_gapEdges.2 ⟨he, hlacks⟩
  · have hedges : (Store.load flowId { flow with nodes := nodes }).graph.edges =
        flow.edges ++ newcomers Edge.clashes flow.edges (sequentialChain nodes) :=
      congrArg Prod.fst (mergeEdges_eq flow.edges (sequentialChain nodes))
    rw [hedges]
    exact leadsAlong_newcomers _ (sublist_sequentialChain nodes) fun e he _ => hcomplete e he

/-- Where nothing is given the first of two nodes leads to the second one. -/
theorem LeadsAlong.eq_of_pair {a b : Node} {asked : String → Bool} {result : List Edge}
    (h : LeadsAlong [a, b] asked [] result) (hasked : asked a.id = true) :
    result = [.sequential a.id b.id] := by
  obtain ⟨added, rfl, hsub⟩ := h.inferred
  obtain ⟨known, hknown, -⟩ := h.present _ List.mem_cons_self hasked
  rcases List.sublist_singleton.1 (hsub.trans List.filter_sublist) with rfl | rfl
  · cases hknown
  · rfl

theorem sublist_of_mem_neighbours {α : Type} {l : List α} {a b : α} (h : (a, b) ∈ neighbours l) :
    [a, b].Sublist l := by
  fun_induction neighbours l with
  | case1 c d rest ih =>
    rcases List.mem_cons.1 h with heq | h
    · cases heq
      exact (List.singleton_sublist.2 List.mem_cons_self).cons_cons a
    · exact (ih h).cons c
  | case2 => cases h

/-- Of two nodes of one height, one comes before the other in every list with the same nodes of that
height. -/
theorem sublist_of_level {a b : Node} (htie : a.position.height = b.position.height)
    (hlevel : (nodes.filter fun n => n.position.height = b.position.height) =
      nodes'.filter fun n => n.position.height = b.position.height)
    (hsub : [a, b].Sublist nodes) : [a, b].Sublist nodes' := by
  have hpair : ([a, b].filter fun n => n.position.height = b.position.height) = [a, b] := by
    simp [htie]
  have hsub := hsub.filter fun n => n.position.height = b.position.height
  rw [hpair, hlevel] at hsub
  exact hsub.trans List.filter_sublist

/-- What the order of a list of nodes means for the edges of the layout. A list of nodes of
different heights can be rearranged without any difference to the edges. Of nodes of one height the
order in the list counts: one that comes before another one in the list comes before it in the
layout, two lists with the same order at each height get the same edges, and two lists of the same
nodes with distinct ids get the same chain in this case only. The edges that are inferred lead from
nodes to the next ones of the layout, wherever one is asked for and its id and ends are free. So an
edge between neighbours of one height leads from the one that is listed first to the other. -/
theorem layout_decides_edges (nodes nodes' : List Node) :
    (nodes.Perm nodes' → (nodes.map fun n => n.position.height).Nodup →
      InferredAlike nodes nodes') ∧
    (SameLevels nodes nodes' → InferredAlike nodes nodes') ∧
    (nodes.Perm nodes' → (nodeIds nodes).Nodup →
      (sequentialChain nodes = sequentialChain nodes' ↔ SameLevels nodes nodes')) ∧
    (∀ a b, a.position.height = b.position.height → [a, b].Sublist nodes →
      [a, b].Sublist (layoutOrder nodes)) ∧
    IsLayout nodes (layoutOrder nodes) ∧ InferredAlong nodes (layoutOrder nodes) ∧
    ∀ a b, (a, b) ∈ neighbours (layoutOrder nodes) →
      a.position.height = b.position.height → [a, b].Sublist nodes := by
  have hlayout := isLayout_layoutOrder nodes
  refine ⟨fun hperm hnodup => (sameLevels_of_perm hperm hnodup).inferredAlike,
    fun h => h.inferredAlike, sequentialChain_eq_iff, fun a b htie => ?_, hlayout,
    inferredAlong_layoutOrder nodes, fun a b hpair htie => ?_⟩
  · exact sublist_of_level htie (hlayout.ties _).symm
  · exact sublist_of_level htie (hlayout.ties _) (sublist_of_mem_neighbours hpair)

/-- Zeros of either sign are different heights, and two nodes at a positive zero are of one. -/
theorem layout_decides_edges_of_zeros :
    let a : Node := { id := "a" }
    let b : Node := { id := "b", position := ⟨0.0, -0.0⟩ }
    let c : Node := { id := "c", position := ⟨5.0, 0.0⟩ }
    ([a, b].Perm [b, a] ∧ ([a, b].map fun n => n.position.height).Nodup ∧
      InferredAlike [a, b] [b, a]) ∧
    (SameLevels [a, b, c] [b, a, c] ∧ InferredAlike [a, b, c] [b, a, c]) ∧
    ([a, b, c].Perm [b, c, a] ∧ (nodeIds [a, b, c]).Nodup ∧
      sequentialChain [a, b, c] ≠ sequentialChain [b, c, a]) ∧
    (a.position.height = c.position.height ∧ [a, c].Sublist [a, b, c] ∧
      [a, c].Sublist (layoutOrder [a, b, c])) ∧
    (∀ mode, fillGaps [a, c] [] mode = [.sequential "a" "c"]) ∧
    (∀ mode, fillGaps [c, a] [] mode = [.sequential "c" "a"]) ∧
    (Store.load "f" { nodes := [c, a] }).graph.edges = [.sequential "c" "a"] ∧
    (c, a) ∈ neighbours (layoutOrder [c, a]) ∧ [c, a].Sublist [c, a] := by
  intro a b c
  have hheights : ([a, b].map fun n => n.position.height).Nodup := by decide
  have hswap : [a, b].Perm [b, a] := .swap b a []
  have htie : a.position.height = c.position.height := by decide
  have hlevels : SameLevels [a, b, c] [b, a, c] := by
    intro height
    have ha : a.position.height = 0 := by decide
    have hb : b.position.height = -1 := by decide
    by_cases hheight : height = 0
    · simp [List.filter_cons, ha, hb, hheight]
    · simp [List.filter_cons, ha, Ne.symm hheight]
  have hperm : ([a] ++ [b, c]).Perm ([b, c] ++ [a]) := List.perm_append_comm
  have hids : (nodeIds [a, b, c]).Nodup := by decide
  have hother : ¬SameLevels [a, b, c] [b, c, a] :=
    fun h => absurd (congrArg nodeIds (h 0)) (by decide)
  have hsub : [a, c].Sublist [a, b, c] := (List.sublist_cons_self b [c]).cons_cons a
  obtain ⟨-, -, -, hcomes, -⟩ := layout_decides_edges [a, b, c] []
  obtain ⟨-, -, -, -, -, hac, -⟩ := layout_decides_edges [a, c] []
  obtain ⟨-, -, -, -, -, hca, hfirst⟩ := layout_decides_edges [c, a] []
  have horder : layoutOrder [a, c] = [a, c] := layoutOrder_of_level (by simp [htie])
  have horder' : layoutOrder [c, a] = [c, a] := layoutOrder_of_level (by simp [htie])
  have hpair : (c, a) ∈ neighbours (layoutOrder [c, a]) := by
    rw [horder']
    exact List.mem_cons_self
  rw [horder] at hac
  rw [horder'] at hca
  exact ⟨⟨hswap, hheights, (layout_decides_edges [a, b] [b, a]).1 hswap hheights⟩,
    ⟨hlevels, (layout_decides_edges [a, b, c] [b, a, c]).2.1 hlevels⟩,
    ⟨hperm, hids, mt ((layout_decides_edges [a, b, c] [b, c, a]).2.2.1 hperm hids).1 hother⟩,
    ⟨htie, hsub, hcomes a c htie hsub⟩,
    fun mode => (hac.filled [] mode).eq_of_pair (by cases mode <;> rfl),
    fun mode => (hca.filled [] mode).eq_of_pair (by cases mode <;> rfl),
    (hca.loaded "f" {}).eq_of_pair rfl, hpair, hfirst c a hpair htie.symm⟩

end StepFlow
