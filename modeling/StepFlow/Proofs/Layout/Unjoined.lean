import StepFlow.Proofs.Layout.Filled
import StepFlow.Proofs.Layout.Order

/-!
# Plans of nodes without edges

Where no edge was drawn, every node lacks a connection in both modes, and the chain of the layout is
all that is added. Its ids are different as long as the arrow that they are made with does not occur
in the ids of nodes. Every node is reached from the topmost one along the chain, and a walk from
there passes the nodes in the order of the layout.

## Main definitions

* `pathEdges`: the edges along a list of nodes.

## Main statements

* `sequentialId_source`: the source can be read off the id of a sequential edge.
* `fillGaps_nil`, `sequentialChain_of_nodup`: what is added to nodes without edges.
* `plan_of_unjoined_nodes`: the plan along the chain.
-/

namespace StepFlow

/-- The source of a sequential edge ends at the first arrow in its id. -/
theorem sequentialId_source {a b c d : String} (ha : '→' ∉ a.toList) (hc : '→' ∉ c.toList)
    (h : sequentialId a b = sequentialId c d) : a = c := by
  have harrow : "→".toList = ['→'] := by simp
  have hsource : ∀ s t : String, '→' ∉ s.toList →
      (sequentialId s t).toList.takeWhile (· ≠ '→') = s.toList := by
    intro s t hs
    have hbefore : ∀ x ∈ s.toList, decide (x ≠ '→') = true := by
      intro x hx
      apply decide_eq_true
      rintro rfl
      exact hs hx
    rw [sequentialId, String.toList_append, String.toList_append, harrow, List.append_assoc,
      List.takeWhile_append_of_pos hbefore]
    simp
  apply String.toList_inj.1
  rw [← hsource a b ha, h, hsource c d hc]

theorem map_fst_neighbours {α : Type} (l : List α) :
    (neighbours l).map Prod.fst = l.dropLast := by
  induction l with
  | nil => rfl
  | cons a l ih =>
    cases l with
    | nil => rfl
    | cons b rest =>
      rw [neighbours, List.map_cons, ih, List.dropLast_cons_of_ne_nil (List.cons_ne_nil b rest)]

section

variable {nodes : List Node} {id : String} {top : Node}

theorem map_source_layoutEdges (nodes : List Node) :
    (layoutEdges nodes).map (·.source) = nodeIds (layoutOrder nodes).dropLast := by
  rw [layoutEdges, List.map_map, nodeIds, ← map_fst_neighbours, List.map_map]
  rfl

theorem length_layoutEdges (nodes : List Node) :
    (layoutEdges nodes).length = nodes.length - 1 := by
  have hlength := congrArg List.length (map_target_layoutEdges nodes)
  rw [List.length_map, nodeIds, List.length_map, List.length_tail, layoutOrder,
    List.length_mergeSort] at hlength
  exact hlength

theorem pairwise_source_ne (hnodup : (nodeIds nodes).Nodup) :
    (layoutEdges nodes).Pairwise fun e e' => e.source ≠ e'.source := by
  apply List.pairwise_map.1
  rw [map_source_layoutEdges]
  exact ((List.dropLast_sublist _).map _).nodup (nodup_layoutOrder hnodup)

theorem sequentialChain_of_nodup (hnodup : (nodeIds nodes).Nodup) :
    sequentialChain nodes = layoutEdges nodes := by
  rw [sequentialChain_eq]
  apply newcomers_of_pairwise (fun _ _ _ hb => absurd hb List.not_mem_nil)
  refine (pairwise_source_ne hnodup).imp fun hne => decide_eq_false fun hends => ?_
  exact hne (congrArg Prod.fst hends)

theorem gapEdges_nil (nodes : List Node) (mode : GapMode) :
    gapEdges nodes [] mode = layoutEdges nodes := by
  refine List.filter_eq_self.2 fun e _ => ?_
  cases mode <;> rfl

theorem fillGaps_nil (hnodup : (nodeIds nodes).Nodup) (harrow : ∀ n ∈ nodes, '→' ∉ n.id.toList)
    (mode : GapMode) : fillGaps nodes [] mode = layoutEdges nodes := by
  rw [fillGaps_eq, gapEdges_nil, List.nil_append]
  apply newcomers_of_pairwise (fun _ _ _ hb => absurd hb List.not_mem_nil)
  refine (pairwise_source_ne hnodup).imp_of_mem fun {e e'} he he' hne => ?_
  obtain ⟨a, ha, b, -, rfl⟩ := mem_layoutEdges he
  obtain ⟨c, hc, d, -, rfl⟩ := mem_layoutEdges he'
  have hid : sequentialId a.id b.id ≠ sequentialId c.id d.id :=
    fun hid => hne (sequentialId_source (harrow a ha) (harrow c hc) hid)
  have hends : (a.id, b.id) ≠ (c.id, d.id) := fun hends => hne (congrArg Prod.fst hends)
  exact Edge.not_clashes_iff.2 ⟨hid, hends⟩

/-- The sequential edges from each node of a list to the next one. -/
def pathEdges (order : List Node) : List Edge :=
  (neighbours order).map fun (a, b) => .sequential a.id b.id

theorem pathEdges_cons_cons (a b : Node) (rest : List Node) :
    pathEdges (a :: b :: rest) = .sequential a.id b.id :: pathEdges (b :: rest) :=
  rfl

theorem source_mem_of_mem_pathEdges {order : List Node} {e : Edge} (h : e ∈ pathEdges order) :
    e.source ∈ nodeIds order := by
  obtain ⟨⟨a, b⟩, hpair, rfl⟩ := List.mem_map.1 h
  exact List.mem_map_of_mem (mem_neighbours hpair).1

/-- Along a path one comes from each node to the next one only. -/
theorem targetsFrom_pathEdges {order : List Node} (hnodup : (nodeIds order).Nodup) {i : Nat}
    (hid : (nodeIds order)[i]? = some id) :
    targetsFrom (pathEdges order) id = (nodeIds order)[i + 1]?.toList := by
  induction order generalizing i with
  | nil => cases hid
  | cons a rest ih =>
    obtain ⟨hfresh, hrest⟩ : a.id ∉ nodeIds rest ∧ (nodeIds rest).Nodup := List.nodup_cons.1 hnodup
    cases i with
    | zero =>
      obtain rfl : a.id = id := Option.some.inj hid
      -- no edge further down leaves the node
      have hnone : targetsFrom (pathEdges rest) a.id = [] :=
        targetsFrom_eq_nil_iff.2 fun e he hsource => hfresh (hsource ▸ source_mem_of_mem_pathEdges he)
      cases rest with
      | nil => rfl
      | cons b rest =>
        rw [pathEdges_cons_cons, targetsFrom_cons, hnone, List.append_nil]
        exact if_pos rfl
    | succ j =>
      have hid : (nodeIds rest)[j]? = some id := hid
      cases rest with
      | nil => cases hid
      | cons b rest =>
        have hne : (Edge.sequential a.id b.id).source ≠ id := by
          rintro rfl
          exact hfresh (List.mem_of_getElem? hid)
        rw [pathEdges_cons_cons, targetsFrom_cons, if_neg hne, List.nil_append]
        exact ih hrest hid

theorem isRoot_layoutEdges_iff (hnodup : (nodeIds nodes).Nodup)
    (htop : (layoutOrder nodes).head? = some top) {n : Node} (hn : n ∈ nodes) :
    IsRoot (layoutEdges nodes) n ↔ n.isTrigger ∨ n = top := by
  refine or_congr_right ?_
  have hentered := forall_entering_iff hnodup hn (P := fun _ => False)
  simp only [htop, and_false, exists_false, or_false, Option.some.injEq] at hentered
  exact hentered.trans eq_comm

theorem reachable_layoutEdges (hnodup : (nodeIds nodes).Nodup) (h : id ∈ nodeIds nodes) :
    Reachable nodes (layoutEdges nodes) id := by
  obtain ⟨n, hn, rfl⟩ := List.mem_map.1 h
  refine forall_mem_of_neighbours (P := fun n => Reachable nodes (layoutEdges nodes) n.id) ?_ ?_ n
    (mem_layoutOrder.2 hn)
  · intro top htop
    have hmem : top ∈ nodes := mem_of_head?_layoutOrder htop
    exact ⟨top, hmem, (isRoot_layoutEdges_iff hnodup htop hmem).2 (.inr rfl), .refl⟩
  · intro a b hpair ha
    have hb : b ∈ nodes := mem_layoutOrder.1 (mem_neighbours hpair).2
    refine ha.link ⟨ha.mem_nodeIds, List.mem_map_of_mem hb, .sequential a.id b.id, ?_, rfl, rfl⟩
    exact List.mem_map_of_mem hpair

theorem roots_layoutEdges (hnodup : (nodeIds nodes).Nodup)
    (htop : (layoutOrder nodes).head? = some top)
    (htriggers : ∀ n ∈ (layoutOrder nodes).tail, n.isTrigger = false) :
    roots nodes (layoutEdges nodes) = [top.id] := by
  have hnodupRoots : (roots nodes (layoutEdges nodes)).Nodup :=
    (List.filter_sublist.map _).nodup hnodup
  apply List.perm_singleton.1
  apply (List.perm_ext_iff_of_nodup hnodupRoots (List.nodup_singleton _)).2
  intro id
  rw [mem_roots, List.mem_singleton]
  constructor
  · rintro ⟨n, hn, hroot, rfl⟩
    rcases (isRoot_layoutEdges_iff hnodup htop hn).1 hroot with htrigger | rfl
    · obtain ⟨rest, horder⟩ := List.head?_eq_some_iff.1 htop
      have hmem := mem_layoutOrder.2 hn
      rw [horder] at hmem htriggers
      rcases List.mem_cons.1 hmem with rfl | hrest
      · rfl
      · exact absurd htrigger (Bool.eq_false_iff.1 (htriggers n hrest))
    · rfl
  · rintro rfl
    have hmem : top ∈ nodes := mem_of_head?_layoutOrder htop
    exact ⟨top, hmem, (isRoot_layoutEdges_iff hnodup htop hmem).2 (.inr rfl), rfl⟩

theorem ids_of_linearize_layoutEdges (hnodup : (nodeIds nodes).Nodup)
    (htop : (layoutOrder nodes).head? = some top)
    (htriggers : ∀ n ∈ (layoutOrder nodes).tail, n.isTrigger = false) {plan : Plan}
    (hplan : linearize nodes (layoutEdges nodes) = .ok plan) :
    plan.ids = nodeIds (layoutOrder nodes) := by
  obtain ⟨-, hsteps⟩ := linearize_eq_ok_iff.1 hplan
  have hmem : ∀ id, id ∈ nodeIds (layoutOrder nodes) ↔ id ∈ nodeIds nodes :=
    fun id => ((List.mergeSort_perm nodes _).map _).mem_iff
  have hstart : [top.id] = (nodeIds (layoutOrder nodes)).head?.toList := by
    rw [nodeIds, List.head?_map, htop]
    rfl
  rw [Plan.ids, hsteps, roots_layoutEdges hnodup htop htriggers, hstart,
    Walk.passed_explore_path (nodup_layoutOrder hnodup) (fun _ _ => List.not_mem_nil)]
  · rfl
  · intro id hid
    rw [isSome_stepById?_resolve]
    exact (hmem id).1 hid
  · intro i id hid
    rw [targetsOf_resolve_of_mem ((hmem id).1 (List.mem_of_getElem? hid))]
    exact targetsFrom_pathEdges (nodup_layoutOrder hnodup) hid

end

/-- To nodes with different ids without an arrow, and without edges, both modes and the chain of the
layout add the same edges: one for each pair of neighbours in the stable order by height. The plan
along these edges holds every node, and it follows the order of the layout if no node but the
topmost one is a trigger. -/
theorem plan_of_unjoined_nodes (nodes : List Node) (hne : nodes ≠ [])
    (hnodup : (nodeIds nodes).Nodup) (harrow : ∀ n ∈ nodes, '→' ∉ n.id.toList) :
    let order := layoutOrder nodes
    let chain := (neighbours order).map fun (a, b) => Edge.sequential a.id b.id
    IsLayout nodes order ∧ (∀ mode, fillGaps nodes [] mode = chain) ∧
      sequentialChain nodes = chain ∧ chain.length = nodes.length - 1 ∧
      ∃ plan, linearize nodes chain = .ok plan ∧ plan.ids.Perm (nodeIds nodes) ∧
        ((∀ n ∈ order.tail, n.isTrigger = false) → plan.ids = nodeIds order) := by
  intro order chain
  have hchain : chain = layoutEdges nodes := rfl
  obtain ⟨n, hn⟩ := List.exists_mem_of_ne_nil nodes hne
  obtain ⟨top, htop⟩ : ∃ top, order.head? = some top :=
    Option.isSome_iff_exists.1 (List.isSome_head?.2 (List.ne_nil_of_mem (mem_layoutOrder.2 hn)))
  obtain ⟨root, hmem, hroot, -⟩ := reachable_layoutEdges hnodup (List.mem_map_of_mem hn)
  obtain ⟨plan, hplan, -⟩ := exists_plan ⟨root, hmem, hroot⟩
  refine ⟨isLayout_layoutOrder nodes, fillGaps_nil hnodup harrow, sequentialChain_of_nodup hnodup,
    length_layoutEdges nodes, plan, hplan, ?_, fun htriggers => ?_⟩
  · apply (List.perm_ext_iff_of_nodup (nodup_ids hplan) hnodup).2
    intro id
    rw [mem_ids_iff_reachable hplan]
    exact ⟨fun h => h.mem_nodeIds, reachable_layoutEdges hnodup⟩
  · exact ids_of_linearize_layoutEdges hnodup htop htriggers hplan

/-- Two nodes of one height below a trigger. -/
theorem plan_of_unjoined_nodes_with_tie :
    let a : Node := { id := "a", kind := some .trigger }
    let b : Node := { id := "b", position := ⟨0.0, 1.0⟩ }
    let c : Node := { id := "c", position := ⟨5.0, 1.0⟩ }
    let chain := [Edge.sequential "a" "b", Edge.sequential "b" "c"]
    (∀ n ∈ [b, a, c], '→' ∉ n.id.toList) ∧ (nodeIds [b, a, c]).Nodup ∧
      layoutOrder [b, a, c] = [a, b, c] ∧ (∀ mode, fillGaps [b, a, c] [] mode = chain) ∧
      sequentialChain [b, a, c] = chain ∧
      ∃ plan, linearize [b, a, c] chain = .ok plan ∧ plan.ids = ["a", "b", "c"] := by
  intro a b c chain
  have harrow : ∀ n ∈ [b, a, c], '→' ∉ n.id.toList := by decide
  have hnodup : (nodeIds [b, a, c]).Nodup := by decide
  have horder : layoutOrder [b, a, c] = [a, b, c] := by
    refine (isLayout_iff.1 ⟨by decide, fun height => ?_⟩).symm
    have ha : a.position.height = 0 := by decide
    have hb : b.position.height = 4607182418800017408 := by decide
    have hc : c.position.height = 4607182418800017408 := by decide
    by_cases hheight : height = 0
    · simp [ha, hb, hc, hheight]
    · simp [List.filter_cons, ha, Ne.symm hheight]
  obtain ⟨-, hfilled, hchain, -, plan, hplan, -, hids⟩ :=
    plan_of_unjoined_nodes [b, a, c] (List.cons_ne_nil _ _) hnodup harrow
  simp only [horder] at hfilled hchain hplan hids
  exact ⟨harrow, hnodup, horder, hfilled, hchain, plan, hplan, hids (by decide)⟩

end StepFlow
