import StepFlow.Proofs.Layout.Roots
import StepFlow.Proofs.Plan.Rounds

/-!
# Plans after gaps were filled

An edge that fills a gap takes its target off the roots, unless that one is a trigger. In the mode
for nodes that are no target such an edge comes from a node that is no target either. So whatever
is no root any more is reached from the topmost node of its run, and no step is lost. In the mode
for nodes without an edge of their own the edge may come from a node behind its target, and with it
the last root can be lost.

## Main statements

* `isRoot_fillGaps_iff`: from which nodes a walk starts after gaps were filled.
* `reachable_of_untargeted`: what was no target is reachable.
* `plan_after_missingOutgoing`: when there is a plan in the one mode.
* `plan_grows_with_untargetedOnly`: what the plan holds in the other one.
-/

namespace StepFlow

section

variable {nodes : List Node} {edges : List Edge} {mode : GapMode} {id : String} {n above : Node}

theorem GapMode.lacks_untargetedOnly_iff :
    GapMode.untargetedOnly.lacks edges id = true ↔ ∀ e ∈ edges, e.target ≠ id := by
  simp [lacks]

theorem GapMode.not_lacks_missingOutgoing_iff :
    ¬GapMode.missingOutgoing.lacks edges id = true ↔ ∃ e ∈ edges, e.source = id := by
  simp [lacks]

theorem subset_fillGaps (nodes : List Node) (edges : List Edge) (mode : GapMode) :
    edges ⊆ fillGaps nodes edges mode :=
  (prefix_fillGaps nodes edges mode).subset

/-- A node that no given edge enters stays a root if it is topmost, if the node above lacks nothing,
or if the edge from there is barred. -/
theorem isRoot_fillGaps_iff (hnodup : (nodeIds nodes).Nodup) (hn : n ∈ nodes) :
    IsRoot (fillGaps nodes edges mode) n ↔ n.isTrigger ∨ (∀ e ∈ edges, e.target ≠ n.id) ∧
      ((layoutOrder nodes).head? = some n ∨ ∃ e ∈ layoutEdges nodes, e.target = n.id ∧
        (¬mode.lacks edges e.source ∨ e.Barred (fillGaps nodes edges mode))) := by
  rw [fillGaps_eq, isRoot_append_newcomers_iff, ← forall_entering_iff hnodup hn]
  refine or_congr_right (and_congr_right fun _ => forall_congr' fun e => ?_)
  rw [mem_gapEdges, and_imp]
  refine forall_congr' fun _ => ?_
  rw [← imp_iff_not_or]
  exact ⟨fun h htarget hlacks => h hlacks htarget, fun h hlacks htarget => h htarget hlacks⟩

/-- What enters a node that no given edge enters is the edge from the node above, which lacked a
connection. -/
theorem of_entered (hnodup : (nodeIds nodes).Nodup)
    (hpair : (above, n) ∈ neighbours (layoutOrder nodes)) (hfree : ∀ e ∈ edges, e.target ≠ n.id)
    (hentered : ∃ e ∈ fillGaps nodes edges mode, e.target = n.id) :
    mode.lacks edges above.id ∧ Link nodes (fillGaps nodes edges mode) above.id n.id := by
  obtain ⟨e, he, htarget⟩ := hentered
  have hgap : e ∈ gapEdges nodes edges mode := by
    rw [fillGaps_eq] at he
    rcases List.mem_append.1 he with hgiven | hnew
    · exact absurd htarget (hfree e hgiven)
    · exact mem_of_mem_newcomers hnew
  obtain ⟨hlayout, hlacks⟩ := mem_gapEdges.1 hgap
  have habove : Edge.sequential above.id n.id ∈ layoutEdges nodes := List.mem_map_of_mem hpair
  obtain rfl := layoutEdges_inj hnodup hlayout habove htarget
  obtain ⟨hsource, hnode⟩ := mem_neighbours hpair
  refine ⟨hlacks, ?_, ?_, _, he, rfl, rfl⟩
  · exact List.mem_map_of_mem (mem_layoutOrder.1 hsource)
  · exact List.mem_map_of_mem (mem_layoutOrder.1 hnode)

theorem reachable_of_untargeted (hnodup : (nodeIds nodes).Nodup) (hn : n ∈ nodes)
    (hfree : ∀ e ∈ edges, e.target ≠ n.id) :
    Reachable nodes (fillGaps nodes edges .untargetedOnly) n.id := by
  refine forall_mem_of_neighbours (P := fun n => (∀ e ∈ edges, e.target ≠ n.id) →
    Reachable nodes (fillGaps nodes edges .untargetedOnly) n.id) ?_ ?_ n (mem_layoutOrder.2 hn)
    hfree
  -- going up from the node, one comes to a root before one meets a target
  · intro top htop hfree
    have hmem : top ∈ nodes := mem_of_head?_layoutOrder htop
    exact ⟨top, hmem, (isRoot_fillGaps_iff hnodup hmem).2 (.inr ⟨hfree, .inl htop⟩), .refl⟩
  · intro above n hpair ih hfree
    by_cases hroot : IsRoot (fillGaps nodes edges .untargetedOnly) n
    · exact ⟨n, mem_layoutOrder.1 (mem_neighbours hpair).2, hroot, .refl⟩
    · obtain ⟨-, hentered⟩ := not_isRoot_iff.1 hroot
      obtain ⟨hlacks, hlink⟩ := of_entered hnodup hpair hfree hentered
      exact (ih (GapMode.lacks_untargetedOnly_iff.1 hlacks)).link hlink

theorem Reachable.fillGaps (hnodup : (nodeIds nodes).Nodup) (h : Reachable nodes edges id) :
    Reachable nodes (fillGaps nodes edges .untargetedOnly) id := by
  refine h.mono (subset_fillGaps nodes edges _) fun n hn hroot => ?_
  rcases hroot with htrigger | hfree
  · exact ⟨n, hn, .inl htrigger, .refl⟩
  · exact reachable_of_untargeted hnodup hn hfree

end

/-- After nodes without an edge of their own got edges, a graph of nodes with different ids has a
plan if and only if it has a trigger, or one of the nodes that no given edge enters is topmost in
the layout, or stands right below a node that some given edge leaves, or right below one from which
the edge to it is barred. -/
theorem plan_after_missingOutgoing (nodes : List Node) (edges : List Edge)
    (hnodup : (nodeIds nodes).Nodup) :
    let filled := fillGaps nodes edges .missingOutgoing
    (∃ plan, linearize nodes filled = .ok plan) ↔ (∃ n ∈ nodes, n.isTrigger) ∨
      ∃ n ∈ nodes, (∀ e ∈ edges, e.target ≠ n.id) ∧ ((layoutOrder nodes).head? = some n ∨
        ∃ e ∈ layoutEdges nodes, e.target = n.id ∧
          ((∃ given ∈ edges, given.source = e.source) ∨ e.Barred filled)) := by
  intro filled
  rw [exists_plan_iff]
  constructor
  · rintro ⟨n, hn, hroot⟩
    rcases (isRoot_fillGaps_iff hnodup hn).1 hroot with htrigger | hstays
    · exact .inl ⟨n, hn, htrigger⟩
    · simp only [GapMode.not_lacks_missingOutgoing_iff] at hstays
      exact .inr ⟨n, hn, hstays⟩
  · rintro (⟨n, hn, htrigger⟩ | ⟨n, hn, hstays⟩)
    · exact ⟨n, hn, .inl htrigger⟩
    · simp only [← GapMode.not_lacks_missingOutgoing_iff] at hstays
      exact ⟨n, hn, (isRoot_fillGaps_iff hnodup hn).2 (.inr hstays)⟩

/-- The node below one that has an edge upwards stays a root. -/
theorem plan_after_missingOutgoing_below_source :
    let nodes : List Node := [{ id := "a" }, { id := "b" }, { id := "c" }]
    let edges : List Edge := [⟨"1", "b", "a", none⟩]
    (nodeIds nodes).Nodup ∧
      ∃ plan, linearize nodes (fillGaps nodes edges .missingOutgoing) = .ok plan := by
  intro nodes edges
  have hnodup : (nodeIds nodes).Nodup := by decide
  have horder : layoutOrder nodes = nodes := layoutOrder_of_level (by simp [nodes])
  have hlayout : Edge.sequential "b" "c" ∈ layoutEdges nodes := by
    rw [layoutEdges, horder]
    simp [nodes, neighbours]
  refine ⟨hnodup, (plan_after_missingOutgoing nodes edges hnodup).2 (.inr ?_)⟩
  refine ⟨{ id := "c" }, by simp [nodes], by decide, .inr ⟨_, hlayout, rfl, .inl ?_⟩⟩
  exact ⟨_, List.mem_cons_self, rfl⟩

/-- A flow of two nodes that was drawn upwards becomes a cycle. -/
theorem plan_lost_with_missingOutgoing :
    let nodes : List Node := [{ id := "a" }, { id := "b" }]
    let edges : List Edge := [⟨"1", "b", "a", none⟩]
    (nodeIds nodes).Nodup ∧ (∃ plan, linearize nodes edges = .ok plan) ∧
      ∀ plan, linearize nodes (fillGaps nodes edges .missingOutgoing) ≠ .ok plan := by
  intro nodes edges
  have horder : layoutOrder nodes = nodes := layoutOrder_of_level (by simp [nodes])
  have hfilled : fillGaps nodes edges .missingOutgoing = edges ++ [.sequential "a" "b"] := by
    rw [fillGaps, layoutEdges, horder]
    rfl
  refine ⟨by decide, exists_plan_iff.2 ⟨{ id := "b" }, by simp [nodes], .inr (by decide)⟩, ?_⟩
  intro plan hplan
  obtain ⟨n, hn, hroot⟩ := exists_plan_iff.1 ⟨plan, hplan⟩
  rw [hfilled] at hroot
  have hentered : ∀ n ∈ nodes, n.isTrigger = false ∧
      ∃ e ∈ edges ++ [.sequential "a" "b"], e.target = n.id := by
    decide
  exact not_isRoot_iff.2 (hentered n hn) hroot

/-- When nodes that are no target get edges, a graph of nodes with different ids that has a plan
still has one, and no step is missing in it. -/
theorem plan_grows_with_untargetedOnly (nodes : List Node) (edges : List Edge) {plan : Plan}
    (hnodup : (nodeIds nodes).Nodup) (hplan : linearize nodes edges = .ok plan) :
    ∃ later, linearize nodes (fillGaps nodes edges .untargetedOnly) = .ok later ∧
      ∀ id ∈ plan.ids, id ∈ later.ids := by
  obtain ⟨n, hn, hroot⟩ := exists_plan_iff.1 ⟨plan, hplan⟩
  obtain ⟨root, hmem, hisRoot, -⟩ :=
    Reachable.fillGaps hnodup (⟨n, hn, hroot, .refl⟩ : Reachable nodes edges n.id)
  obtain ⟨later, hlater, -⟩ := exists_plan ⟨root, hmem, hisRoot⟩
  refine ⟨later, hlater, fun id hid => ?_⟩
  rw [mem_ids_iff_reachable hlater]
  exact ((mem_ids_iff_reachable hplan).1 hid).fillGaps hnodup

/-- A cycle that was left out, below two nodes of which one has an edge to nowhere. -/
theorem plan_grows_with_untargetedOnly_above_cycle :
    let nodes : List Node := [{ id := "a" }, { id := "b" }, { id := "c" }, { id := "d" }]
    let edges : List Edge := [⟨"1", "b", "ghost", none⟩, ⟨"2", "c", "d", none⟩,
      ⟨"3", "d", "c", none⟩]
    (nodeIds nodes).Nodup ∧ ∃ plan later, linearize nodes edges = .ok plan ∧
      plan.ids = ["a", "b"] ∧
      linearize nodes (fillGaps nodes edges .untargetedOnly) = .ok later ∧
      ∀ id ∈ plan.ids, id ∈ later.ids := by
  intro nodes edges
  have hnodup : (nodeIds nodes).Nodup := by decide
  have hplan := linearize_eq_of_iterate_round nodes edges (by decide) 5 rfl
  obtain ⟨later, hlater, hsub⟩ := plan_grows_with_untargetedOnly nodes edges hnodup hplan
  exact ⟨hnodup, _, later, hplan, rfl, hlater, hsub⟩

end StepFlow
