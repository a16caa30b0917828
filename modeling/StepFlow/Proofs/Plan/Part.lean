import StepFlow.Proofs.Plan.Reachable
import StepFlow.Proofs.Store.Merge

/-!
# Plans of a part

A graph grows by nodes and edges that lead only to new ids. Then a walk of the whole graph, seen
from the ids that were there before, is the walk of the old graph: where it turns to the new ids it
meets none of the old ones until it comes back. So the plan of the whole graph lists the old ids in
the old order.

## Main definitions

* `Walk.Shows`: a walk of a whole graph beside the walk of a part of it.
* `Branching`: steps that are a part of others from which nothing leads back.
* `Graph.Outgrowth`: a graph beside one that leads only to new ids.

## Main statements

* `Walk.Shows.explore`: walks keep showing the part.
* `Graph.Outgrowth.plan`: the plan of a graph that has grown.
-/

namespace StepFlow

/-- Whether a walk of a whole graph shows the walk of a part: on the ids of the part both have met
and passed the same, in the same order. -/
structure Walk.Shows (keep : String → Prop) [DecidablePred keep] (whole part : Walk) : Prop where
  visited : whole.visited.filter (keep ·) = part.visited
  passed : (whole.passed.map (·.id)).filter (keep ·) = part.passed.map (·.id)

/-- Whether the steps of a whole graph branch off from the steps of a part: the part has the same
ids and targets within itself, and no step outside of the part leads back to it. -/
structure Branching (keep : String → Prop) [DecidablePred keep] (whole part : List Step) :
    Prop where
  known : ∀ id, keep id → ((stepById? whole id).isSome ↔ (stepById? part id).isSome)
  within : ∀ id, keep id → (targetsOf whole id).filter (keep ·) = targetsOf part id
  beyond : ∀ id, ¬keep id → ∀ target ∈ targetsOf whole id, ¬keep target

namespace Walk

variable {keep : String → Prop} [DecidablePred keep] {wholeSteps partSteps : List Step}
  {whole part : Walk} {id : String}

theorem Shows.start (keep : String → Prop) [DecidablePred keep] : Shows keep {} {} :=
  ⟨rfl, rfl⟩

theorem Shows.mem_iff (h : Shows keep whole part) (hid : keep id) :
    id ∈ part.visited ↔ id ∈ whole.visited := by
  simp [← h.visited, hid]

theorem map_id_stepById? (steps : List Step) (id : String) :
    (stepById? steps id).toList.map (·.id) = if (stepById? steps id).isSome then [id] else [] := by
  cases hs : stepById? steps id with
  | none => rfl
  | some s => simp [(stepById?_mem hs).2]

/-- Both walks enter an id of the part. -/
theorem Shows.enter (h : Shows keep whole part) (hsteps : Branching keep wholeSteps partSteps)
    (hid : keep id) : Shows keep (whole.enter wholeSteps id) (part.enter partSteps id) where
  visited := by simp [Walk.enter, hid, h.visited]
  passed := by
    simp only [Walk.enter, List.map_append, List.filter_append, h.passed, map_id_stepById?,
      hsteps.known id hid]
    split <;> simp [hid]

/-- The walk of the part does not notice that the other one enters an id outside. -/
theorem Shows.enter_outside (h : Shows keep whole part) (hid : ¬keep id) :
    Shows keep (whole.enter wholeSteps id) part where
  visited := by simp [Walk.enter, hid, h.visited]
  passed := by
    simp only [Walk.enter, List.map_append, List.filter_append, h.passed, map_id_stepById?]
    split <;> simp [hid]

/-- A walk of the whole graph goes on showing the walk of the part, which has the ids of the part on
its stack. -/
theorem Shows.explore (h : Shows keep whole part) (hsteps : Branching keep wholeSteps partSteps)
    (stack : List String) :
    Shows keep (whole.explore wholeSteps stack)
      (part.explore partSteps (stack.filter (keep ·))) := by
  induction whole, stack using explore_depth_rec wholeSteps generalizing part with
  | done whole => simpa using h
  | met whole id stack hmem ih =>
    rw [explore_cons_of_mem hmem]
    by_cases hid : keep id
    · rw [List.filter_cons_of_pos (by simpa using hid),
        explore_cons_of_mem ((h.mem_iff hid).2 hmem)]
      exact ih h
    · rw [List.filter_cons_of_neg (by simpa using hid)]
      exact ih h
  | new whole id stack hnew ihtargets ihrest =>
    rw [explore_cons_of_not_mem hnew]
    by_cases hid : keep id
    · have htargets := ihtargets (h.enter hsteps hid)
      rw [hsteps.within id hid] at htargets
      rw [List.filter_cons_of_pos (by simpa using hid),
        explore_cons_of_not_mem (mt (h.mem_iff hid).1 hnew)]
      exact ihrest htargets
    · -- all that the walk meets before it comes back to the stack is outside of the part
      have hnone : (targetsOf wholeSteps id).filter (keep ·) = [] :=
        List.filter_eq_nil_iff.2 fun target htarget => by
          simpa using hsteps.beyond id hid target htarget
      have htargets := ihtargets (h.enter_outside hid)
      rw [hnone, explore_nil] at htargets
      rw [List.filter_cons_of_neg (by simpa using hid)]
      exact ihrest htargets

end Walk

namespace Graph

/-- Whether a graph stands beside another one and leads only to new ids: all ids of the other one
are kept, and neither a node nor a target here is. -/
structure Outgrowth (keep : String → Prop) (g added : Graph) : Prop where
  node : ∀ n ∈ g.nodes, keep n.id
  source : ∀ e ∈ g.edges, keep e.source
  target : ∀ e ∈ g.edges, keep e.target
  newNode : ∀ n ∈ added.nodes, ¬keep n.id
  newTarget : ∀ e ∈ added.edges, ¬keep e.target

variable {keep : String → Prop} {g added : Graph} {id : String}

theorem Outgrowth.mem_nodeIds_iff (h : g.Outgrowth keep added) (hid : keep id) :
    id ∈ nodeIds (g ++ added).nodes ↔ id ∈ nodeIds g.nodes := by
  have hnew : id ∉ nodeIds added.nodes := by
    rintro hmem
    obtain ⟨n, hn, rfl⟩ := List.mem_map.1 hmem
    exact h.newNode n hn hid
  rw [nodes_append, nodeIds_append, List.mem_append, or_iff_left hnew]

variable [DecidablePred keep]

theorem Outgrowth.filter_targetsFrom (h : g.Outgrowth keep added) (id : String) :
    (targetsFrom (g ++ added).edges id).filter (keep ·) = targetsFrom g.edges id := by
  have hold : (targetsFrom g.edges id).filter (keep ·) = targetsFrom g.edges id := by
    refine List.filter_eq_self.2 fun target htarget => ?_
    obtain ⟨e, he, -, rfl⟩ := mem_targetsFrom.1 htarget
    simpa using h.target e he
  have hnew : (targetsFrom added.edges id).filter (keep ·) = [] := by
    refine List.filter_eq_nil_iff.2 fun target htarget => ?_
    obtain ⟨e, he, -, rfl⟩ := mem_targetsFrom.1 htarget
    simpa using h.newTarget e he
  rw [edges_append, targetsFrom_append, List.filter_append, hold, hnew, List.append_nil]

theorem Outgrowth.branching (h : g.Outgrowth keep added) :
    Branching keep (g ++ added).steps g.steps where
  known id hid := by
    rw [steps, steps, isSome_stepById?_resolve, isSome_stepById?_resolve, h.mem_nodeIds_iff hid]
  within id hid := by
    by_cases hnode : id ∈ nodeIds g.nodes
    · rw [steps, steps, targetsOf_resolve_of_mem ((h.mem_nodeIds_iff hid).2 hnode),
        targetsOf_resolve_of_mem hnode, h.filter_targetsFrom]
    · rw [steps, steps, targetsOf_resolve_of_not_mem (mt (h.mem_nodeIds_iff hid).1 hnode),
        targetsOf_resolve_of_not_mem hnode, List.filter_nil]
  beyond id hid target htarget := by
    obtain ⟨-, e, he, rfl, rfl⟩ := mem_targetsOf_resolve.1 htarget
    rcases List.mem_append.1 he with hold | hnew
    · exact absurd (h.source e hold) hid
    · exact h.newTarget e hnew

theorem Outgrowth.filter_roots (h : g.Outgrowth keep added) :
    (roots (g ++ added).nodes (g ++ added).edges).filter (keep ·) = roots g.nodes g.edges := by
  have huntargeted : ∀ n ∈ g.nodes, added.edges.any (fun e => e.target = n.id) = false := by
    refine fun n hn => List.any_eq_false.2 fun e he htarget => ?_
    exact h.newTarget e he (of_decide_eq_true htarget ▸ h.node n hn)
  have hsame : g.nodes.filter (fun n => n.isTrigger ||
        !(g.edges ++ added.edges).any fun e => e.target = n.id) =
      g.nodes.filter fun n => n.isTrigger || !g.edges.any fun e => e.target = n.id := by
    refine List.filter_congr fun n hn => ?_
    rw [List.any_append, huntargeted n hn, Bool.or_false]
  have hold : ∀ id ∈ roots g.nodes g.edges, keep id := by
    intro id hid
    obtain ⟨n, hn, rfl⟩ := List.mem_map.1 hid
    exact h.node n (List.mem_filter.1 hn).1
  have hnew : ∀ edges, (roots added.nodes edges).filter (keep ·) = [] := by
    refine fun edges => List.filter_eq_nil_iff.2 fun id hid => ?_
    obtain ⟨n, hn, rfl⟩ := List.mem_map.1 hid
    simpa using h.newNode n (List.mem_filter.1 hn).1
  calc (roots (g ++ added).nodes (g ++ added).edges).filter (keep ·)
    _ = (roots g.nodes g.edges ++ roots added.nodes (g ++ added).edges).filter (keep ·) := by
        rw [roots, nodes_append, edges_append, List.filter_append, List.map_append, hsame]
        rfl
    _ = roots g.nodes g.edges := by
        rw [List.filter_append, hnew, List.append_nil, List.filter_eq_self.2]
        simpa using hold

omit [DecidablePred keep] in
/-- The plan of a graph that has grown lists the old ids in the order of the plan before. -/
theorem Outgrowth.plan (h : g.Outgrowth keep added) {plan : Plan} (hplan : g.plan = .ok plan) :
    ∃ later, (g ++ added).plan = .ok later ∧
      later.ids.filter (· ∈ nodeIds g.nodes) = plan.ids := by
  classical
  obtain ⟨hroots, hsteps⟩ := linearize_eq_ok_iff.1 hplan
  have hgrown : roots (g ++ added).nodes (g ++ added).edges ≠ [] := by
    intro hnil
    rw [← h.filter_roots, hnil] at hroots
    exact hroots rfl
  have hlater := linearize_of_roots_ne_nil hgrown
  have hshows := (Walk.Shows.start keep).explore h.branching
    (roots (g ++ added).nodes (g ++ added).edges)
  rw [h.filter_roots] at hshows
  refine ⟨_, hlater, ?_⟩
  have hkept : _ = plan.ids := hshows.passed.trans (congrArg (List.map (·.id)) hsteps.symm)
  rw [← hkept]
  -- of the ids in the plan just the old ones are kept
  refine List.filter_congr fun id hid => decide_eq_decide.2 ?_
  have hnode : id ∈ nodeIds (g ++ added).nodes :=
    ((mem_ids_iff_reachable hlater).1 hid).mem_nodeIds
  constructor
  · intro hold
    obtain ⟨n, hn, rfl⟩ := List.mem_map.1 hold
    exact h.node n hn
  · exact fun hkeep => (h.mem_nodeIds_iff hkeep).1 hnode

omit [DecidablePred keep] in
theorem Outgrowth.nodup (h : g.Outgrowth keep added) (hg : (nodeIds g.nodes).Nodup)
    (hadded : (nodeIds added.nodes).Nodup) : (nodeIds (g ++ added).nodes).Nodup := by
  rw [nodes_append, nodeIds_append]
  refine hg.append hadded fun id hold hnew => ?_
  obtain ⟨n, hn, rfl⟩ := List.mem_map.1 hold
  obtain ⟨m, hm, hid⟩ := List.mem_map.1 hnew
  exact h.newNode m hm (hid ▸ h.node n hn)

end Graph

end StepFlow
