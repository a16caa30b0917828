import StepFlow.Canvas.Grid
import StepFlow.Proofs.Plan.Resolve

/-!
# Steps on the canvas and back

A list of steps put on the canvas is a graph, and the graph has steps again. Each node gets back the
targets of its own step as long as no other step has its id. A condition is another matter: a step
may have one whatever its kind, but a node has one only in the settings of a condition.

## Main definitions

* `Step.guard?`: the condition that the canvas node of a step has.

## Main statements

* `steps_ofSteps`, `steps_ofSteps_append`: the steps of the canvas form of a list, also with further
  edges.
* `steps_ofSteps_resolve`: the steps of a graph come back from the canvas as they were.
-/

namespace StepFlow

/-- The condition that the canvas node of a step has. -/
def Step.guard? (s : Step) : Option String :=
  if s.kind.isCondition then s.config.text? conditionKey else none

theorem Step.condition?_toNode (s : Step) (p : Position) : (s.toNode p).condition? = s.guard? :=
  rfl

/-- The step of a node guards what the node does. -/
theorem Node.guard?_toStep (n : Node) (next : Successors) :
    (n.toStep next).guard? = n.condition? := by
  cases hkind : n.kind <;> simp [Step.guard?, condition?, toStep, hkind, Kind.isCondition]

/-- A step is filled in once: on the canvas and back it changes its place, and what follows it. -/
theorem Node.toStep_toNode (n : Node) (next next' : Successors) (p : Position) :
    ((n.toStep next).toNode p).toStep next' =
      { n.toStep next with position := p, next := next' } := by
  simp only [toStep, Step.toNode, filled_filled, Option.getD_some]

theorem targetsFrom_map_sequential (source : String) (targets : List String) (id : String) :
    targetsFrom (targets.map (.sequential source)) id = if source = id then targets else [] := by
  by_cases h : source = id <;>
    simp [targetsFrom, Edge.sequential, h, List.filter_map, Function.comp_def]

section

variable {list : List Step} {s : Step}

/-- An id gets the targets of all steps that have it. -/
theorem targetsFrom_flatMap_edges (list : List Step) (id : String) :
    targetsFrom (list.flatMap Step.edges) id =
      (list.filter fun s => s.id = id).flatMap (·.next.targets) := by
  induction list with
  | nil => rfl
  | cons s list ih =>
    rw [List.flatMap_cons, targetsFrom_append, ih, Step.edges, targetsFrom_map_sequential]
    by_cases h : s.id = id <;> simp [h]

theorem filter_id_of_nodup (hnodup : (list.map (·.id)).Nodup) (hs : s ∈ list) :
    (list.filter fun t => t.id = s.id) = [s] := by
  induction list with
  | nil => cases hs
  | cons t list ih =>
    obtain ⟨hout, hnodup⟩ := List.nodup_cons.1 hnodup
    rcases List.mem_cons.1 hs with rfl | hs
    · have hnone : (list.filter fun t => t.id = s.id) = [] := by
        refine List.filter_eq_nil_iff.2 fun t ht hid => hout ?_
        exact List.mem_map.2 ⟨t, ht, of_decide_eq_true hid⟩
      rw [List.filter_cons, if_pos (decide_eq_true rfl), hnone]
    · have hne : t.id ≠ s.id := fun hid => hout (List.mem_map.2 ⟨s, hs, hid.symm⟩)
      rw [List.filter_cons_of_neg (by simpa using hne), ih hnodup hs]

theorem nodeIds_ofSteps (list : List Step) :
    nodeIds (Graph.ofSteps list).nodes = list.map (·.id) := by
  refine List.ext_getElem (by simp [nodeIds, Graph.ofSteps]) fun i _ _ => ?_
  simp only [nodeIds, Graph.ofSteps, List.getElem_map, List.getElem_mapIdx, Step.toNode]

/-- The steps of the canvas form of a list with further edges: each has its own targets before those
of the further edges, and the condition of its node. -/
theorem steps_ofSteps_append (hnodup : (list.map (·.id)).Nodup) (extra : List Edge) :
    resolve (Graph.ofSteps list).nodes ((Graph.ofSteps list).edges ++ extra) =
      list.mapIdx fun i s => (s.toNode (gridPosition i s.kind)).toStep
        (.ofTargets (s.next.targets ++ targetsFrom extra s.id) s.guard?) := by
  rw [resolve_eq_map]
  refine List.ext_getElem (by simp [Graph.ofSteps]) fun i _ hi => ?_
  rw [List.length_mapIdx] at hi
  have htargets : targetsFrom (list.flatMap Step.edges ++ extra) list[i].id =
      list[i].next.targets ++ targetsFrom extra list[i].id := by
    rw [targetsFrom_append, targetsFrom_flatMap_edges,
      filter_id_of_nodup hnodup (List.getElem_mem hi), List.flatMap_singleton]
  simp only [Graph.ofSteps, List.getElem_map, List.getElem_mapIdx, Step.condition?_toNode]
  exact congrArg (fun targets => Node.toStep _ (.ofTargets targets _)) htargets

/-- The steps of the canvas form of a list. -/
theorem steps_ofSteps (hnodup : (list.map (·.id)).Nodup) :
    (Graph.ofSteps list).steps = list.mapIdx fun i s =>
      (s.toNode (gridPosition i s.kind)).toStep (.ofTargets s.next.targets s.guard?) := by
  have hnone : ∀ id, targetsFrom [] id = [] := fun _ => rfl
  simpa only [Graph.steps, List.append_nil, hnone] using steps_ofSteps_append hnodup []

end

/-- The steps of a graph whose nodes have distinct ids, put on the canvas, are the steps of the new
graph but for their places, whatever edges the graph has. -/
theorem steps_ofSteps_resolve {nodes : List Node} (hnodup : (nodeIds nodes).Nodup)
    (edges : List Edge) :
    let steps := resolve nodes edges
    let canvas := Graph.ofSteps steps
    resolve canvas.nodes canvas.edges =
      steps.mapIdx fun i s => { s with position := gridPosition i s.kind } := by
  intro steps canvas
  have hids : (steps.map (·.id)).Nodup := map_id_resolve nodes edges ▸ hnodup
  refine (steps_ofSteps hids).trans (List.mapIdx_eq_mapIdx_iff.2 fun i hi => ?_)
  obtain ⟨n, -, hn⟩ := mem_resolve.1 (List.getElem_mem hi)
  rw [← hn, Node.toStep_toNode, Node.guard?_toStep]
  simp only [Node.toStep, Successors.targets_ofTargets]

/-- A condition with a single target, which is joined to a missing node twice. -/
theorem steps_ofSteps_resolve_of_condition :
    let nodes : List Node := [
      { id := "a", kind := some .condition, config := [("condition", .str "x > 3")] },
      { id := "b", label := some "" }]
    let edges : List Edge := [⟨"1", "b", "ghost", none⟩, ⟨"2", "a", "b", none⟩,
      ⟨"3", "b", "ghost", none⟩]
    let canvas := Graph.ofSteps (resolve nodes edges)
    (nodeIds nodes).Nodup ∧
      (resolve canvas.nodes canvas.edges).map (fun s => (s.id, s.label, s.next)) =
        [("a", "Unnamed", .branch ["b"] (some "x > 3")),
          ("b", "Unnamed", .branch ["ghost", "ghost"] none)] := by
  intro nodes edges canvas
  have hnodup : (nodeIds nodes).Nodup := by decide
  refine ⟨hnodup, ?_⟩
  rw [steps_ofSteps_resolve hnodup edges]
  rfl

end StepFlow
