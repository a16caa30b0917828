import StepFlow.Plan.Basic
import StepFlow.Plan.Resolve

/-!
# Linearizing graphs

The plan of a graph: from every root in turn the steps are walked depth-first, each before its
successors, and no step is entered twice.

## Main definitions

* `roots`: the ids from which the walk starts.
* `Walk.explore`: the walk with an explicit stack.
* `linearize`: the plan of a graph, or why there is none.

## Design notes

A target that is no node is marked as visited and yields no step. Of several nodes with one id the
last one is planned. The walk ends because every round either marks a step that was not marked or
takes an id off the stack.
-/

namespace StepFlow

/-- The ids of the triggers and of the nodes that no edge points at. -/
def roots (nodes : List Node) (edges : List Edge) : List String :=
  (nodes.filter fun n => n.isTrigger || !edges.any fun e => e.target = n.id).map (·.id)

/-- The last step with an id. -/
def stepById? (steps : List Step) (id : String) : Option Step :=
  steps.reverse.find? fun s => s.id = id

/-- The steps that are not marked as visited. -/
def unvisited (steps : List Step) (visited : List String) : List Step :=
  steps.filter fun s => s.id ∉ visited

/-- How far a walk has come: the ids it has met and the steps it has passed, in order. -/
structure Walk where
  visited : List String := []
  passed : List Step := []

theorem unvisited_cons (steps : List Step) (visited : List String) (id : String) :
    unvisited steps (id :: visited) =
      (unvisited steps visited).filter fun s => s.id ≠ id := by
  simp only [unvisited, List.filter_filter]
  refine List.filter_congr fun s _ => ?_
  by_cases h : s.id = id <;> simp [h]

theorem mem_unvisited {steps : List Step} {visited : List String} {s : Step} :
    s ∈ unvisited steps visited ↔ s ∈ steps ∧ s.id ∉ visited := by
  simp [unvisited]

theorem unvisited_cons_le (steps : List Step) (visited : List String) (id : String) :
    (unvisited steps (id :: visited)).length ≤ (unvisited steps visited).length := by
  rw [unvisited_cons]
  exact List.length_filter_le ..

theorem unvisited_cons_lt {steps : List Step} {visited : List String} {s : Step}
    (hs : s ∈ steps) (hv : s.id ∉ visited) :
    (unvisited steps (s.id :: visited)).length < (unvisited steps visited).length := by
  rw [unvisited_cons]
  exact List.length_filter_lt_length_iff_exists.2 ⟨s, mem_unvisited.2 ⟨hs, hv⟩, by simp⟩

theorem stepById?_mem {steps : List Step} {id : String} {s : Step}
    (h : stepById? steps id = some s) : s ∈ steps ∧ s.id = id :=
  ⟨List.mem_reverse.1 (List.mem_of_find?_eq_some h), by
    simpa using List.find?_some h⟩

/-- Walks on from the ids on the stack, the first one being on top. The successors of a step go on
the stack as far as they are not visited yet. -/
def Walk.explore (steps : List Step) (walk : Walk) : List String → Walk
  | [] => walk
  | id :: stack =>
    if id ∈ walk.visited then explore steps walk stack
    else
      let visited := id :: walk.visited
      match _found : stepById? steps id with
      | none => explore steps { walk with visited } stack
      | some s =>
        explore steps { visited, passed := walk.passed ++ [s] }
          ((s.next.targets.filter fun target => target ∉ visited) ++ stack)
termination_by stack => ((unvisited steps walk.visited).length, stack.length)
decreasing_by
  · exact Prod.Lex.right _ (by simp)
  · refine Prod.lex_def.2 ?_
    have := unvisited_cons_le steps walk.visited id
    simp only [List.length_cons]
    omega
  · obtain ⟨hs, rfl⟩ := stepById?_mem _found
    exact Prod.Lex.left _ _ (unvisited_cons_lt hs ‹_›)

/-- The plan of a graph. -/
def linearize (nodes : List Node) (edges : List Edge) : Except PlanError Plan :=
  if nodes.isEmpty then .error .emptyGraph
  else
    let starts := roots nodes edges
    if starts.isEmpty then .error (.noRoot nodes.length)
    else
      let steps := resolve nodes edges
      let walk := starts.foldl (fun (walk : Walk) root => walk.explore steps [root]) {}
      .ok ⟨walk.passed⟩

/-- The plan of a graph. -/
def Graph.plan (g : Graph) : Except PlanError Plan :=
  linearize g.nodes g.edges

/-- The steps of a graph in plan order. -/
def planSteps (nodes : List Node) (edges : List Edge) : Except PlanError (List Step) := do
  return (← linearize nodes edges).steps

end StepFlow
