import StepFlow.Proofs.Plan.Rounds

/-!
# Plans without a canvas

Planning looks at a node without its place and without the node it was composed under, and of the
edges it looks only at the targets that each source has, in their order. So it makes no difference
where nodes stand, what edges are called and look like, or how the edges of different sources are
mixed.

## Main definitions

* `Node.unplaced`, `Step.unplaced`, `Plan.unplaced`: what planning looks at and what it makes of
  it.

## Main statements

* `Walk.explore_unplaced`: a walk does not look at places.
* `linearize_unplaced`: neither does a plan.
* `linearize_congr`: edges matter only for the targets of each source.
* `plan_without_canvas`: graphs that differ in nothing else have the same plan.
-/

namespace StepFlow

/-- The node without its place on the canvas and without the node it was composed under. -/
def Node.unplaced (n : Node) : Node :=
  { n with position := {}, parent := none }

/-- The step without its place on the canvas. -/
def Step.unplaced (s : Step) : Step :=
  { s with position := {} }

/-- The plan without the places of its steps. -/
def Plan.unplaced (p : Plan) : Plan :=
  ⟨p.steps.map Step.unplaced⟩

/-- The walk without the places of the steps it has passed. -/
def Walk.unplaced (walk : Walk) : Walk :=
  { walk with passed := walk.passed.map Step.unplaced }

/-! ### Nodes without their places -/

theorem resolve_unplaced (nodes : List Node) (edges : List Edge) :
    resolve (nodes.map Node.unplaced) edges = (resolve nodes edges).map Step.unplaced := by
  rw [resolve_eq_map, resolve_eq_map, List.map_map, List.map_map]
  rfl

theorem roots_unplaced (nodes : List Node) (edges : List Edge) :
    roots (nodes.map Node.unplaced) edges = roots nodes edges := by
  rw [roots, List.filter_map, List.map_map]
  rfl

theorem stepById?_unplaced (steps : List Step) (id : String) :
    stepById? (steps.map Step.unplaced) id = (stepById? steps id).map Step.unplaced := by
  rw [stepById?, ← List.map_reverse, List.find?_map]
  rfl

theorem targetsOf_unplaced (steps : List Step) (id : String) :
    targetsOf (steps.map Step.unplaced) id = targetsOf steps id := by
  rw [targetsOf, stepById?_unplaced, Option.map_map]
  rfl

namespace Walk

theorem enter_unplaced (steps : List Step) (walk : Walk) (id : String) :
    walk.unplaced.enter (steps.map Step.unplaced) id = (walk.enter steps id).unplaced := by
  simp only [enter, unplaced, stepById?_unplaced, List.map_append, Option.toList_map]

theorem unmet_unplaced (steps : List Step) (walk : Walk) (id : String) :
    walk.unplaced.unmet (steps.map Step.unplaced) id = walk.unmet steps id := by
  rw [unmet, targetsOf_unplaced]
  rfl

/-- A walk does not look at the places of steps. -/
theorem explore_unplaced (steps : List Step) (walk : Walk) (stack : List String) :
    walk.unplaced.explore (steps.map Step.unplaced) stack =
      (walk.explore steps stack).unplaced := by
  induction walk, stack using explore_rec steps with
  | done walk => rw [explore_nil, explore_nil]
  | met walk id stack hmem ih =>
    have hmet : id ∈ walk.unplaced.visited := hmem
    rw [explore_cons_of_mem hmem, explore_cons_of_mem hmet, ih]
  | new walk id stack hnew ih =>
    have hunmet : id ∉ walk.unplaced.visited := hnew
    rw [explore_cons_unmet hnew, explore_cons_unmet hunmet, enter_unplaced, unmet_unplaced, ih]

end Walk

theorem linearize_unplaced (nodes : List Node) (edges : List Edge) :
    linearize (nodes.map Node.unplaced) edges = (linearize nodes edges).map Plan.unplaced := by
  by_cases hn : nodes = []
  · subst hn
    rfl
  · have hn' : nodes.map Node.unplaced ≠ [] := mt List.map_eq_nil_iff.1 hn
    by_cases hroots : roots nodes edges = []
    · rw [linearize_of_roots_eq_nil hn hroots,
        linearize_of_roots_eq_nil hn' (roots_unplaced nodes edges ▸ hroots), List.length_map]
      rfl
    · rw [linearize_of_roots_ne_nil hroots,
        linearize_of_roots_ne_nil (roots_unplaced nodes edges ▸ hroots), roots_unplaced,
        resolve_unplaced]
      have hwalk := Walk.explore_unplaced (resolve nodes edges) {} (roots nodes edges)
      exact congrArg (fun walk : Walk => Except.ok (Plan.mk walk.passed)) hwalk

/-! ### Edges by their sources -/

section targets

variable {edges others : List Edge}

theorem resolve_congr (h : ∀ id, targetsFrom edges id = targetsFrom others id)
    (nodes : List Node) : resolve nodes edges = resolve nodes others := by
  simp only [resolve_eq_map, h]

/-- An id is a target if some source has it as a target. -/
theorem any_target_iff {id : String} :
    (edges.any fun e => e.target = id) = true ↔ ∃ source, id ∈ targetsFrom edges source := by
  simp only [List.any_eq_true, decide_eq_true_eq, mem_targetsFrom]
  constructor
  · rintro ⟨e, he, htarget⟩
    exact ⟨e.source, e, he, rfl, htarget⟩
  · rintro ⟨source, e, he, -, htarget⟩
    exact ⟨e, he, htarget⟩

theorem roots_congr (h : ∀ id, targetsFrom edges id = targetsFrom others id)
    (nodes : List Node) : roots nodes edges = roots nodes others := by
  have htargeted : ∀ id : String,
      (edges.any fun e => e.target = id) = others.any fun e => e.target = id := by
    intro id
    rw [Bool.eq_iff_iff, any_target_iff, any_target_iff]
    simp only [h]
  simp only [roots, htargeted]

/-- Edges matter only for the targets that each source has. -/
theorem linearize_congr (h : ∀ id, targetsFrom edges id = targetsFrom others id)
    (nodes : List Node) : linearize nodes edges = linearize nodes others := by
  simp only [linearize, resolve_congr h, roots_congr h]

end targets

/-- Two graphs whose nodes are the same in order, but for their places and the nodes they were
composed under, and in which each source has the same targets in order, have the same steps and the
same plan, but for the places of steps, or the same reason why there is none. -/
theorem plan_without_canvas {nodes nodes' : List Node} {edges edges' : List Edge}
    (hnodes : nodes.map Node.unplaced = nodes'.map Node.unplaced)
    (hedges : ∀ id, targetsFrom edges id = targetsFrom edges' id) :
    (resolve nodes edges).map Step.unplaced = (resolve nodes' edges').map Step.unplaced ∧
      (linearize nodes edges).map Plan.unplaced = (linearize nodes' edges').map Plan.unplaced := by
  constructor
  · calc (resolve nodes edges).map Step.unplaced
      _ = resolve (nodes.map Node.unplaced) edges := (resolve_unplaced nodes edges).symm
      _ = resolve (nodes'.map Node.unplaced) edges' := by rw [hnodes, resolve_congr hedges]
      _ = (resolve nodes' edges').map Step.unplaced := resolve_unplaced nodes' edges'
  · calc (linearize nodes edges).map Plan.unplaced
      _ = linearize (nodes.map Node.unplaced) edges := (linearize_unplaced nodes edges).symm
      _ = linearize (nodes'.map Node.unplaced) edges' := by rw [hnodes, linearize_congr hedges]
      _ = (linearize nodes' edges').map Plan.unplaced := linearize_unplaced nodes' edges'

/-- A graph beside one whose edges are mixed in another way and whose nodes stand elsewhere. -/
theorem plan_without_canvas_of_mixed_edges :
    let nodes : List Node := [{ id := "a" }, { id := "b", parent := some "p" }, { id := "c" }]
    let nodes' : List Node := [{ id := "a", position := ⟨0, 7⟩ }, { id := "b" },
      { id := "c", parent := some "a" }]
    let edges : List Edge := [⟨"1", "a", "c", none⟩, ⟨"2", "b", "a", none⟩, ⟨"3", "a", "b", none⟩]
    let edges' : List Edge := [.sequential "b" "a", .sequential "a" "c", .sequential "a" "b"]
    nodes.map Node.unplaced = nodes'.map Node.unplaced ∧
      (∀ id, targetsFrom edges id = targetsFrom edges' id) ∧
      (resolve nodes edges).map Step.unplaced = (resolve nodes' edges').map Step.unplaced ∧
      (linearize nodes edges).map Plan.unplaced = (linearize nodes' edges').map Plan.unplaced := by
  intro nodes nodes' edges edges'
  have hnodes : nodes.map Node.unplaced = nodes'.map Node.unplaced := rfl
  have hedges : ∀ id, targetsFrom edges id = targetsFrom edges' id := by
    intro id
    by_cases ha : id = "a"
    · subst ha
      decide
    · by_cases hb : id = "b"
      · subst hb
        decide
      · simp [targetsFrom, edges, edges', Edge.sequential, Ne.symm ha, Ne.symm hb]
  exact ⟨hnodes, hedges, plan_without_canvas hnodes hedges⟩

end StepFlow
