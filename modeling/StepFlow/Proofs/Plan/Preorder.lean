import StepFlow.Proofs.Plan.Rounds

/-!
# Plans are depth-first preorders

The recursive walk of a graph, which follows the edges of an id as soon as it meets it, beside the
walk with a stack. Both emit the same ids, on every graph, as far as edges are concerned that leave
a node: the walk with a stack never follows an edge whose source does not exist.

## Main definitions

* `visit`, `visitAll`: the recursive walk.
* `preorder`: the ids that it emits.

## Main statements

* `preorder_of_linearize`: a plan is the preorder along the anchored edges.
-/

namespace StepFlow

/-- The ids that a recursive walk has marked, and those that it has emitted, in order. -/
structure Trail where
  marked : List String := []
  emitted : List String := []

/-- A trail on which all marks of an earlier one are left. -/
abbrev Trail.Later (trail : Trail) : Type :=
  { later : Trail // trail.marked ⊆ later.marked }

/-- Marks an id, and emits it if it is the id of a node. -/
def Trail.mark (nodes : List Node) (trail : Trail) (id : String) : Trail :=
  ⟨id :: trail.marked, if id ∈ nodeIds nodes then trail.emitted ++ [id] else trail.emitted⟩

mutual

/-- Does nothing if the id is marked; otherwise marks it, emits it if it is a node, and visits the
targets of the edges that leave it. -/
def visit (nodes : List Node) (edges : List Edge) (trail : Trail) (id : String) : trail.Later :=
  if id ∈ trail.marked then ⟨trail, List.Subset.refl _⟩
  else
    let later := visitAll nodes edges (trail.mark nodes id) (targetsFrom edges id)
    ⟨later.1, fun _ ha => later.2 (List.mem_cons_of_mem _ ha)⟩
termination_by ((openEdges edges trail.marked).length, 1)
decreasing_by
  -- either an edge leaves the id, and is open no longer, or there is nothing to visit
  have hopen := length_openEdges_cons ‹id ∉ trail.marked› edges
  simp only [Trail.mark, Prod.lex_def]
  omega

/-- Visits ids one after the other. -/
def visitAll (nodes : List Node) (edges : List Edge) (trail : Trail) : List String → trail.Later
  | [] => ⟨trail, List.Subset.refl _⟩
  | id :: ids =>
    let first := visit nodes edges trail id
    let later := visitAll nodes edges first.1 ids
    ⟨later.1, fun _ ha => later.2 (first.2 ha)⟩
termination_by ids => ((openEdges edges trail.marked).length, 2 * ids.length)
decreasing_by
  · exact Prod.Lex.right _ (by simp only [List.length_cons]; omega)
  · have hopen := length_openEdges_le edges first.2
    simp only [first, Prod.lex_def, List.length_cons] at hopen ⊢
    omega

end

/-- The ids that the recursive walk emits from the given ones on. -/
def preorder (nodes : List Node) (edges : List Edge) (starts : List String) : List String :=
  (visitAll nodes edges {} starts).1.emitted

section

variable {nodes : List Node} {edges : List Edge} {trail : Trail} {id : String}

@[simp] theorem visitAll_nil : (visitAll nodes edges trail []).1 = trail := by
  rw [visitAll]

theorem visitAll_cons (ids : List String) :
    (visitAll nodes edges trail (id :: ids)).1 =
      (visitAll nodes edges (visit nodes edges trail id).1 ids).1 := by
  rw [visitAll]

theorem visitAll_cons_of_mem (h : id ∈ trail.marked) (ids : List String) :
    (visitAll nodes edges trail (id :: ids)).1 = (visitAll nodes edges trail ids).1 := by
  have hfirst : (visit nodes edges trail id).1 = trail := by rw [visit, if_pos h]
  rw [visitAll_cons, hfirst]

theorem visitAll_cons_of_not_mem (h : id ∉ trail.marked) (ids : List String) :
    (visitAll nodes edges trail (id :: ids)).1 =
      (visitAll nodes edges
        (visitAll nodes edges (trail.mark nodes id) (targetsFrom edges id)).1 ids).1 := by
  have hfirst : (visit nodes edges trail id).1 =
      (visitAll nodes edges (trail.mark nodes id) (targetsFrom edges id)).1 := by
    rw [visit, if_neg h]
  rw [visitAll_cons, hfirst]

end

variable {nodes : List Node} {edges : List Edge}

/-- What a walk shows of itself: the ids that it has met and those of the steps it has passed. -/
def Walk.trail (walk : Walk) : Trail :=
  ⟨walk.visited, walk.passed.map (·.id)⟩

theorem Walk.trail_enter (walk : Walk) (id : String) :
    (walk.enter (resolve nodes edges) id).trail = walk.trail.mark nodes id := by
  cases h : stepById? (resolve nodes edges) id with
  | none =>
    have hid := stepById?_resolve_eq_none_iff.1 h
    simp [Walk.enter, Walk.trail, Trail.mark, h, hid]
  | some s =>
    obtain ⟨hs, rfl⟩ := stepById?_mem h
    simp [Walk.enter, Walk.trail, Trail.mark, h, id_mem_nodeIds_of_mem_resolve hs]

/-- The walk with a stack and the recursive one leave the same trail. -/
theorem visitAll_trail (walk : Walk) (ids : List String) :
    (visitAll nodes (anchoredEdges nodes edges) walk.trail ids).1 =
      (walk.explore (resolve nodes edges) ids).trail := by
  induction walk, ids using Walk.explore_depth_rec (resolve nodes edges) with
  | done walk => rw [visitAll_nil, Walk.explore_nil]
  | met walk id ids hmem ih =>
    have hmarked : id ∈ walk.trail.marked := hmem
    rw [visitAll_cons_of_mem hmarked, Walk.explore_cons_of_mem hmem]
    exact ih
  | new walk id ids hnew ihtargets ihrest =>
    have hmarked : id ∉ walk.trail.marked := hnew
    rw [Walk.trail_enter, targetsOf_resolve] at ihtargets
    rw [visitAll_cons_of_not_mem hmarked, ihtargets, Walk.explore_cons_of_not_mem hnew,
      targetsOf_resolve]
    rw [targetsOf_resolve] at ihrest
    exact ihrest

theorem preorder_eq_ids {plan : Plan} (h : linearize nodes edges = .ok plan) :
    preorder nodes (anchoredEdges nodes edges) (roots nodes edges) = plan.ids := by
  obtain ⟨-, hsteps⟩ := linearize_eq_ok_iff.1 h
  have htrail : (visitAll nodes (anchoredEdges nodes edges) {} (roots nodes edges)).1 = _ :=
    visitAll_trail {} (roots nodes edges)
  rw [preorder, htrail, Plan.ids, hsteps]
  rfl

/-- The loop that makes a plan ends after at most two rounds for each root and one for each edge,
and it emits the steps in the order in which the recursive walk along the anchored edges meets
their ids. -/
theorem preorder_of_linearize {plan : Plan} (h : linearize nodes edges = .ok plan) :
    (∃ n ≤ 2 * (roots nodes edges).length + edges.length, ∃ visited,
      (Search.round (resolve nodes edges))^[n] ⟨roots nodes edges, {}, []⟩ =
        ⟨[], ⟨visited, plan.steps⟩, []⟩) ∧
    preorder nodes (anchoredEdges nodes edges) (roots nodes edges) = plan.ids := by
  obtain ⟨-, hsteps⟩ := linearize_eq_ok_iff.1 h
  obtain ⟨n, hn, hiter⟩ :=
    Search.exists_iterate_round_eq nodes edges ⟨roots nodes edges, {}, []⟩
  have hbudget : n ≤ 2 * (roots nodes edges).length + edges.length := by
    simpa [Search.budget, openEdges_nil] using hn
  let final := Walk.explore (resolve nodes edges) {} (roots nodes edges)
  have hfinal : Search.mk [] (Search.outcome (resolve nodes edges) ⟨roots nodes edges, {}, []⟩) [] =
      ⟨[], ⟨final.visited, plan.steps⟩, []⟩ := by
    rw [hsteps]
    rfl
  exact ⟨⟨n, hbudget, final.visited, hiter.trans hfinal⟩, preorder_eq_ids h⟩

/-- Duplicate nodes and edges, a loop, cycles and two dangling ends. -/
theorem preorder_of_linearize_tangled :
    let nodes : List Node := [{ id := "a", kind := some .trigger }, { id := "b" }, { id := "c" },
      { id := "b", label := some "again" }, { id := "d" }]
    let edges : List Edge := [⟨"1", "a", "b", none⟩, ⟨"2", "a", "c", none⟩, ⟨"3", "b", "d", none⟩,
      ⟨"4", "d", "b", none⟩, ⟨"5", "c", "c", none⟩, ⟨"6", "a", "b", none⟩,
      ⟨"7", "c", "ghost", none⟩, ⟨"8", "ghost", "d", none⟩, ⟨"9", "d", "a", none⟩]
    ∃ plan, linearize nodes edges = .ok plan ∧ plan.ids = ["a", "b", "d", "c"] ∧
      (∃ n ≤ 2 * (roots nodes edges).length + edges.length, ∃ visited,
        (Search.round (resolve nodes edges))^[n] ⟨roots nodes edges, {}, []⟩ =
          ⟨[], ⟨visited, plan.steps⟩, []⟩) ∧
      preorder nodes (anchoredEdges nodes edges) (roots nodes edges) = plan.ids := by
  intro nodes edges
  have hplan := linearize_eq_of_iterate_round nodes edges (by decide) 8 rfl
  exact ⟨_, hplan, rfl, preorder_of_linearize hplan⟩

/-- Along all edges the recursive walk would also go on from a target that is no node. -/
theorem preorder_through_dangling_target :
    let nodes : List Node := [{ id := "a" }, { id := "c" }]
    let edges : List Edge := [⟨"1", "a", "ghost", none⟩, ⟨"2", "ghost", "c", none⟩]
    (linearize nodes edges).map Plan.ids = .ok ["a"] ∧
      preorder nodes edges (roots nodes edges) = ["a", "c"] := by
  intro nodes edges
  constructor
  · rw [linearize_eq_of_iterate_round nodes edges (by decide) 3 rfl]
    rfl
  · have hroots : roots nodes edges = ["a"] := by decide
    rw [hroots]
    simp [preorder, visitAll, visit, targetsFrom, Trail.mark, nodeIds, nodes, edges]

end StepFlow
