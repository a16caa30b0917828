import StepFlow.Plan.Linearize

/-!
# The steps of a graph

What `resolve` makes of the edges: the successors of a step are the targets of the edges that leave
its node, in edge order, and looking a step up by its id succeeds exactly for the ids of nodes.

## Main definitions

* `nodeIds`: the ids of a list of nodes.
* `targetsFrom`: the targets of the edges that leave an id.
* `targetsOf`: the targets of the step with an id.
* `anchoredEdges`: the edges whose source is a node.
-/

namespace StepFlow

/-- The ids of the nodes in their order. -/
def nodeIds (nodes : List Node) : List String :=
  nodes.map (·.id)

theorem nodeIds_append (nodes more : List Node) :
    nodeIds (nodes ++ more) = nodeIds nodes ++ nodeIds more :=
  List.map_append

/-- The targets of the edges that leave an id, in edge order. -/
def targetsFrom (edges : List Edge) (id : String) : List String :=
  (edges.filter fun e => e.source = id).map (·.target)

/-- The more ids are known, the fewer things have an unknown one. -/
theorem length_filter_not_mem_le {α : Type} (key : α → String) (l : List α)
    {known later : List String} (h : known ⊆ later) :
    (l.filter fun a => key a ∉ later).length ≤ (l.filter fun a => key a ∉ known).length := by
  rw [← List.countP_eq_length_filter, ← List.countP_eq_length_filter]
  refine List.countP_mono_left fun a _ ha => ?_
  simp only [decide_eq_true_eq] at ha ⊢
  exact fun hknown => ha (h hknown)

theorem mem_targetsFrom {edges : List Edge} {id target : String} :
    target ∈ targetsFrom edges id ↔ ∃ e ∈ edges, e.source = id ∧ e.target = target := by
  simp [targetsFrom, and_assoc]

theorem targetsFrom_eq_nil_iff {edges : List Edge} {id : String} :
    targetsFrom edges id = [] ↔ ∀ e ∈ edges, e.source ≠ id := by
  simp [targetsFrom]

theorem targetsFrom_cons (e : Edge) (edges : List Edge) (id : String) :
    targetsFrom (e :: edges) id =
      (if e.source = id then [e.target] else []) ++ targetsFrom edges id := by
  by_cases h : e.source = id <;> simp [targetsFrom, h]

theorem targetsFrom_append (edges extra : List Edge) (id : String) :
    targetsFrom (edges ++ extra) id = targetsFrom edges id ++ targetsFrom extra id := by
  simp [targetsFrom]

theorem getD_get?_addTarget (groups : Keyed (List String)) (source target id : String) :
    (Keyed.get? (addTarget source target groups) id).getD [] =
      (Keyed.get? groups id).getD [] ++ if source = id then [target] else [] := by
  induction groups with
  | nil => by_cases h : source = id <;> simp [addTarget, Keyed.get?, h, eq_comm]
  | cons group rest ih =>
    obtain ⟨key, targets⟩ := group
    by_cases hkey : key = source
    · subst hkey
      by_cases h : key = id
      · simp [addTarget, Keyed.get?, h]
      · simp [addTarget, Keyed.get?, h, Ne.symm h]
    · simp only [addTarget, if_neg hkey, Keyed.get?]
      by_cases h : id = key
      · subst h
        simp [Ne.symm hkey]
      · simp only [if_neg h, ih]

/-- Grouping the edges loses none of them and keeps their order. -/
theorem getD_get?_adjacency (edges : List Edge) (id : String) :
    (Keyed.get? (adjacency edges) id).getD [] = targetsFrom edges id := by
  have hfold : ∀ groups : Keyed (List String),
      (Keyed.get? (edges.foldl (fun groups e => addTarget e.source e.target groups) groups)
        id).getD [] = (Keyed.get? groups id).getD [] ++ targetsFrom edges id := by
    induction edges with
    | nil => intro groups; simp [targetsFrom]
    | cons e rest ih =>
      intro groups
      rw [List.foldl_cons, ih, getD_get?_addTarget, targetsFrom_cons, List.append_assoc]
  simpa [adjacency, Keyed.get?] using hfold []

theorem resolve_eq_map (nodes : List Node) (edges : List Edge) :
    resolve nodes edges =
      nodes.map fun n => n.toStep (.ofTargets (targetsFrom edges n.id) n.condition?) := by
  simp only [resolve, getD_get?_adjacency]

/-- Each node has its step, at its place in the order. -/
theorem Graph.getElem?_steps (g : Graph) (i : Nat) :
    g.steps[i]? = g.nodes[i]?.map fun n =>
      n.toStep (.ofTargets (targetsFrom g.edges n.id) n.condition?) := by
  rw [steps, resolve_eq_map, List.getElem?_map]

theorem map_id_resolve (nodes : List Node) (edges : List Edge) :
    (resolve nodes edges).map (·.id) = nodeIds nodes := by
  rw [resolve_eq_map, List.map_map]
  rfl

theorem mem_resolve {nodes : List Node} {edges : List Edge} {s : Step} :
    s ∈ resolve nodes edges ↔
      ∃ n ∈ nodes, n.toStep (.ofTargets (targetsFrom edges n.id) n.condition?) = s := by
  simp [resolve, getD_get?_adjacency]

/-- The successors of a step are the targets of the edges that leave it. -/
theorem targets_of_mem_resolve {nodes : List Node} {edges : List Edge} {s : Step}
    (h : s ∈ resolve nodes edges) : s.next.targets = targetsFrom edges s.id := by
  obtain ⟨n, _, rfl⟩ := mem_resolve.1 h
  simp [Node.toStep]

theorem id_mem_nodeIds_of_mem_resolve {nodes : List Node} {edges : List Edge} {s : Step}
    (h : s ∈ resolve nodes edges) : s.id ∈ nodeIds nodes := by
  obtain ⟨n, hn, rfl⟩ := mem_resolve.1 h
  exact List.mem_map_of_mem hn

/-- Exactly the ids of nodes have a step. -/
theorem stepById?_resolve_eq_none_iff {nodes : List Node} {edges : List Edge} {id : String} :
    stepById? (resolve nodes edges) id = none ↔ id ∉ nodeIds nodes := by
  simp [stepById?, mem_resolve, nodeIds, Node.toStep]

theorem isSome_stepById?_resolve {nodes : List Node} {edges : List Edge} {id : String} :
    (stepById? (resolve nodes edges) id).isSome ↔ id ∈ nodeIds nodes := by
  rw [Option.isSome_iff_ne_none, ne_eq, stepById?_resolve_eq_none_iff, Decidable.not_not]

theorem exists_stepById?_resolve {nodes : List Node} (edges : List Edge) {id : String}
    (h : id ∈ nodeIds nodes) : ∃ s, stepById? (resolve nodes edges) id = some s ∧ s.id = id := by
  cases hs : stepById? (resolve nodes edges) id with
  | none => exact absurd h (stepById?_resolve_eq_none_iff.1 hs)
  | some s => exact ⟨s, rfl, (stepById?_mem hs).2⟩

/-- The targets of the step with an id; none if there is no such step. -/
def targetsOf (steps : List Step) (id : String) : List String :=
  ((stepById? steps id).map (·.next.targets)).getD []

/-- The edges whose source is a node. -/
def anchoredEdges (nodes : List Node) (edges : List Edge) : List Edge :=
  edges.filter fun e => e.source ∈ nodeIds nodes

/-- A step has the targets of its anchored edges, an id without a step has none. -/
theorem targetsOf_resolve {nodes : List Node} {edges : List Edge} (id : String) :
    targetsOf (resolve nodes edges) id = targetsFrom (anchoredEdges nodes edges) id := by
  cases h : stepById? (resolve nodes edges) id with
  | none =>
    have hid := stepById?_resolve_eq_none_iff.1 h
    have hnone : ∀ target, target ∉ targetsFrom (anchoredEdges nodes edges) id := by
      intro target htarget
      obtain ⟨e, he, rfl, -⟩ := mem_targetsFrom.1 htarget
      exact hid (by simpa using (List.mem_filter.1 he).2)
    simp [targetsOf, h, List.eq_nil_iff_forall_not_mem.2 hnone]
  | some s =>
    obtain ⟨hs, rfl⟩ := stepById?_mem h
    have hid := id_mem_nodeIds_of_mem_resolve hs
    have hsame : (anchoredEdges nodes edges).filter (fun e => e.source = s.id) =
        edges.filter fun e => e.source = s.id := by
      rw [anchoredEdges, List.filter_filter]
      refine List.filter_congr fun e _ => ?_
      by_cases he : e.source = s.id <;> simp [he, hid]
    simp [targetsOf, h, targets_of_mem_resolve hs, targetsFrom, hsame]

theorem targetsOf_resolve_of_mem {nodes : List Node} {id : String} (h : id ∈ nodeIds nodes)
    (edges : List Edge) : targetsOf (resolve nodes edges) id = targetsFrom edges id := by
  obtain ⟨s, hs, rfl⟩ := exists_stepById?_resolve edges h
  rw [targetsOf, hs, Option.map_some, Option.getD_some,
    targets_of_mem_resolve (stepById?_mem hs).1]

theorem targetsOf_resolve_of_not_mem {nodes : List Node} {id : String} (h : id ∉ nodeIds nodes)
    (edges : List Edge) : targetsOf (resolve nodes edges) id = [] := by
  rw [targetsOf, stepById?_resolve_eq_none_iff.2 h]
  rfl

theorem mem_targetsOf_resolve {nodes : List Node} {edges : List Edge} {id target : String} :
    target ∈ targetsOf (resolve nodes edges) id ↔
      id ∈ nodeIds nodes ∧ ∃ e ∈ edges, e.source = id ∧ e.target = target := by
  rw [targetsOf_resolve, mem_targetsFrom]
  simp only [anchoredEdges, List.mem_filter, decide_eq_true_eq]
  constructor
  · rintro ⟨e, ⟨he, hid⟩, rfl, htarget⟩
    exact ⟨hid, e, he, rfl, htarget⟩
  · rintro ⟨hid, e, he, rfl, htarget⟩
    exact ⟨e, ⟨he, hid⟩, rfl, htarget⟩

end StepFlow
