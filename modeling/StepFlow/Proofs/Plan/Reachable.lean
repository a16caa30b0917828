import Mathlib.Data.List.Nodup
import Mathlib.Logic.Relation
import StepFlow.Proofs.Plan.Walk

/-!
# Plans hold what is reachable

A plan consists of the nodes that can be reached from a root along edges between nodes, each of
them once. Only a graph without nodes and a graph without roots have no plan.

## Main definitions

* `IsRoot`: the nodes from which a walk starts.
* `Link`: an edge between two nodes.
* `Reachable`: the ids of the nodes that can be reached from a root.
* `Walk.Tidy`: what a walk keeps about the steps it has passed and about its stack.

## Main statements

* `linearize_reachable`: which graphs have a plan, and what it holds.
-/

namespace StepFlow

open Relation (ReflTransGen)

/-- Whether a walk starts from a node: it is a trigger or no edge points at it. -/
def IsRoot (edges : List Edge) (n : Node) : Prop :=
  n.isTrigger ∨ ∀ e ∈ edges, e.target ≠ n.id

/-- Whether an edge runs from one id to another one. -/
def Joined (edges : List Edge) (source target : String) : Prop :=
  ∃ e ∈ edges, e.source = source ∧ e.target = target

/-- Whether an edge runs from one node to another one. -/
def Link (nodes : List Node) (edges : List Edge) (source target : String) : Prop :=
  source ∈ nodeIds nodes ∧ target ∈ nodeIds nodes ∧ Joined edges source target

/-- Whether an id can be reached from a root along edges between nodes. -/
def Reachable (nodes : List Node) (edges : List Edge) (id : String) : Prop :=
  ∃ n ∈ nodes, IsRoot edges n ∧ ReflTransGen (Link nodes edges) n.id id

section

variable {nodes : List Node} {edges : List Edge} {id : String}

theorem not_isRoot_iff {n : Node} :
    ¬IsRoot edges n ↔ n.isTrigger = false ∧ ∃ e ∈ edges, e.target = n.id := by
  simp [IsRoot]

theorem mem_roots : id ∈ roots nodes edges ↔ ∃ n ∈ nodes, IsRoot edges n ∧ n.id = id := by
  simp [roots, IsRoot, and_assoc]

theorem roots_eq_nil_iff : roots nodes edges = [] ↔ ∀ n ∈ nodes, ¬IsRoot edges n := by
  constructor
  · intro h n hn hroot
    exact List.not_mem_nil (h ▸ mem_roots.2 ⟨n, hn, hroot, rfl⟩)
  · intro h
    refine List.eq_nil_iff_forall_not_mem.2 fun id hid => ?_
    obtain ⟨n, hn, hroot, -⟩ := mem_roots.1 hid
    exact h n hn hroot

theorem Reachable.mem_nodeIds (h : Reachable nodes edges id) : id ∈ nodeIds nodes := by
  obtain ⟨n, hn, -, hpath⟩ := h
  cases hpath with
  | refl => exact List.mem_map_of_mem hn
  | tail _ hlink => exact hlink.2.1

theorem Joined.mono {more : List Edge} {target : String} (h : edges ⊆ more)
    (hjoined : Joined edges id target) : Joined more id target := by
  obtain ⟨e, he, hends⟩ := hjoined
  exact ⟨e, h he, hends⟩

theorem Reachable.link {target : String} (h : Reachable nodes edges id)
    (hlink : Link nodes edges id target) : Reachable nodes edges target := by
  obtain ⟨n, hn, hroot, hpath⟩ := h
  exact ⟨n, hn, hroot, hpath.tail hlink⟩

/-- With more edges no less is reachable, as long as the former roots are. -/
theorem Reachable.mono {more : List Edge} (h : edges ⊆ more)
    (hroots : ∀ n ∈ nodes, IsRoot edges n → Reachable nodes more n.id)
    (hid : Reachable nodes edges id) : Reachable nodes more id := by
  obtain ⟨n, hn, hroot, hpath⟩ := hid
  induction hpath with
  | refl => exact hroots n hn hroot
  | tail _ hlink ih => exact ih.link ⟨hlink.1, hlink.2.1, hlink.2.2.mono h⟩

end

namespace Walk

variable {steps : List Step} {walk : Walk} {id : String} {stack : List String}

/-- What a walk keeps: no step is passed twice, the steps passed are the ones that belong to the ids
met, and every target of an id met is met or on the stack. -/
structure Tidy (steps : List Step) (walk : Walk) (stack : List String) : Prop where
  nodup : (walk.passed.map (·.id)).Nodup
  mem_passed : ∀ s, s ∈ walk.passed ↔ s.id ∈ walk.visited ∧ stepById? steps s.id = some s
  pending : ∀ a ∈ walk.visited, ∀ target ∈ targetsOf steps a,
    target ∈ walk.visited ∨ target ∈ stack

theorem Tidy.start (steps : List Step) (stack : List String) : Tidy steps {} stack where
  nodup := List.nodup_nil
  mem_passed := by simp
  pending := by simp

theorem Tidy.drop (h : Tidy steps walk (id :: stack)) (hid : id ∈ walk.visited) :
    Tidy steps walk stack where
  nodup := h.nodup
  mem_passed := h.mem_passed
  pending := by
    intro a ha target htarget
    rcases h.pending a ha target htarget with hmet | hstack
    · exact .inl hmet
    · rcases List.mem_cons.1 hstack with rfl | hstack
      · exact .inl hid
      · exact .inr hstack

theorem Tidy.enter (h : Tidy steps walk (id :: stack)) (hid : id ∉ walk.visited) :
    Tidy steps (walk.enter steps id) (walk.unmet steps id ++ stack) where
  nodup := by
    have hfresh : ∀ s ∈ walk.passed, s.id ≠ id := fun s hs he =>
      hid (he ▸ ((h.mem_passed s).1 hs).1)
    cases hs : stepById? steps id with
    | none => simpa [Walk.enter, hs] using h.nodup
    | some s =>
      obtain ⟨-, rfl⟩ := stepById?_mem hs
      simpa [Walk.enter, hs, List.nodup_append] using ⟨h.nodup, hfresh⟩
  mem_passed := by
    intro s
    simp only [Walk.enter, List.mem_append, Option.mem_toList, List.mem_cons, h.mem_passed]
    constructor
    · rintro (⟨hmet, hs⟩ | hs)
      · exact ⟨.inr hmet, hs⟩
      · obtain ⟨-, rfl⟩ := stepById?_mem hs
        exact ⟨.inl rfl, hs⟩
    · rintro ⟨rfl | hmet, hs⟩
      · exact .inr hs
      · exact .inl ⟨hmet, hs⟩
  pending := by
    intro a ha target htarget
    by_cases hmet : target ∈ id :: walk.visited
    · exact .inl hmet
    · refine .inr (List.mem_append.2 ?_)
      rcases List.mem_cons.1 ha with rfl | ha
      · exact .inl (List.mem_filter.2 ⟨htarget, by simpa using hmet⟩)
      · rcases h.pending a ha target htarget with hold | hstack
        · exact absurd (List.mem_cons_of_mem _ hold) hmet
        · rcases List.mem_cons.1 hstack with rfl | hstack
          · exact absurd List.mem_cons_self hmet
          · exact .inr hstack

theorem Tidy.explore (h : Tidy steps walk stack) : Tidy steps (walk.explore steps stack) [] :=
  explore_induction (motive := Tidy steps) (fun _ _ _ hid h => h.drop hid)
    (fun _ _ _ hid h => h.enter hid) h

/-- A walk stays among the ids with a property if all targets of such ids have it. -/
theorem of_mem_visited_explore {P : String → Prop}
    (closed : ∀ a, P a → ∀ target ∈ targetsOf steps a, P target)
    (hvisited : ∀ a ∈ walk.visited, P a) (hstack : ∀ a ∈ stack, P a) :
    ∀ a ∈ (walk.explore steps stack).visited, P a := by
  have h : (∀ a ∈ (walk.explore steps stack).visited, P a) ∧ ∀ a ∈ ([] : List String), P a := by
    refine explore_induction (motive := fun w rest => (∀ a ∈ w.visited, P a) ∧ ∀ a ∈ rest, P a)
      ?_ ?_ ⟨hvisited, hstack⟩
    · intro w id rest _ ⟨hw, hrest⟩
      exact ⟨hw, fun a ha => hrest a (List.mem_cons_of_mem _ ha)⟩
    · intro w id rest _ ⟨hw, hrest⟩
      have hid := hrest id List.mem_cons_self
      constructor
      · intro a ha
        rcases List.mem_cons.1 ha with rfl | ha
        · exact hid
        · exact hw a ha
      · intro a ha
        rcases List.mem_append.1 ha with ha | ha
        · exact closed id hid a (List.mem_filter.1 ha).1
        · exact hrest a (List.mem_cons_of_mem _ ha)
  exact h.1

end Walk

section

variable {nodes : List Node} {edges : List Edge} {id : String} {plan : Plan}

theorem reachable_of_mem_visited
    (hid : id ∈ (Walk.explore (resolve nodes edges) {} (roots nodes edges)).visited)
    (hnode : id ∈ nodeIds nodes) : Reachable nodes edges id := by
  -- a dangling target is met too, so being reachable is kept for ids of nodes only
  refine Walk.of_mem_visited_explore (P := fun a => a ∈ nodeIds nodes → Reachable nodes edges a)
    ?_ (by simp) ?_ id hid hnode
  · intro a ha target htarget hnode
    obtain ⟨hsource, hjoined⟩ := mem_targetsOf_resolve.1 htarget
    exact (ha hsource).link ⟨hsource, hnode, hjoined⟩
  · intro a ha _
    obtain ⟨n, hn, hroot, rfl⟩ := mem_roots.1 ha
    exact ⟨n, hn, hroot, .refl⟩

theorem mem_visited_of_reachable (h : Reachable nodes edges id) :
    id ∈ (Walk.explore (resolve nodes edges) {} (roots nodes edges)).visited := by
  obtain ⟨n, hn, hroot, hpath⟩ := h
  have htidy : Walk.Tidy _ (Walk.explore (resolve nodes edges) {} (roots nodes edges)) [] :=
    (Walk.Tidy.start _ _).explore
  induction hpath with
  | refl => exact Walk.stack_subset_explore (mem_roots.2 ⟨n, hn, hroot, rfl⟩)
  | tail _ hlink ih =>
    have htarget := mem_targetsOf_resolve.2 ⟨hlink.1, hlink.2.2⟩
    simpa using htidy.pending _ ih _ htarget

/-- A plan holds exactly what can be reached from a root. -/
theorem mem_ids_iff_reachable (h : linearize nodes edges = .ok plan) :
    id ∈ plan.ids ↔ Reachable nodes edges id := by
  obtain ⟨-, hsteps⟩ := linearize_eq_ok_iff.1 h
  have htidy : Walk.Tidy _ (Walk.explore (resolve nodes edges) {} (roots nodes edges)) [] :=
    (Walk.Tidy.start _ _).explore
  rw [Plan.ids, hsteps, List.mem_map]
  constructor
  · rintro ⟨s, hs, rfl⟩
    obtain ⟨hmet, hstep⟩ := (htidy.mem_passed s).1 hs
    exact reachable_of_mem_visited hmet
      (id_mem_nodeIds_of_mem_resolve (stepById?_mem hstep).1)
  · intro hreach
    have hmet := mem_visited_of_reachable hreach
    obtain ⟨s, hs, rfl⟩ := exists_stepById?_resolve edges hreach.mem_nodeIds
    exact ⟨s, (htidy.mem_passed s).2 ⟨hmet, hs⟩, rfl⟩

/-- No step is planned twice. -/
theorem nodup_ids (h : linearize nodes edges = .ok plan) : plan.ids.Nodup := by
  obtain ⟨-, hsteps⟩ := linearize_eq_ok_iff.1 h
  rw [Plan.ids, hsteps]
  exact (Walk.Tidy.start (resolve nodes edges) (roots nodes edges)).explore.nodup

theorem mem_resolve_of_mem_plan (h : linearize nodes edges = .ok plan) {s : Step}
    (hs : s ∈ plan.steps) : s ∈ resolve nodes edges := by
  obtain ⟨-, hsteps⟩ := linearize_eq_ok_iff.1 h
  have htidy : Walk.Tidy _ (Walk.explore (resolve nodes edges) {} (roots nodes edges)) [] :=
    (Walk.Tidy.start _ _).explore
  rw [hsteps] at hs
  exact (stepById?_mem ((htidy.mem_passed s).1 hs).2).1

/-- If the ids of nodes are distinct, the step of a planned id is the one that is planned. -/
theorem mem_plan_of_mem_resolve (h : linearize nodes edges = .ok plan)
    (hnodup : (nodeIds nodes).Nodup) {s : Step} (hs : s ∈ resolve nodes edges)
    (hid : s.id ∈ plan.ids) : s ∈ plan.steps := by
  obtain ⟨planned, hplanned, heq⟩ := List.mem_map.1 hid
  have hdistinct : ((resolve nodes edges).map (·.id)).Nodup := by rwa [map_id_resolve]
  have hsame := List.inj_on_of_nodup_map hdistinct (mem_resolve_of_mem_plan h hplanned) hs heq
  exact hsame ▸ hplanned

theorem exists_plan (h : ∃ n ∈ nodes, IsRoot edges n) :
    ∃ plan, linearize nodes edges = .ok plan ∧ plan.steps ≠ [] := by
  obtain ⟨n, hn, hroot⟩ := h
  have hroots : roots nodes edges ≠ [] := fun hnil => roots_eq_nil_iff.1 hnil n hn hroot
  have hplan := linearize_of_roots_ne_nil hroots
  refine ⟨_, hplan, fun hnil => ?_⟩
  have hmem := (mem_ids_iff_reachable hplan).2 ⟨n, hn, hroot, .refl⟩
  rw [Plan.ids, hnil] at hmem
  exact List.not_mem_nil hmem

theorem exists_plan_iff :
    (∃ plan, linearize nodes edges = .ok plan) ↔ ∃ n ∈ nodes, IsRoot edges n := by
  constructor
  · rintro ⟨plan, hplan⟩
    by_contra hno
    have hnil := roots_eq_nil_iff.2 fun n hn hroot => hno ⟨n, hn, hroot⟩
    exact (linearize_eq_ok_iff.1 hplan).1 hnil
  · intro h
    obtain ⟨plan, hplan, -⟩ := exists_plan h
    exact ⟨plan, hplan⟩

theorem linearize_eq_emptyGraph_iff :
    linearize nodes edges = .error .emptyGraph ↔ nodes = [] := by
  by_cases hn : nodes = []
  · subst hn
    simp [linearize_nil]
  · by_cases hroots : roots nodes edges = []
    · simp [linearize_of_roots_eq_nil hn hroots, hn]
    · simp [linearize_of_roots_ne_nil hroots, hn]

theorem linearize_eq_noRoot_iff {count : Nat} :
    linearize nodes edges = .error (.noRoot count) ↔
      nodes ≠ [] ∧ count = nodes.length ∧ ∀ n ∈ nodes, ¬IsRoot edges n := by
  by_cases hn : nodes = []
  · subst hn
    simp [linearize_nil]
  · rw [← roots_eq_nil_iff]
    by_cases hroots : roots nodes edges = []
    · simp [linearize_of_roots_eq_nil hn hroots, hn, hroots, eq_comm]
    · simp [linearize_of_roots_ne_nil hroots, hroots]

end

/-- A graph without nodes has no plan, nor has one in which every node is the target of an edge and
no trigger; any other graph has a plan, of all that can be reached from a root, each step once and
with all its successors. -/
theorem linearize_reachable (nodes : List Node) (edges : List Edge) :
    (linearize nodes edges = .error .emptyGraph ↔ nodes = []) ∧
    (∀ count, linearize nodes edges = .error (.noRoot count) ↔ nodes ≠ [] ∧
      count = nodes.length ∧
      ∀ n ∈ nodes, n.isTrigger = false ∧ ∃ e ∈ edges, e.target = n.id) ∧
    (nodes = [] ∨ (∀ n ∈ nodes, n.isTrigger = false ∧ ∃ e ∈ edges, e.target = n.id) ∨
      ∃ plan, linearize nodes edges = .ok plan ∧ plan.steps ≠ [] ∧ plan.ids.Nodup ∧
        (∀ id, id ∈ plan.ids ↔ Reachable nodes edges id) ∧
        ∀ s ∈ plan.steps, s ∈ resolve nodes edges ∧
          s.next.targets = targetsFrom edges s.id) := by
  simp only [← not_isRoot_iff]
  refine ⟨linearize_eq_emptyGraph_iff, fun count => linearize_eq_noRoot_iff, ?_⟩
  by_cases hroot : ∃ n ∈ nodes, IsRoot edges n
  · obtain ⟨plan, hplan, hne⟩ := exists_plan hroot
    refine .inr (.inr ⟨plan, hplan, hne, nodup_ids hplan, ?_, ?_⟩)
    · exact fun id => mem_ids_iff_reachable hplan
    · intro s hs
      have hmem := mem_resolve_of_mem_plan hplan hs
      exact ⟨hmem, targets_of_mem_resolve hmem⟩
  · refine .inr (.inl fun n hn hn' => hroot ⟨n, hn, hn'⟩)

end StepFlow
