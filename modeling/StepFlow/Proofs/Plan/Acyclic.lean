import Mathlib.Data.Fintype.Card
import Mathlib.Data.Set.Finite.Basic
import Mathlib.Order.WellFounded
import StepFlow.Proofs.Plan.Reachable
import StepFlow.Proofs.Plan.Rounds

/-!
# What plans leave out

When every edge leaves a node, a node can only be missing from the plan because of a cycle: walking
back along the edges from a node that was left out meets only nodes that were left out, and as there
are finitely many of them it comes round to one again. So a plan of a graph without cycles misses
nothing.

## Main definitions

* `plannedIds`: the ids of a plan; none if there is no plan.
* `Bypassed`: an edge between two nodes that were left out.

## Main statements

* `leftOut_behind_cycle`: what is left out stands behind a cycle.
-/

namespace StepFlow

open Relation (ReflTransGen TransGen)

/-- If each of finitely many elements has a predecessor among them, each stands behind a cycle. -/
theorem exists_cycle_of_predecessors {α : Type*} {R : α → α → Prop} {l : List α}
    (hpred : ∀ b ∈ l, ∃ a ∈ l, R a b) {b : α} (hb : b ∈ l) :
    ∃ c, TransGen R c c ∧ ReflTransGen R c b := by
  by_contra hno
  -- without a cycle before `b`, what comes before `b` is strictly ordered and has a first element
  let Before := {a : α // a ∈ l ∧ ReflTransGen R a b}
  let r : Before → Before → Prop := fun x y => TransGen R x.1 y.1
  have hfinite : Finite Before := (l.finite_toSet.subset fun a ha => ha.1 : Set.Finite _)
  have htrans : IsTrans Before r := ⟨fun _ _ _ hxy hyz => hxy.trans hyz⟩
  have hirrefl : Std.Irrefl r := ⟨fun x hx => hno ⟨x.1, hx, x.2.2⟩⟩
  obtain ⟨first, -, hfirst⟩ :=
    (Finite.wellFounded_of_trans_of_irrefl r).has_min Set.univ ⟨⟨b, hb, .refl⟩, trivial⟩
  obtain ⟨a, ha, hstep⟩ := hpred first.1 first.2.1
  exact hfirst ⟨a, ha, .head hstep first.2.2⟩ trivial (.single hstep)

/-- The ids of the plan; none if there is no plan. -/
def plannedIds (nodes : List Node) (edges : List Edge) : List String :=
  match linearize nodes edges with
  | .ok plan => plan.ids
  | .error _ => []

/-- Whether an edge runs between two nodes that were left out of the plan. -/
def Bypassed (nodes : List Node) (edges : List Edge) (source target : String) : Prop :=
  Link nodes edges source target ∧ source ∉ plannedIds nodes edges ∧
    target ∉ plannedIds nodes edges

variable {nodes : List Node} {edges : List Edge} {id : String}

theorem mem_plannedIds : id ∈ plannedIds nodes edges ↔ Reachable nodes edges id := by
  cases h : linearize nodes edges with
  | ok plan =>
    rw [plannedIds, h]
    exact mem_ids_iff_reachable h
  | error e =>
    simp only [plannedIds, h, List.not_mem_nil, false_iff]
    rintro ⟨n, hn, hroot, -⟩
    obtain ⟨plan, hplan, -⟩ := exists_plan ⟨n, hn, hroot⟩
    simp [h] at hplan

theorem not_isRoot_of_not_mem_plannedIds {n : Node} (hn : n ∈ nodes)
    (h : n.id ∉ plannedIds nodes edges) : ¬IsRoot edges n :=
  fun hroot => h (mem_plannedIds.2 ⟨n, hn, hroot, .refl⟩)

/-- A node that was left out is the target of an edge from another one. -/
theorem exists_bypassed (hsource : ∀ e ∈ edges, e.source ∈ nodeIds nodes)
    (hid : id ∈ nodeIds nodes) (h : id ∉ plannedIds nodes edges) :
    ∃ a, Bypassed nodes edges a id := by
  obtain ⟨n, hn, rfl⟩ := List.mem_map.1 hid
  obtain ⟨-, e, he, htarget⟩ := not_isRoot_iff.1 (not_isRoot_of_not_mem_plannedIds hn h)
  have hlink : Link nodes edges e.source n.id := ⟨hsource e he, hid, e, he, rfl, htarget⟩
  refine ⟨e.source, hlink, fun hplanned => h ?_, h⟩
  exact mem_plannedIds.2 ((mem_plannedIds.1 hplanned).link hlink)

theorem exists_bypassed_cycle (hsource : ∀ e ∈ edges, e.source ∈ nodeIds nodes)
    (hid : id ∈ nodeIds nodes) (h : id ∉ plannedIds nodes edges) :
    ∃ c, TransGen (Bypassed nodes edges) c c ∧ ReflTransGen (Bypassed nodes edges) c id := by
  let leftOut := (nodeIds nodes).filter fun a => a ∉ plannedIds nodes edges
  have hmem : ∀ {a}, a ∈ leftOut ↔ a ∈ nodeIds nodes ∧ a ∉ plannedIds nodes edges := by
    simp [leftOut]
  refine exists_cycle_of_predecessors (l := leftOut) ?_ (hmem.2 ⟨hid, h⟩)
  intro b hb
  obtain ⟨hnode, hout⟩ := hmem.1 hb
  obtain ⟨a, ha⟩ := exists_bypassed hsource hnode hout
  exact ⟨a, hmem.2 ⟨ha.1.1, ha.2.1⟩, ha⟩

theorem Bypassed.joined {source target : String} (h : Bypassed nodes edges source target) :
    Joined edges source target :=
  h.1.2.2

/-- Edges that ascend in the order of texts close no cycle. -/
theorem acyclic_of_ascending (h : ∀ e ∈ edges, e.source < e.target) (id : String) :
    ¬TransGen (Joined edges) id id := by
  have hlt : ∀ {a b}, TransGen (Joined edges) a b → a < b := by
    intro a b hab
    induction hab with
    | single hjoined =>
      obtain ⟨e, he, rfl, rfl⟩ := hjoined
      exact h e he
    | tail _ hjoined ih =>
      obtain ⟨e, he, rfl, rfl⟩ := hjoined
      exact String.lt_trans ih (h e he)
  exact fun hcycle => String.lt_irrefl id (hlt hcycle)

/-- A graph of nodes with different ids that has no cycle has a plan of all its nodes. -/
theorem exists_plan_of_acyclic (hsource : ∀ e ∈ edges, e.source ∈ nodeIds nodes)
    (hne : nodes ≠ []) (hnodup : (nodeIds nodes).Nodup)
    (hacyclic : ∀ id, ¬TransGen (Joined edges) id id) :
    ∃ plan, linearize nodes edges = .ok plan ∧ plan.ids.Perm (nodeIds nodes) := by
  have hall : ∀ id ∈ nodeIds nodes, Reachable nodes edges id := by
    intro id hid
    by_contra hreach
    obtain ⟨c, hcycle, -⟩ := exists_bypassed_cycle hsource hid (mt mem_plannedIds.1 hreach)
    exact hacyclic c (hcycle.lift (fun id => id) fun _ _ h => h.joined)
  obtain ⟨n, hn⟩ := List.exists_mem_of_ne_nil nodes hne
  obtain ⟨root, hroot, hisRoot, -⟩ := hall n.id (List.mem_map_of_mem hn)
  obtain ⟨plan, hplan, -⟩ := exists_plan ⟨root, hroot, hisRoot⟩
  refine ⟨plan, hplan, (List.perm_ext_iff_of_nodup (nodup_ids hplan) hnodup).2 fun id => ?_⟩
  rw [mem_ids_iff_reachable hplan]
  exact ⟨fun h => h.mem_nodeIds, hall id⟩

/-- When every edge leaves a node, every node that was left out is no trigger and lies on or behind
a cycle of nodes that were left out. A graph of nodes with different ids that has no cycle has a
plan of all its nodes. -/
theorem leftOut_behind_cycle (nodes : List Node) (edges : List Edge)
    (hsource : ∀ e ∈ edges, e.source ∈ nodeIds nodes) :
    (∀ n ∈ nodes, n.id ∉ plannedIds nodes edges → n.isTrigger = false ∧
      ∃ c, TransGen (Bypassed nodes edges) c c ∧
        ReflTransGen (Bypassed nodes edges) c n.id) ∧
    (nodes ≠ [] → (nodeIds nodes).Nodup → (∀ id, ¬TransGen (Joined edges) id id) →
      ∃ plan, linearize nodes edges = .ok plan ∧ plan.ids.Perm (nodeIds nodes)) := by
  constructor
  · intro n hn hout
    have hroot := not_isRoot_iff.1 (not_isRoot_of_not_mem_plannedIds hn hout)
    exact ⟨hroot.1, exists_bypassed_cycle hsource (List.mem_map_of_mem hn) hout⟩
  · intro hne hnodup hacyclic
    exact exists_plan_of_acyclic hsource hne hnodup hacyclic

/-- A node behind a cycle that no root leads to, and a graph in the shape of a diamond. -/
theorem leftOut_behind_cycle_of_small_graphs :
    let nodes : List Node := [{ id := "r" }, { id := "x" }, { id := "y" }, { id := "z" }]
    let edges : List Edge := [⟨"1", "x", "y", none⟩, ⟨"2", "y", "x", none⟩, ⟨"3", "y", "z", none⟩]
    let diamond : List Node := [{ id := "a" }, { id := "b" }, { id := "c" }, { id := "d" }]
    let sides : List Edge := [⟨"1", "a", "b", none⟩, ⟨"2", "a", "c", none⟩,
      ⟨"3", "b", "d", none⟩, ⟨"4", "c", "d", none⟩]
    plannedIds nodes edges = ["r"] ∧
      (∃ c, TransGen (Bypassed nodes edges) c c ∧
        ReflTransGen (Bypassed nodes edges) c "z") ∧
      ∃ plan, linearize diamond sides = .ok plan ∧ plan.ids.Perm ["a", "b", "c", "d"] := by
  intro nodes edges diamond sides
  have hplanned : plannedIds nodes edges = ["r"] := by
    rw [plannedIds, linearize_eq_of_iterate_round nodes edges (by decide) 2 rfl]
    rfl
  have hz : ({ id := "z" } : Node) ∈ nodes := by simp [nodes]
  have hout : "z" ∉ plannedIds nodes edges := by
    rw [hplanned]
    decide
  have hcyclic := leftOut_behind_cycle nodes edges (by decide)
  have hdiamond := leftOut_behind_cycle diamond sides (by decide)
  refine ⟨hplanned, (hcyclic.1 _ hz hout).2, ?_⟩
  exact hdiamond.2 (by simp [diamond]) (by decide) (acyclic_of_ascending (by decide))

end StepFlow
