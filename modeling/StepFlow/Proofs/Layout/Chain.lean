import Mathlib.Data.List.Nodup
import StepFlow.Proofs.Layout.Gaps
import StepFlow.Proofs.Plan.Resolve

/-!
# The chain of the layout

Every node but the topmost one stands right below another one. So the edges of the chain enter each
node but the topmost one, and if the ids of the nodes are distinct, no two of them enter the same.

## Main statements

* `forall_mem_of_neighbours`: induction from neighbour to neighbour.
* `map_target_layoutEdges`: the nodes that the chain enters.
* `mem_sequentialChain`: no edge is lost when repeated ones are dropped.
* `layoutEdges_inj`: with distinct ids one edge enters a node at most.
-/

namespace StepFlow

theorem map_snd_neighbours {α : Type} (l : List α) : (neighbours l).map Prod.snd = l.tail := by
  induction l with
  | nil => rfl
  | cons a l ih =>
    cases l with
    | nil => rfl
    | cons b rest => rw [neighbours, List.map_cons, ih, List.tail_cons, List.tail_cons]

/-- What holds of the first member and is handed on from neighbour to neighbour holds of all. -/
theorem forall_mem_of_neighbours {α : Type} {P : α → Prop} {l : List α}
    (first : ∀ a, l.head? = some a → P a) (next : ∀ a b, (a, b) ∈ neighbours l → P a → P b) :
    ∀ a ∈ l, P a := by
  induction l with
  | nil => exact fun a ha => absurd ha List.not_mem_nil
  | cons a l ih =>
    have ha : P a := first a rfl
    cases l with
    | nil => exact List.forall_mem_singleton.2 ha
    | cons b rest =>
      refine List.forall_mem_cons.2 ⟨ha, ih ?_ fun c d hpair => next c d ?_⟩
      · rintro c ⟨⟩
        exact next a b List.mem_cons_self ha
      · exact List.mem_cons_of_mem _ hpair

/-- Nodes that stand in order already keep it. -/
theorem layoutOrder_of_level {nodes : List Node}
    (h : nodes.Pairwise fun a b => a.position.height ≤ b.position.height) :
    layoutOrder nodes = nodes :=
  List.mergeSort_of_pairwise (h.imp decide_eq_true)

/-- An edge that orders two nodes is known by its ends. -/
theorem eq_of_sameEnds {e e' : Edge} (h : e = .sequential e.source e.target)
    (h' : e' = .sequential e'.source e'.target) (hends : e.sameEnds e') : e = e' := by
  obtain ⟨hsource, htarget⟩ := Prod.mk.inj (of_decide_eq_true hends)
  rw [h, h', hsource, htarget]

section

variable {nodes : List Node} {e e' : Edge}

theorem eq_sequential_of_mem_layoutEdges (h : e ∈ layoutEdges nodes) :
    e = .sequential e.source e.target := by
  obtain ⟨a, -, b, -, rfl⟩ := mem_layoutEdges h
  rfl

/-- Edges are appended as newcomers whose ends are not joined yet. -/
theorem foldl_addUnjoined (edges extra : List Edge) :
    extra.foldl addUnjoined edges = edges ++ newcomers Edge.sameEnds edges extra := by
  induction extra generalizing edges with
  | nil => rw [List.foldl_nil, newcomers, List.append_nil]
  | cons e extra ih =>
    rw [List.foldl_cons, ih, addUnjoined, newcomers]
    split
    · rfl
    · rw [List.append_assoc, List.singleton_append]

theorem sequentialChain_eq (nodes : List Node) :
    sequentialChain nodes = newcomers Edge.sameEnds [] (layoutEdges nodes) := by
  rw [sequentialChain, foldl_addUnjoined, List.nil_append]

theorem mem_sequentialChain : e ∈ sequentialChain nodes ↔ e ∈ layoutEdges nodes := by
  rw [sequentialChain_eq]
  constructor
  · exact mem_of_mem_newcomers
  · -- an edge that is dropped is there already
    intro h
    have hrefl : ∀ e : Edge, e.sameEnds e = true := fun e => decide_eq_true rfl
    obtain ⟨known, hknown, hends⟩ := @exists_clash Edge Edge.sameEnds [] _ e hrefl h
    rw [List.nil_append] at hknown
    have hsame := eq_of_sameEnds (eq_sequential_of_mem_layoutEdges (mem_of_mem_newcomers hknown))
      (eq_sequential_of_mem_layoutEdges h) hends
    exact hsame ▸ hknown

theorem map_target_layoutEdges (nodes : List Node) :
    (layoutEdges nodes).map (·.target) = nodeIds (layoutOrder nodes).tail := by
  rw [layoutEdges, List.map_map, nodeIds, ← map_snd_neighbours, List.map_map]
  rfl

theorem nodup_layoutOrder (h : (nodeIds nodes).Nodup) : (nodeIds (layoutOrder nodes)).Nodup :=
  ((List.mergeSort_perm nodes _).map _).nodup_iff.2 h

theorem layoutEdges_inj (hnodup : (nodeIds nodes).Nodup) (he : e ∈ layoutEdges nodes)
    (he' : e' ∈ layoutEdges nodes) (h : e.target = e'.target) : e = e' := by
  have htargets : ((layoutEdges nodes).map (·.target)).Nodup := by
    rw [map_target_layoutEdges]
    exact ((List.tail_sublist _).map _).nodup (nodup_layoutOrder hnodup)
  exact List.inj_on_of_nodup_map htargets he he' h

/-- The chain enters each node but the topmost one. -/
theorem exists_layoutEdge {n : Node} (hn : n ∈ nodes) (h : (layoutOrder nodes).head? ≠ some n) :
    ∃ e ∈ layoutEdges nodes, e.target = n.id := by
  have hbelow : n ∈ (layoutOrder nodes).tail := by
    have hn := mem_layoutOrder.2 hn
    cases horder : layoutOrder nodes with
    | nil =>
      rw [horder] at hn
      cases hn
    | cons top rest =>
      rw [horder] at hn h
      rcases List.mem_cons.1 hn with rfl | hn
      · exact (h rfl).elim
      · exact hn
  have hmem : n.id ∈ (layoutEdges nodes).map (·.target) := by
    rw [map_target_layoutEdges]
    exact List.mem_map_of_mem hbelow
  exact List.mem_map.1 hmem

/-- The chain does not enter the topmost node. -/
theorem target_ne_top {top : Node} (hnodup : (nodeIds nodes).Nodup)
    (htop : (layoutOrder nodes).head? = some top) (he : e ∈ layoutEdges nodes) :
    e.target ≠ top.id := by
  intro htarget
  obtain ⟨rest, horder⟩ := List.head?_eq_some_iff.1 htop
  have hnodup := nodup_layoutOrder hnodup
  have hmem : e.target ∈ (layoutEdges nodes).map (·.target) := List.mem_map_of_mem he
  rw [map_target_layoutEdges, htarget, horder] at hmem
  rw [horder] at hnodup
  exact (List.nodup_cons.1 hnodup).1 hmem

end

end StepFlow
