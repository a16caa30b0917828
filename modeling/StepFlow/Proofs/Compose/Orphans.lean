import Mathlib.Data.List.Induction
import StepFlow.Proofs.Plan.Resolve
import StepFlow.Store.Command

/-!
# What removing leaves of nested compositions

A node that was composed remembers under which node. Removing a composition takes out its nodes but
not what was composed under these, and removing a node takes out nothing that was composed under it.
So what is nested deeper may be left without the node that it remembers. Nothing is left so when
compositions are removed from the inside out.

## Main definitions

* `Graph.IsOrphan`: a node that was composed under a node that is not there.
* `Graph.Parented`: a graph without such nodes.
* `Graph.InsideOut`: an order in which inner compositions come first.

## Main statements

* `Store.isOrphan_removeSubflow_iff`, `Store.isOrphan_removeNode_iff`: who is left behind.
* `Store.parented_removeSubflows`: removing from the inside out.
* `orphans_of_removal`: all of it in one statement.
-/

namespace StepFlow

namespace Graph

/-- Whether a node of the graph was composed under a node that is not there. -/
def IsOrphan (g : Graph) (n : Node) : Prop :=
  n ∈ g.nodes ∧ ∃ q, n.parent = some q ∧ q ∉ nodeIds g.nodes

/-- Whether each node that was composed under some node has that one in the graph. -/
def Parented (g : Graph) : Prop :=
  ∀ n ∈ g.nodes, ∀ q ∈ n.parent, q ∈ nodeIds g.nodes

instance (g : Graph) : Decidable g.Parented :=
  inferInstanceAs (Decidable (∀ n ∈ g.nodes, ∀ q ∈ n.parent, q ∈ nodeIds g.nodes))

/-- Whether nodes are listed so that their compositions can be removed from the inside out: the
copies under which something was composed come before the node under which they were. -/
def InsideOut (g : Graph) (parents : List String) : Prop :=
  ∀ before p after, parents = before ++ p :: after → ∀ m ∈ g.nodes, m.parent = some p →
    ∀ n ∈ g.nodes, n.parent = some m.id → m.id ∈ before

theorem parented_iff {g : Graph} : g.Parented ↔ ∀ n, ¬g.IsOrphan n := by
  constructor
  · rintro h n ⟨hn, q, hq, hout⟩
    exact hout (h n hn q hq)
  · intro h n hn q hq
    by_contra hout
    exact h n ⟨hn, q, hq, hout⟩

end Graph

namespace Store

variable {s s' : Store} {p id : String} {n removed : Node}

theorem mem_subflowIds :
    id ∈ s.subflowIds p ↔ ∃ m ∈ s.graph.nodes, m.parent = some p ∧ m.id = id := by
  simp [subflowIds, Node.isUnder, and_assoc]

theorem mem_nodes_removeSubflow :
    n ∈ (s.removeSubflow p).2.graph.nodes ↔ n ∈ s.graph.nodes ∧ n.id ∉ s.subflowIds p := by
  simp [removeSubflow]

theorem mem_nodeIds_removeSubflow :
    id ∈ nodeIds (s.removeSubflow p).2.graph.nodes ↔
      id ∈ nodeIds s.graph.nodes ∧ id ∉ s.subflowIds p := by
  constructor
  · intro h
    obtain ⟨m, hm, rfl⟩ := List.mem_map.1 h
    obtain ⟨hold, hkept⟩ := mem_nodes_removeSubflow.1 hm
    exact ⟨List.mem_map_of_mem hold, hkept⟩
  · rintro ⟨hid, hkept⟩
    obtain ⟨m, hm, rfl⟩ := List.mem_map.1 hid
    exact List.mem_map_of_mem (mem_nodes_removeSubflow.2 ⟨hm, hkept⟩)

/-- Removing a composition leaves behind what was composed under its nodes. -/
theorem isOrphan_removeSubflow_iff (h : s.graph.Parented) :
    (s.removeSubflow p).2.graph.IsOrphan n ↔ n ∈ (s.removeSubflow p).2.graph.nodes ∧
      ∃ m ∈ s.graph.nodes, m.parent = some p ∧ n.parent = some m.id := by
  refine and_congr_right fun hn => ?_
  have hold : n ∈ s.graph.nodes := (mem_nodes_removeSubflow.1 hn).1
  constructor
  · rintro ⟨q, hq, hout⟩
    have hgone : q ∈ s.subflowIds p := by
      by_contra hkept
      exact hout (mem_nodeIds_removeSubflow.2 ⟨h n hold q hq, hkept⟩)
    obtain ⟨m, hm, hparent, rfl⟩ := mem_subflowIds.1 hgone
    exact ⟨m, hm, hparent, hq⟩
  · rintro ⟨m, hm, hparent, hq⟩
    refine ⟨m.id, hq, fun hid => ?_⟩
    exact (mem_nodeIds_removeSubflow.1 hid).2 (mem_subflowIds.2 ⟨m, hm, hparent, rfl⟩)

theorem nodes_removeNode (h : s.removeNode p = .ok (removed, s')) :
    s'.graph.nodes = s.graph.nodes.eraseP fun m => m.id = p := by
  unfold removeNode at h
  split at h <;> cases h
  rfl

theorem mem_nodeIds_eraseP {nodes : List Node} (hid : id ∈ nodeIds nodes) (hne : id ≠ p) :
    id ∈ nodeIds (nodes.eraseP fun m => m.id = p) := by
  obtain ⟨m, hm, rfl⟩ := List.mem_map.1 hid
  exact List.mem_map_of_mem ((List.mem_eraseP_of_neg (by simpa using hne)).2 hm)

/-- Removing a node leaves behind what was composed under it. -/
theorem isOrphan_removeNode_iff (h : s.graph.Parented)
    (hremoved : s.removeNode p = .ok (removed, s')) :
    s'.graph.IsOrphan n ↔
      n ∈ s'.graph.nodes ∧ n.parent = some p ∧ p ∉ nodeIds s'.graph.nodes := by
  refine and_congr_right fun hn => ?_
  rw [nodes_removeNode hremoved] at hn ⊢
  have hold : n ∈ s.graph.nodes := List.mem_of_mem_eraseP hn
  constructor
  · rintro ⟨q, hq, hout⟩
    -- just one node was taken out, so only its id can be missing
    have hqp : q = p := by
      by_contra hne
      exact hout (mem_nodeIds_eraseP (h n hold q hq) hne)
    subst hqp
    exact ⟨hq, hout⟩
  · rintro ⟨hq, hout⟩
    exact ⟨p, hq, hout⟩

/-- Removing compositions from the inside out leaves no one behind, nor any of the copies. -/
theorem parented_removeSubflows (h : s.graph.Parented) {parents : List String}
    (hinside : s.graph.InsideOut parents) (before after : List String)
    (hsplit : parents = before ++ after) :
    let left := (s.editAll (before.map .removeSubflow)).graph
    left.Parented ∧ left.nodes ⊆ s.graph.nodes ∧
      ∀ n ∈ left.nodes, ∀ p ∈ before, n.parent ≠ some p := by
  induction before using List.reverseRecOn generalizing after with
  | nil => exact ⟨h, List.Subset.refl _, fun _ _ _ hp => absurd hp List.not_mem_nil⟩
  | append_singleton before p ih =>
    rw [List.append_assoc, List.singleton_append] at hsplit
    obtain ⟨hparented, hsub, hgone⟩ := ih (p :: after) hsplit
    intro left
    have hstep : left = ((s.editAll (before.map .removeSubflow)).removeSubflow p).2.graph := by
      simp only [left, editAll, List.map_append, List.foldl_append]
      rfl
    have hleft : ∀ n ∈ left.nodes, n ∈ (s.editAll (before.map .removeSubflow)).graph.nodes ∧
        n.id ∉ (s.editAll (before.map .removeSubflow)).subflowIds p := by
      rw [hstep]
      exact fun n hn => mem_nodes_removeSubflow.1 hn
    refine ⟨?_, fun n hn => hsub (hleft n hn).1, ?_⟩
    · rw [hstep, Graph.parented_iff]
      intro n horphan
      obtain ⟨hn, m, hm, hparent, hnm⟩ := (isOrphan_removeSubflow_iff hparented).1 horphan
      have hnold := (mem_nodes_removeSubflow.1 hn).1
      -- what was composed under the copy was removed before
      have hbefore := hinside before p after hsplit m (hsub hm) hparent n (hsub hnold) hnm
      exact hgone n hnold m.id hbefore hnm
    · intro n hn q hq hparent
      obtain ⟨hnold, hkept⟩ := hleft n hn
      rcases List.mem_append.1 hq with hq | hq
      · exact hgone n hnold q hq hparent
      · obtain rfl := List.mem_singleton.1 hq
        exact hkept (mem_subflowIds.2 ⟨n, hnold, hparent, rfl⟩)

end Store

/-- A graph in which each node that was composed has its parent. Removing what was composed under a
node leaves exactly those nodes without their parent that were composed under one of the removed
nodes, and removing a node exactly those that were composed under it, unless another node has its
id. Removing compositions from the inside out leaves each node its parent, and no copy is left. -/
theorem orphans_of_removal (s : Store) (p : String) (h : s.graph.Parented) :
    (∀ n, (s.removeSubflow p).2.graph.IsOrphan n ↔ n ∈ (s.removeSubflow p).2.graph.nodes ∧
      ∃ m ∈ s.graph.nodes, m.parent = some p ∧ n.parent = some m.id) ∧
    (∀ removed s', s.removeNode p = .ok (removed, s') → ∀ n, s'.graph.IsOrphan n ↔
      n ∈ s'.graph.nodes ∧ n.parent = some p ∧ p ∉ nodeIds s'.graph.nodes) ∧
    ∀ parents, s.graph.InsideOut parents →
      let left := (s.editAll (parents.map .removeSubflow)).graph
      left.Parented ∧ ∀ n ∈ left.nodes, ∀ q ∈ parents, n.parent ≠ some q := by
  refine ⟨fun n => s.isOrphan_removeSubflow_iff h, ?_, ?_⟩
  · intro removed s' hremoved n
    exact s.isOrphan_removeNode_iff h hremoved
  · intro parents hinside
    obtain ⟨hparented, -, hgone⟩ :=
      s.parented_removeSubflows h hinside parents [] (List.append_nil parents).symm
    exact ⟨hparented, hgone⟩

/-- A composition within a composition, removed from the inside out. -/
theorem orphans_of_removal_nested :
    let s : Store := .ofGraph ⟨[{ id := "p" }, { id := "p__a", parent := some "p" },
      { id := "p__a__b", parent := some "p__a" }],
      [⟨"1", "p", "p__a", none⟩, ⟨"2", "p__a", "p__a__b", none⟩]⟩
    s.graph.Parented ∧ s.graph.InsideOut ["p__a", "p"] ∧
      (s.removeSubflow "p").2.graph.IsOrphan { id := "p__a__b", parent := some "p__a" } ∧
      (s.editAll (["p__a", "p"].map .removeSubflow)).graph.Parented := by
  intro s
  have hparented : s.graph.Parented := by decide
  have hinside : s.graph.InsideOut ["p__a", "p"] := by
    intro before q after hsplit m hm hparent n hn hnm
    rcases before with - | ⟨first, before⟩
    · -- nothing was composed under the copy of the first composition
      obtain ⟨rfl, -⟩ := List.cons.inj hsplit
      revert m n
      decide
    · obtain ⟨rfl, -⟩ := List.cons.inj hsplit
      have hinner : ∀ m ∈ s.graph.nodes, ∀ n ∈ s.graph.nodes, m.parent.isSome →
          n.parent = some m.id → m.id = "p__a" := by
        decide
      rw [hinner m hm n hn (by simp [hparent]) hnm]
      exact List.mem_cons_self
  obtain ⟨hsubflow, -, hall⟩ := orphans_of_removal s "p" hparented
  refine ⟨hparented, hinside, (hsubflow _).2 ?_, (hall _ hinside).1⟩
  exact ⟨.tail _ (.head _), _, .tail _ (.head _), rfl, rfl⟩

/-- A composition within a composition is not removed along with the outer one, nor are the copies
with the node under which they are. -/
theorem orphans_of_outer_composition :
    let s : Store := .ofGraph ⟨[{ id := "p" }, { id := "p__a", parent := some "p" },
      { id := "p__a__b", parent := some "p__a" }],
      [⟨"1", "p", "p__a", none⟩, ⟨"2", "p__a", "p__a__b", none⟩]⟩
    s.graph.Parented ∧ ¬(s.removeSubflow "p").2.graph.Parented ∧
      ∃ removed s', s.removeNode "p" = .ok (removed, s') ∧ ¬s'.graph.Parented := by
  refine ⟨by decide, by decide, _, _, rfl, by decide⟩

end StepFlow
