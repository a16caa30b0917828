import StepFlow.Proofs.Layout.Unjoined

/-!
# A way forward

Filling gaps withholds an edge that is asked for only if its id or its ends are taken. The id of a
sequential edge tells which nodes it joins as long as the arrow does not occur in the ids of nodes.
If no edge has such an id and other ends, whatever took the place of an edge joins the same nodes.
So a node that lacks a connection is joined to the next one of the layout in any case.

## Main definitions

* `Edge.TrueToId`: an edge that joins the nodes that its id tells of.

## Main statements

* `Edge.TrueToId.fillGaps`: filling gaps keeps all edges true to their ids.
* `joined_of_mem_gapEdges`: what is asked for is there in the end, by whichever edge.
* `fillGaps_leads_on`: what that means for both modes.
-/

namespace StepFlow

theorem mem_neighbours_of_getElem? {α : Type} {l : List α} {i : Nat} {a b : α}
    (ha : l[i]? = some a) (hb : l[i + 1]? = some b) : (a, b) ∈ neighbours l := by
  induction l generalizing i with
  | nil => cases ha
  | cons c l ih =>
    cases l with
    | nil => cases hb
    | cons d rest =>
      cases i with
      | zero =>
        cases ha
        cases hb
        exact List.mem_cons_self
      | succ i => exact List.mem_cons_of_mem _ (ih ha hb)

/-- The id of a sequential edge tells both of its ends. -/
theorem sequentialId_inj {a b c d : String} (ha : '→' ∉ a.toList) (hc : '→' ∉ c.toList)
    (h : sequentialId a b = sequentialId c d) : a = c ∧ b = d := by
  obtain rfl := sequentialId_source ha hc h
  refine ⟨rfl, String.toList_inj.1 ?_⟩
  simpa [sequentialId] using congrArg String.toList h

/-- Whether an edge joins two nodes if its id is that of the sequential edge between them. -/
def Edge.TrueToId (e : Edge) (nodes : List Node) : Prop :=
  ∀ a ∈ nodes, ∀ b ∈ nodes, e.id = sequentialId a.id b.id → e.ends = (a.id, b.id)

instance (e : Edge) (nodes : List Node) : Decidable (e.TrueToId nodes) :=
  inferInstanceAs (Decidable (∀ a ∈ nodes, ∀ b ∈ nodes, e.id = sequentialId a.id b.id →
    e.ends = (a.id, b.id)))

section

variable {nodes : List Node} {edges : List Edge} {mode : GapMode} {e : Edge}

theorem trueToId_sequential (harrow : ∀ n ∈ nodes, '→' ∉ n.id.toList) {a b : Node}
    (ha : a ∈ nodes) : (Edge.sequential a.id b.id).TrueToId nodes := by
  intro c hc d _ hid
  obtain ⟨hsource, htarget⟩ := sequentialId_inj (harrow a ha) (harrow c hc) hid
  exact Prod.ext hsource htarget

theorem Edge.TrueToId.fillGaps (harrow : ∀ n ∈ nodes, '→' ∉ n.id.toList)
    (htrue : ∀ e ∈ edges, e.TrueToId nodes) (mode : GapMode) :
    ∀ e ∈ fillGaps nodes edges mode, e.TrueToId nodes := by
  intro e he
  rcases mem_fillGaps he with hgiven | ⟨a, ha, b, -, rfl⟩
  · exact htrue e hgiven
  · exact trueToId_sequential harrow ha

/-- An edge that was asked for is there, or one with which it clashes. Either joins its ends. -/
theorem joined_of_mem_gapEdges (harrow : ∀ n ∈ nodes, '→' ∉ n.id.toList)
    (htrue : ∀ e ∈ edges, e.TrueToId nodes) (h : e ∈ gapEdges nodes edges mode) :
    Joined (fillGaps nodes edges mode) e.source e.target := by
  obtain ⟨a, ha, b, hb, rfl⟩ := mem_layoutEdges (mem_gapEdges.1 h).1
  obtain ⟨known, hknown, hclash⟩ := exists_clash Edge.clashes_self h
  rw [← fillGaps_eq] at hknown
  have hends : known.ends = (a.id, b.id) := by
    rcases Edge.clashes_iff.1 hclash with hid | hends
    · exact Edge.TrueToId.fillGaps harrow htrue mode known hknown a ha b hb hid
    · exact hends
  obtain ⟨hsource, htarget⟩ := Prod.mk.inj hends
  exact ⟨known, hknown, hsource, htarget⟩

theorem joined_of_lacks (harrow : ∀ n ∈ nodes, '→' ∉ n.id.toList)
    (htrue : ∀ e ∈ edges, e.TrueToId nodes) {n next : Node}
    (hpair : (n, next) ∈ neighbours (layoutOrder nodes)) (hlacks : mode.lacks edges n.id = true) :
    Joined (fillGaps nodes edges mode) n.id next.id := by
  have hlayout : Edge.sequential n.id next.id ∈ layoutEdges nodes := List.mem_map_of_mem hpair
  exact joined_of_mem_gapEdges harrow htrue (mem_gapEdges.2 ⟨hlayout, hlacks⟩)

end

/-- Nothing is left without a way forward where the ids of nodes have no arrow and every edge that
has the id of the sequential edge between two nodes joins these two. In the order of the layout,
after gaps were filled for nodes without an edge of their own, an edge leaves each node but the
last. After they were filled for nodes that are no target, each node that no given edge enters, but
the last, has an edge to the next one. -/
theorem fillGaps_leads_on (nodes : List Node) (edges : List Edge)
    (harrow : ∀ n ∈ nodes, '→' ∉ n.id.toList) (htrue : ∀ e ∈ edges, e.TrueToId nodes) :
    let order := layoutOrder nodes
    IsLayout nodes order ∧
      (∀ i n, order[i]? = some n → i + 1 < nodes.length →
        ∃ e ∈ fillGaps nodes edges .missingOutgoing, e.source = n.id) ∧
      ∀ i n next, order[i]? = some n → order[i + 1]? = some next →
        (∀ e ∈ edges, e.target ≠ n.id) →
        ∃ e ∈ fillGaps nodes edges .untargetedOnly, e.source = n.id ∧ e.target = next.id := by
  intro order
  refine ⟨isLayout_layoutOrder nodes, ?_, ?_⟩
  · intro i n hn hbefore
    by_cases hlacks : GapMode.missingOutgoing.lacks edges n.id = true
    · have hlength : order.length = nodes.length := List.length_mergeSort _
      have hnext : order[i + 1]? = some order[i + 1] := List.getElem?_eq_getElem (hlength ▸ hbefore)
      obtain ⟨e, he, hsource, -⟩ :=
        joined_of_lacks harrow htrue (mem_neighbours_of_getElem? hn hnext) hlacks
      exact ⟨e, he, hsource⟩
    · obtain ⟨e, he, hsource⟩ := GapMode.not_lacks_missingOutgoing_iff.1 hlacks
      exact ⟨e, subset_fillGaps nodes edges _ he, hsource⟩
  · intro i n next hn hnext hfree
    exact joined_of_lacks harrow htrue (mem_neighbours_of_getElem? hn hnext)
      (GapMode.lacks_untargetedOnly_iff.2 hfree)

/-- Two nodes lead to a third one, one of them by an edge with the id of a sequential one. -/
theorem fillGaps_leads_on_from_fan_in :
    let nodes : List Node := [{ id := "a" }, { id := "b" }, { id := "c" }, { id := "d" }]
    let edges : List Edge := [⟨"1", "a", "c", none⟩, ⟨"b→c", "b", "c", none⟩]
    (∀ n ∈ nodes, '→' ∉ n.id.toList) ∧ (∀ e ∈ edges, e.TrueToId nodes) ∧
      layoutOrder nodes = nodes ∧
      (∃ e ∈ fillGaps nodes edges .missingOutgoing, e.source = "c") ∧
      ∃ e ∈ fillGaps nodes edges .untargetedOnly, e.source = "b" ∧ e.target = "c" := by
  intro nodes edges
  have harrow : ∀ n ∈ nodes, '→' ∉ n.id.toList := by decide
  have htrue : ∀ e ∈ edges, e.TrueToId nodes := by decide
  have horder : layoutOrder nodes = nodes := layoutOrder_of_level (by simp [nodes])
  obtain ⟨-, houtgoing, huntargeted⟩ := fillGaps_leads_on nodes edges harrow htrue
  rw [horder] at houtgoing huntargeted
  exact ⟨harrow, htrue, horder, houtgoing 2 { id := "c" } rfl (by decide),
    huntargeted 1 { id := "b" } { id := "c" } rfl rfl (by decide)⟩

end StepFlow
