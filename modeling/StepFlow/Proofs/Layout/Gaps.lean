import StepFlow.Layout.Synthesis
import StepFlow.Proofs.Store.Merge

/-!
# Inferred edges

Filling the gaps of a graph keeps its edges in front and adds only sequential edges between two of
its nodes. The index of ids and ends is a way to look for clashes, so what is added are the
newcomers among the edges that the mode asks for.

## Main definitions

* `gapEdges`: the edges that the mode asks for.

## Main statements

* `mem_layoutEdges`: what the layout suggests.
* `fillGaps_eq`: filling gaps as appending newcomers.
* `prefix_fillGaps`: the given edges come first.
* `mem_fillGaps`: what is there after gaps were filled.
-/

namespace StepFlow

theorem mem_neighbours {α : Type} {l : List α} {a b : α} (h : (a, b) ∈ neighbours l) :
    a ∈ l ∧ b ∈ l := by
  fun_induction neighbours l with
  | case1 c d rest ih =>
    rcases List.mem_cons.1 h with heq | h
    · cases heq
      exact ⟨List.mem_cons_self, List.mem_cons_of_mem _ List.mem_cons_self⟩
    · obtain ⟨ha, hb⟩ := ih h
      exact ⟨List.mem_cons_of_mem _ ha, List.mem_cons_of_mem _ hb⟩
  | case2 => cases h

theorem mem_layoutOrder {nodes : List Node} {n : Node} : n ∈ layoutOrder nodes ↔ n ∈ nodes :=
  List.mem_mergeSort

theorem mem_of_head?_layoutOrder {nodes : List Node} {top : Node}
    (h : (layoutOrder nodes).head? = some top) : top ∈ nodes :=
  mem_layoutOrder.1 (List.mem_of_head? h)

/-- The layout suggests sequential edges between nodes. -/
theorem mem_layoutEdges {nodes : List Node} {e : Edge} (h : e ∈ layoutEdges nodes) :
    ∃ a ∈ nodes, ∃ b ∈ nodes, e = .sequential a.id b.id := by
  obtain ⟨⟨a, b⟩, hpair, rfl⟩ := List.mem_map.1 h
  obtain ⟨ha, hb⟩ := mem_neighbours hpair
  exact ⟨a, mem_layoutOrder.1 ha, b, mem_layoutOrder.1 hb, rfl⟩

namespace EdgeIndex

theorem admits_iff {index : EdgeIndex} {e : Edge} :
    index.admits e = true ↔ e.id ∉ index.ids ∧ e.ends ∉ index.ends := by
  simp [admits]

theorem admits_ofEdges (edges : List Edge) (e : Edge) :
    (ofEdges edges).admits e = !edges.any (·.clashes e) := by
  rw [Bool.eq_iff_iff, admits_iff]
  simp [ofEdges, Edge.clashes, Edge.sameEnds, imp_and, forall_and]

theorem admits_add (index : EdgeIndex) (known e : Edge) :
    (index.add known).admits e = (index.admits e && !known.clashes e) := by
  rw [Bool.eq_iff_iff, Bool.and_eq_true, admits_iff, admits_iff]
  simp only [add, List.mem_cons, Edge.clashes, Edge.sameEnds, Bool.not_eq_true',
    Bool.or_eq_false_iff, decide_eq_false_iff_not]
  grind

end EdgeIndex

/-- An index that finds the clashes with the known edges admits the newcomers. -/
theorem admitted_eq_newcomers {index : EdgeIndex} {known : List Edge}
    (hindex : ∀ e, index.admits e = !known.any (·.clashes e)) (extra : List Edge) :
    admitted index extra = newcomers Edge.clashes known extra := by
  induction extra generalizing index known with
  | nil => rfl
  | cons e extra ih =>
    have hadd : ∀ e', (index.add e).admits e' = !(known ++ [e]).any (·.clashes e') := by
      intro e'
      rw [EdgeIndex.admits_add, hindex, List.any_append, Bool.not_or, List.any_cons, List.any_nil,
        Bool.or_false]
    rw [admitted, newcomers, ih hindex, ih hadd, hindex]
    cases known.any (·.clashes e) <;> rfl

/-- The edges of the layout that leave a node without the connection that the mode asks for. -/
def gapEdges (nodes : List Node) (edges : List Edge) (mode : GapMode) : List Edge :=
  (layoutEdges nodes).filter fun e => mode.lacks edges e.source

theorem mem_gapEdges {nodes : List Node} {edges : List Edge} {mode : GapMode} {e : Edge} :
    e ∈ gapEdges nodes edges mode ↔ e ∈ layoutEdges nodes ∧ mode.lacks edges e.source :=
  List.mem_filter

theorem fillGaps_eq (nodes : List Node) (edges : List Edge) (mode : GapMode) :
    fillGaps nodes edges mode =
      edges ++ newcomers Edge.clashes edges (gapEdges nodes edges mode) := by
  rw [fillGaps, admitted_eq_newcomers (EdgeIndex.admits_ofEdges edges), gapEdges]

theorem prefix_fillGaps (nodes : List Node) (edges : List Edge) (mode : GapMode) :
    edges <+: fillGaps nodes edges mode :=
  List.prefix_append ..

theorem length_fillGaps (nodes : List Node) (edges : List Edge) (mode : GapMode) :
    (fillGaps nodes edges mode).length =
      edges.length + (newcomers Edge.clashes edges (gapEdges nodes edges mode)).length := by
  rw [fillGaps_eq, List.length_append]

/-- An edge of a graph without gaps was there or is suggested by the layout. -/
theorem mem_or_mem_layoutEdges_of_mem_fillGaps {nodes : List Node} {edges : List Edge}
    {mode : GapMode} {e : Edge} (h : e ∈ fillGaps nodes edges mode) :
    e ∈ edges ∨ e ∈ layoutEdges nodes := by
  rw [fillGaps_eq] at h
  rcases List.mem_append.1 h with h | h
  · exact .inl h
  · exact .inr (mem_gapEdges.1 (mem_of_mem_newcomers h)).1

/-- An edge of a graph without gaps was there or joins two nodes. -/
theorem mem_fillGaps {nodes : List Node} {edges : List Edge} {mode : GapMode} {e : Edge}
    (h : e ∈ fillGaps nodes edges mode) :
    e ∈ edges ∨ ∃ a ∈ nodes, ∃ b ∈ nodes, e = .sequential a.id b.id :=
  (mem_or_mem_layoutEdges_of_mem_fillGaps h).imp_right mem_layoutEdges

end StepFlow
