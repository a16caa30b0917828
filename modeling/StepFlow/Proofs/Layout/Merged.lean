import StepFlow.Proofs.Layout.Chain
import StepFlow.Store.Basic

/-!
# Filling gaps is merging

Gaps are filled with an index of the ids and ends that are taken, and the chain of the layout is
made with a look at ends alone. Edges that are merged are compared with all that are there, by id
and by ends. All three agree: an edge of the layout is known by its ends, so one that comes again is
refused for the reason for which it was refused before, or because it is there by now. For the same
reason nothing is left to fill when gaps are filled again.

## Main definitions

* `wantedChain`: the edges of the chain that the mode asks for.

## Main statements

* `fillGaps_merges_chain`: filling gaps as merging these edges.
* `fillGaps_again`: filling gaps again adds nothing.
-/

namespace StepFlow

variable {nodes : List Node} {edges more : List Edge} {mode : GapMode} {id : String}

/-- The edges of the chain that leave a node without the connection that the mode asks for. -/
def wantedChain (nodes : List Node) (edges : List Edge) (mode : GapMode) : List Edge :=
  (sequentialChain nodes).filter fun e => mode.lacks edges e.source

/-- That the chain leaves out repeated edges makes no difference to a merge. -/
theorem newcomers_wantedChain (nodes : List Node) (edges : List Edge) (mode : GapMode) :
    newcomers Edge.clashes edges (wantedChain nodes edges mode) =
      newcomers Edge.clashes edges (gapEdges nodes edges mode) := by
  have hkind : ∀ e e' : Edge, e.sameEnds e' = true →
      mode.lacks edges e.source = mode.lacks edges e'.source := by
    intro e e' hends
    rw [(Prod.mk.inj (of_decide_eq_true hends)).1]
  rw [wantedChain, sequentialChain_eq, filter_newcomers hkind, List.filter_nil]
  apply newcomers_newcomers Edge.clashes_self
  · exact fun e he => absurd he List.not_mem_nil
  · intro e he e' he' hends
    rw [List.nil_append] at he
    exact eq_of_sameEnds (eq_sequential_of_mem_layoutEdges (mem_gapEdges.1 he).1)
      (eq_sequential_of_mem_layoutEdges (mem_gapEdges.1 he').1) hends

theorem mergeEdges_wantedChain (nodes : List Node) (edges : List Edge) (mode : GapMode) :
    mergeEdges edges (wantedChain nodes edges mode) =
      (fillGaps nodes edges mode,
        (newcomers Edge.clashes edges (gapEdges nodes edges mode)).length) := by
  rw [mergeEdges_eq, newcomers_wantedChain, fillGaps_eq]

/-- The number that a store answers is the number of edges that were appended. -/
theorem Store.fst_fillGaps (s : Store) (mode : GapMode) :
    (s.fillGaps mode).1 = (newcomers Edge.clashes s.graph.edges
      (gapEdges s.graph.nodes s.graph.edges mode)).length := by
  show (StepFlow.fillGaps s.graph.nodes s.graph.edges mode).length - s.graph.edges.length = _
  have hlength := length_fillGaps s.graph.nodes s.graph.edges mode
  omega

/-- Filling gaps is merging those edges of the chain whose source lacks the connection that the mode
asks for, judged by the given edges. So the given edges come first as they are, there are no fewer
afterwards, and the number that a store answers is the number of edges that were merged. -/
theorem fillGaps_merges_chain (nodes : List Node) (edges : List Edge) (mode : GapMode) :
    fillGaps nodes edges mode = (mergeEdges edges (wantedChain nodes edges mode)).1 ∧
      edges <+: fillGaps nodes edges mode ∧
      edges.length ≤ (fillGaps nodes edges mode).length ∧
      ∀ s : Store,
        (s.fillGaps mode).1 =
          (mergeEdges s.graph.edges (wantedChain s.graph.nodes s.graph.edges mode)).2 ∧
        s.graph.edges.length + (s.fillGaps mode).1 = (s.fillGaps mode).2.graph.edges.length := by
  have hfirst := prefix_fillGaps nodes edges mode
  refine ⟨?_, hfirst, hfirst.length_le, fun s => ⟨?_, ?_⟩⟩
  · rw [mergeEdges_wantedChain]
  · rw [mergeEdges_wantedChain, s.fst_fillGaps]
  · rw [s.fst_fillGaps]
    exact (length_fillGaps s.graph.nodes s.graph.edges mode).symm

/-- What lacks a connection among many edges lacks it among fewer. -/
theorem GapMode.lacks_of_subset (hsub : edges ⊆ more) (h : mode.lacks more id = true) :
    mode.lacks edges id = true := by
  cases mode with
  | untargetedOnly | missingOutgoing =>
    simp only [lacks, Bool.not_eq_true', List.any_eq_false] at h ⊢
    exact fun e he => h e (hsub he)

theorem gapEdges_subset (hsub : edges ⊆ more) :
    gapEdges nodes more mode ⊆ gapEdges nodes edges mode := by
  intro e he
  obtain ⟨hlayout, hlacks⟩ := mem_gapEdges.1 he
  exact mem_gapEdges.2 ⟨hlayout, GapMode.lacks_of_subset hsub hlacks⟩

/-- An edge that is asked for again was asked for before, and then it was added or something with
which it clashes is there. -/
theorem newcomers_fillGaps (nodes : List Node) (edges : List Edge) (mode : GapMode) :
    newcomers Edge.clashes (fillGaps nodes edges mode)
      (gapEdges nodes (fillGaps nodes edges mode) mode) = [] := by
  rw [newcomers_eq_nil_iff]
  intro e he
  have hasked := gapEdges_subset (prefix_fillGaps nodes edges mode).subset he
  rw [fillGaps_eq]
  exact List.any_eq_true.2 (exists_clash Edge.clashes_self hasked)

/-- Filling gaps again adds nothing, whatever the ids and the ends of the edges are. A store answers
that nothing was added and stays as it is. -/
theorem fillGaps_again (nodes : List Node) (edges : List Edge) (mode : GapMode) :
    fillGaps nodes (fillGaps nodes edges mode) mode = fillGaps nodes edges mode ∧
      ∀ s : Store, (s.fillGaps mode).2.fillGaps mode = (0, (s.fillGaps mode).2) := by
  have hagain : ∀ nodes edges, fillGaps nodes (fillGaps nodes edges mode) mode =
      fillGaps nodes edges mode := by
    intro nodes edges
    rw [fillGaps_eq nodes (fillGaps nodes edges mode), newcomers_fillGaps, List.append_nil]
  refine ⟨hagain nodes edges, fun s => ?_⟩
  have hedges : StepFlow.fillGaps (s.fillGaps mode).2.graph.nodes (s.fillGaps mode).2.graph.edges
      mode = (s.fillGaps mode).2.graph.edges := hagain s.graph.nodes s.graph.edges
  rw [Store.fillGaps, hedges, Nat.sub_self]
  rfl

end StepFlow
