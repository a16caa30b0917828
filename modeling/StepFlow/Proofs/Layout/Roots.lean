import StepFlow.Proofs.Layout.Chain
import StepFlow.Proofs.Plan.Reachable

/-!
# Roots beside edges of the layout

Loading a flow and filling gaps both append edges of the layout, as far as they do not clash. An
edge of the layout that was asked for but left out had its id or its ends taken. So a node that none
of the given edges enters stays a root exactly if each edge of the layout into it that was asked for
is barred by an edge with the same id.

## Main definitions

* `Edge.Barred`: an edge whose id another one has.

## Main statements

* `isRoot_append_newcomers_iff`: from which nodes a walk starts after edges were appended.
* `forall_entering_iff`: at most one edge of the layout enters a node.
-/

namespace StepFlow

/-- Whether the id of an edge belongs to an edge with other ends. -/
def Edge.Barred (edges : List Edge) (e : Edge) : Prop :=
  ∃ other ∈ edges, other.id = e.id ∧ other.ends ≠ e.ends

section

variable {nodes : List Node} {edges wanted : List Edge} {n : Node}

/-- A node is a root after the newcomers were appended if it is a trigger, or if no given edge
enters it and all the wanted ones that do are barred. -/
theorem isRoot_append_newcomers_iff :
    IsRoot (edges ++ newcomers Edge.clashes edges wanted) n ↔ n.isTrigger ∨
      (∀ e ∈ edges, e.target ≠ n.id) ∧ ∀ e ∈ wanted, e.target = n.id →
        e.Barred (edges ++ newcomers Edge.clashes edges wanted) := by
  refine or_congr_right ?_
  constructor
  · intro hfree
    refine ⟨fun e he => hfree e (List.mem_append_left _ he), fun e he htarget => ?_⟩
    obtain ⟨other, hother, hclash⟩ := exists_clash Edge.clashes_self he
    have hends : other.ends ≠ e.ends := fun hends =>
      hfree other hother ((congrArg Prod.snd hends).trans htarget)
    exact ⟨other, hother, (Edge.clashes_iff.1 hclash).resolve_right hends, hends⟩
  · rintro ⟨hgiven, hwanted⟩ e he htarget
    rcases List.mem_append.1 he with he | he
    · exact hgiven e he htarget
    · -- the edge was taken, so what has its id is the edge itself
      obtain ⟨other, hother, hid, hends⟩ := hwanted e (mem_of_mem_newcomers he) htarget
      have hclash : other.clashes e = true := Edge.clashes_iff.2 (.inl hid)
      exact hends (congrArg Edge.ends (eq_of_clash_newcomer Edge.clashes_comm he hother hclash))

/-- Just one edge of the layout enters a node, and none enters the topmost one. -/
theorem forall_entering_iff (hnodup : (nodeIds nodes).Nodup) (hn : n ∈ nodes) {P : Edge → Prop} :
    (∀ e ∈ layoutEdges nodes, e.target = n.id → P e) ↔ (layoutOrder nodes).head? = some n ∨
      ∃ e ∈ layoutEdges nodes, e.target = n.id ∧ P e := by
  constructor
  · intro hall
    refine or_iff_not_imp_left.2 fun hbelow => ?_
    obtain ⟨e, he, htarget⟩ := exists_layoutEdge hn hbelow
    exact ⟨e, he, htarget, hall e he htarget⟩
  · rintro (htop | ⟨e, he, htarget, hP⟩) e' he' htarget'
    · exact absurd htarget' (target_ne_top hnodup htop he')
    · rwa [layoutEdges_inj hnodup he' he (htarget'.trans htarget.symm)]

end

end StepFlow
