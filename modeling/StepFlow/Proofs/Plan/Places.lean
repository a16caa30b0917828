import StepFlow.Proofs.Plan.Navigation
import StepFlow.Proofs.Plan.Reachable
import StepFlow.Proofs.Plan.Rounds

/-!
# The places of a plan

The index of a plan is a table of its own beside the steps. It tells the way in the plan exactly if
no id is there twice, and in a plan that was made of a graph none is.

## Main definitions

* `Plan.Navigable`: what is found by the index agrees with the order of the steps.

## Main statements

* `Plan.navigable_iff_nodup`: which plans are navigable.
* `navigable_of_linearize`: the plans of graphs are.
-/

namespace StepFlow

namespace Plan

variable {p : Plan}

/-- Whether all that is found by the index agrees with the order of the steps. -/
structure Navigable (p : Plan) : Prop where
  position_iff : ∀ id i, p.position? id = some i ↔ ∃ s, p.steps[i]? = some s ∧ s.id = id
  contains_iff : ∀ id, p.contains id = true ↔ id ∈ p.ids
  /-- Every place in the index is a place of the plan. -/
  index_lt : ∀ id i, (id, i) ∈ p.index → i < p.length
  get_of_position : ∀ id i, p.position? id = some i →
    ∃ h : i < p.steps.length, p.get? id = some p.steps[i]
  get_eq_none_iff : ∀ id, p.get? id = none ↔ id ∉ p.ids
  /-- The neighbours of a step are steps of the plan. -/
  get_of_neighbour : ∀ id s, p.following? id = some s ∨ p.preceding? id = some s →
    p.get? s.id = some s
  following_iff_preceding : ∀ a b,
    (p.following? a).map (·.id) = some b ↔ (p.preceding? b).map (·.id) = some a
  /-- Nothing follows the last id, nor one that is not planned. -/
  following_eq_none_iff : ∀ id, p.following? id = none ↔ p.ids.getLast? = some id ∨ id ∉ p.ids
  /-- Nothing precedes the first id, nor one that is not planned. -/
  preceding_eq_none_iff : ∀ id, p.preceding? id = none ↔ p.ids.head? = some id ∨ id ∉ p.ids

theorem index_lt {id : String} {i : Nat} (h : (id, i) ∈ p.index) : i < p.length := by
  have hlt : i < p.ids.length := (List.getElem?_eq_some_iff.1 (mem_index_iff.1 h)).1
  rwa [length_ids] at hlt

theorem get?_of_position? {id : String} {i : Nat} (h : p.position? id = some i) :
    ∃ hlt : i < p.steps.length, p.get? id = some p.steps[i] := by
  have hlt : i < p.steps.length := index_lt (Keyed.mem_of_get? h)
  exact ⟨hlt, by rw [get?, h, Option.bind_some, List.getElem?_eq_getElem hlt]⟩

theorem navigable_of_nodup (hnodup : p.ids.Nodup) : p.Navigable where
  position_iff id i := by
    rw [position?_eq_some_iff hnodup, getElem?_ids, Option.map_eq_some_iff]
  contains_iff _ := Plan.contains_iff
  index_lt _ _ := Plan.index_lt
  get_of_position _ _ := get?_of_position?
  get_eq_none_iff _ := get?_eq_none_iff hnodup
  get_of_neighbour _ _ h :=
    (get?_eq_some_iff hnodup).2 ⟨h.elim mem_of_following? mem_of_preceding?, rfl⟩
  following_iff_preceding _ _ := by
    rw [map_following?_eq_some_iff hnodup, map_preceding?_eq_some_iff hnodup]
  following_eq_none_iff _ := following?_eq_none_iff hnodup
  preceding_eq_none_iff _ := preceding?_eq_none_iff hnodup

/-- An id that is there twice has two places, of which the index tells one. -/
theorem Navigable.nodup (h : p.Navigable) : p.ids.Nodup := by
  have hplace : ∀ i id, p.ids[i]? = some id → p.position? id = some i := by
    intro i id hid
    rw [getElem?_ids, Option.map_eq_some_iff] at hid
    exact (h.position_iff id i).2 hid
  refine List.nodup_iff_getElem?_ne_getElem?.2 fun i j hij hj hsame => ?_
  have hid := List.getElem?_eq_getElem hj
  have hi := hplace i _ (hsame.trans hid)
  rw [hplace j _ hid] at hi
  exact Nat.ne_of_gt hij (Option.some.inj hi)

theorem navigable_iff_nodup : p.Navigable ↔ p.ids.Nodup :=
  ⟨Navigable.nodup, navigable_of_nodup⟩

end Plan

/-- In every plan of a graph an id is found at its place, its step is the one at that place, and
going on and going back undo each other, up to the ends of the plan. No place that is looked up is
outside of the plan. -/
theorem navigable_of_linearize {nodes : List Node} {edges : List Edge} {plan : Plan}
    (h : linearize nodes edges = .ok plan) : plan.Navigable :=
  Plan.navigable_iff_nodup.2 (nodup_ids h)

/-- A trigger that is also a target, a node whose id is there twice, and a target that is none. -/
theorem navigable_of_linearize_looped :
    let nodes : List Node := [{ id := "t", kind := some .trigger }, { id := "w" },
      { id := "w", label := some "again" }, { id := "v" }]
    let edges : List Edge := [⟨"1", "t", "w", none⟩, ⟨"2", "w", "t", none⟩,
      ⟨"3", "w", "ghost", none⟩, ⟨"4", "w", "v", none⟩]
    ∃ plan, linearize nodes edges = .ok plan ∧ plan.ids = ["t", "w", "v"] ∧
      plan.index = [("v", 2), ("w", 1), ("t", 0)] ∧ plan.Navigable := by
  intro nodes edges
  have hplan := linearize_eq_of_iterate_round nodes edges (by decide) 6 rfl
  exact ⟨_, hplan, rfl, rfl, navigable_of_linearize hplan⟩

end StepFlow
