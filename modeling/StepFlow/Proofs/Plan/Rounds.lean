import Mathlib.Logic.Function.Iterate
import StepFlow.Proofs.Plan.Walk

/-!
# The rounds of a search

The walk of `linearize` as a loop whose rounds are counted. A round takes one id off the stack or,
when the stack is empty, puts the next root on it. The loop comes to its end after at most two
rounds for each root and one for each edge, because an edge puts its target on the stack only when
its source is entered.

## Main definitions

* `Search`: the loop between two rounds.
* `Search.round`: one round of the loop.
* `openEdges`: the edges whose source was not met yet.
-/

namespace StepFlow

/-- The edges whose source was not met yet. -/
def openEdges (edges : List Edge) (visited : List String) : List Edge :=
  edges.filter fun e => e.source ∉ visited

@[simp] theorem openEdges_nil (edges : List Edge) : openEdges edges [] = edges :=
  List.filter_eq_self.2 (by simp)

/-- Meeting an id closes exactly the edges that leave it. -/
theorem length_openEdges_cons {visited : List String} {id : String} (h : id ∉ visited)
    (edges : List Edge) :
    (openEdges edges (id :: visited)).length + (targetsFrom edges id).length =
      (openEdges edges visited).length := by
  induction edges with
  | nil => rfl
  | cons e edges ih =>
    simp only [openEdges, targetsFrom, List.length_map] at ih ⊢
    by_cases hid : e.source = id
    · subst hid
      simp [h] at ih ⊢
      omega
    · by_cases hv : e.source ∈ visited <;> simp [hid, hv] at ih ⊢ <;> omega

theorem length_openEdges_le (edges : List Edge) {visited later : List String}
    (h : visited ⊆ later) : (openEdges edges later).length ≤ (openEdges edges visited).length :=
  length_filter_not_mem_le Edge.source edges h

theorem length_targetsOf_resolve_le (nodes : List Node) (edges : List Edge) (id : String) :
    (targetsOf (resolve nodes edges) id).length ≤ (targetsFrom edges id).length := by
  cases h : stepById? (resolve nodes edges) id with
  | none => simp [targetsOf, h]
  | some s =>
    obtain ⟨hs, rfl⟩ := stepById?_mem h
    simp [targetsOf, h, targets_of_mem_resolve hs]

/-- The loop of a walk between two rounds: the roots to start from yet, the walk so far, and the
stack. -/
structure Search where
  starts : List String
  walk : Walk := {}
  stack : List String := []

namespace Search

/-- One round of the loop. -/
def round (steps : List Step) : Search → Search
  | ⟨[], walk, []⟩ => ⟨[], walk, []⟩
  | ⟨root :: starts, walk, []⟩ => ⟨starts, walk, [root]⟩
  | ⟨starts, walk, id :: stack⟩ =>
    if id ∈ walk.visited then ⟨starts, walk, stack⟩
    else ⟨starts, walk.enter steps id, walk.unmet steps id ++ stack⟩

/-- The walk that the loop is heading for. -/
def outcome (steps : List Step) (s : Search) : Walk :=
  s.walk.explore steps (s.stack ++ s.starts)

/-- How many rounds are left at most. -/
def budget (edges : List Edge) (s : Search) : Nat :=
  2 * s.starts.length + s.stack.length + (openEdges edges s.walk.visited).length

theorem outcome_round (steps : List Step) (s : Search) :
    (s.round steps).outcome steps = s.outcome steps := by
  match s with
  | ⟨[], walk, []⟩ => rfl
  | ⟨root :: starts, walk, []⟩ => rfl
  | ⟨starts, walk, id :: stack⟩ =>
    by_cases h : id ∈ walk.visited
    · simp [round, outcome, h, Walk.explore_cons_of_mem h]
    · simp [round, outcome, h, Walk.explore_cons_unmet h]

theorem outcome_iterate_round (steps : List Step) (n : Nat) (s : Search) :
    ((round steps)^[n] s).outcome steps = s.outcome steps := by
  induction n generalizing s with
  | zero => rfl
  | succ n ih => rw [Function.iterate_succ_apply, ih, outcome_round]

/-- Every round before the end uses up some of the budget. -/
theorem budget_round_lt (nodes : List Node) (edges : List Edge) {s : Search}
    (h : ¬(s.starts = [] ∧ s.stack = [])) :
    (s.round (resolve nodes edges)).budget edges < s.budget edges := by
  match s with
  | ⟨[], walk, []⟩ => exact absurd ⟨rfl, rfl⟩ h
  | ⟨root :: starts, walk, []⟩ =>
    simp only [round, budget, List.length_cons, List.length_nil]
    omega
  | ⟨starts, walk, id :: stack⟩ =>
    by_cases hv : id ∈ walk.visited
    · simp only [round, if_pos hv, budget, List.length_cons]
      omega
    · have hunmet : (walk.unmet (resolve nodes edges) id).length ≤
          (targetsFrom edges id).length :=
        Nat.le_trans (List.length_filter_le ..) (length_targetsOf_resolve_le nodes edges id)
      have hopen := length_openEdges_cons hv edges
      simp only [round, if_neg hv, budget, Walk.enter, List.length_append, List.length_cons]
      omega

/-- The loop ends within its budget, with the walk that it was heading for. -/
theorem exists_iterate_round_eq (nodes : List Node) (edges : List Edge) (s : Search) :
    ∃ n ≤ s.budget edges, (round (resolve nodes edges))^[n] s =
      ⟨[], s.outcome (resolve nodes edges), []⟩ := by
  -- how far a round lowers the budget depends on the round, so the induction is a strong one
  induction hb : s.budget edges using Nat.strongRecOn generalizing s with
  | ind b ih =>
    by_cases hend : s.starts = [] ∧ s.stack = []
    · obtain ⟨starts, walk, stack⟩ := s
      obtain ⟨rfl, rfl⟩ := hend
      exact ⟨0, Nat.zero_le _, by simp [outcome]⟩
    · have hlt := budget_round_lt nodes edges hend
      obtain ⟨n, hn, hiter⟩ := ih _ (hb ▸ hlt) (s.round (resolve nodes edges)) rfl
      refine ⟨n + 1, by omega, ?_⟩
      rw [Function.iterate_succ_apply, hiter, outcome_round]

end Search

/-- A plan can be computed by counting out the rounds of the loop. -/
theorem linearize_eq_of_iterate_round (nodes : List Node) (edges : List Edge) {final : Walk}
    (hroots : roots nodes edges ≠ []) (n : Nat)
    (h : (Search.round (resolve nodes edges))^[n] ⟨roots nodes edges, {}, []⟩ =
      ⟨[], final, []⟩) :
    linearize nodes edges = .ok ⟨final.passed⟩ := by
  have hout := Search.outcome_iterate_round (resolve nodes edges) n ⟨roots nodes edges, {}, []⟩
  rw [h] at hout
  have hwalk : final = Walk.explore (resolve nodes edges) {} (roots nodes edges) := by
    simpa [Search.outcome] using hout
  rw [linearize_of_roots_ne_nil hroots, hwalk]

end StepFlow
