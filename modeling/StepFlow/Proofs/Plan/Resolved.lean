import Mathlib.Data.List.Forall2
import StepFlow.Proofs.Plan.Resolve

/-!
# What a node resolves to

The step of a node, said without the functions that compute it: which of its fields are those of
the node, which ones are filled in, and how its targets and its guard are sorted.

## Main definitions

* `Node.GuardedBy`: the expression that guards what follows a node.
* `Fills`: what becomes of a text that may be missing.
* `Node.ResolvesTo`: what the step of a node is.

## Main statements

* `resolve_eq_iff`: the steps of a graph are those to which its nodes resolve, in their order.
-/

namespace StepFlow

open Json (Object)

theorem Json.Object.text?_eq_some_iff {o : Object} {key text : String} :
    o.text? key = some text ↔ Keyed.get? o key = some (.str text) := by
  rw [Object.text?, Option.bind_eq_some_iff]
  constructor
  · rintro ⟨v, hv, htext⟩
    cases v <;> cases htext
    exact hv
  · exact fun h => ⟨_, h, rfl⟩

/-- Whether an expression guards what follows a node: the node is a condition, and the expression is
the text of its setting. -/
def Node.GuardedBy (n : Node) (guard : String) : Prop :=
  n.kind = some .condition ∧ Keyed.get? n.config conditionKey = some (.str guard)

theorem Node.any_isCondition_iff {n : Node} :
    n.kind.any Kind.isCondition = true ↔ n.kind = some .condition := by
  cases n.kind with
  | none => simp
  | some kind => cases kind <;> simp [Kind.isCondition]

theorem Node.condition?_eq_some_iff {n : Node} {guard : String} :
    n.condition? = some guard ↔ n.GuardedBy guard := by
  rw [condition?, Option.ite_none_right_eq_some, any_isCondition_iff,
    Object.text?_eq_some_iff, GuardedBy]

theorem Node.condition?_eq_none_iff {n : Node} :
    n.condition? = none ↔ ∀ guard, ¬n.GuardedBy guard := by
  simp only [Option.eq_none_iff_forall_ne_some, ne_eq, condition?_eq_some_iff]

theorem Node.condition?_ne_none_iff {n : Node} :
    n.condition? ≠ none ↔ ∃ guard, n.GuardedBy guard := by
  simp only [Option.ne_none_iff_exists', condition?_eq_some_iff]

theorem Node.eq_condition?_iff {n : Node} {condition : Option String} :
    condition = n.condition? ↔ ∀ guard, condition = some guard ↔ n.GuardedBy guard := by
  rw [Option.ext_iff]
  simp only [condition?_eq_some_iff]

namespace Successors

variable {targets : List String} {condition : Option String}

theorem ofTargets_eq_terminal_iff : ofTargets targets condition = terminal ↔ targets = [] := by
  rcases targets with _ | ⟨target, _ | ⟨second, rest⟩⟩ <;> cases condition <;> simp [ofTargets]

theorem ofTargets_eq_single_iff {target : String} :
    ofTargets targets condition = single target ↔ targets = [target] ∧ condition = none := by
  rcases targets with _ | ⟨target, _ | ⟨second, rest⟩⟩ <;> cases condition <;> simp [ofTargets]

/-- Several targets are sorted as a branch, and so is one target under a condition. -/
theorem ofTargets_eq_branch_iff {targets' : List String} {condition' : Option String} :
    ofTargets targets condition = branch targets' condition' ↔
      targets' = targets ∧ condition' = condition ∧
        (1 < targets.length ∨ targets.length = 1 ∧ condition ≠ none) := by
  rcases targets with _ | ⟨target, _ | ⟨second, rest⟩⟩ <;> cases condition <;>
    simp [ofTargets, eq_comm]

end Successors

/-- Whether a text is what an optional one is filled up to: itself, or the default if it is missing
or empty. In either case the text is not empty. -/
def Fills (own : Option String) (default text : String) : Prop :=
  text ≠ "" ∧ (own = some text ∨ own.getD "" = "" ∧ text = default)

theorem filled_of_missing {own : Option String} (default : String) (h : own.getD "" = "") :
    filled own default = default := by
  cases own with
  | none => rfl
  | some own => rw [filled_some, if_pos (by simpa using h)]

theorem fills_iff {own : Option String} {default text : String} (hdefault : default ≠ "") :
    Fills own default text ↔ text = filled own default := by
  by_cases h : own.getD "" = ""
  · rw [filled_of_missing default h]
    constructor
    · rintro ⟨hne, rfl | ⟨-, htext⟩⟩
      · exact absurd h hne
      · exact htext
    · rintro rfl
      exact ⟨hdefault, .inr ⟨h, rfl⟩⟩
  · cases own with
    | none => exact absurd rfl h
    | some own =>
      rw [filled_some, if_neg (by simpa using h)]
      constructor
      · rintro ⟨-, htext | ⟨hmissing, -⟩⟩
        · exact (Option.some.inj htext).symm
        · exact absurd hmissing h
      · rintro rfl
        exact ⟨h, .inl rfl⟩

/-- What the step of a node is. -/
structure Node.ResolvesTo (n : Node) (edges : List Edge) (s : Step) : Prop where
  id_eq : s.id = n.id
  /-- A node that declares no kind is a generic one. -/
  kind_eq : s.kind = n.kind.getD .generic
  label : Fills n.label defaultLabel s.label
  run : Fills n.run defaultRun s.run
  args_eq : s.args = n.args
  argsSchema_eq : s.argsSchema = n.argsSchema
  config_eq : s.config = n.config
  position_eq : s.position = n.position
  /-- The targets are those of the edges that leave the node, in edge order, each as often as it is
  the target of one. -/
  targets_eq : s.next.targets = (edges.filter fun e => e.source = n.id).map (·.target)
  terminal_iff : s.next = .terminal ↔ s.next.targets = []
  single_iff : ∀ target, s.next = .single target ↔
    s.next.targets = [target] ∧ ∀ guard, ¬n.GuardedBy guard
  /-- Anything else is a branch, under the guard of the node if it has one. -/
  branch_iff : ∀ targets condition, s.next = .branch targets condition ↔
    s.next.targets = targets ∧ (∀ guard, condition = some guard ↔ n.GuardedBy guard) ∧
      (1 < targets.length ∨ targets.length = 1 ∧ ∃ guard, n.GuardedBy guard)

section

open Successors

variable {n : Node} {nodes : List Node} {edges : List Edge} {s : Step}

theorem Node.resolvesTo_toStep (n : Node) (edges : List Edge) :
    n.ResolvesTo edges (n.toStep (.ofTargets (targetsFrom edges n.id) n.condition?)) where
  id_eq := rfl
  kind_eq := rfl
  label := (fills_iff (by decide)).2 rfl
  run := (fills_iff (by decide)).2 rfl
  args_eq := rfl
  argsSchema_eq := rfl
  config_eq := rfl
  position_eq := rfl
  targets_eq := targets_ofTargets ..
  terminal_iff := by
    rw [toStep, targets_ofTargets, ofTargets_eq_terminal_iff]
  single_iff target := by
    rw [toStep, targets_ofTargets, ofTargets_eq_single_iff, condition?_eq_none_iff]
  branch_iff targets condition := by
    rw [toStep, targets_ofTargets, ofTargets_eq_branch_iff, condition?_ne_none_iff,
      eq_condition?_iff, eq_comm]
    refine and_congr_right fun htargets => ?_
    rw [htargets]

/-- The successors are determined by the targets and the guard. -/
theorem Node.ResolvesTo.next_eq (h : n.ResolvesTo edges s) :
    s.next = .ofTargets (targetsFrom edges n.id) n.condition? := by
  have htargets : s.next.targets = targetsFrom edges n.id := h.targets_eq
  rw [← htargets]
  cases hnext : s.next with
  | terminal => exact (ofTargets_eq_terminal_iff.2 rfl).symm
  | single target =>
    obtain ⟨-, hfree⟩ := (h.single_iff target).1 hnext
    exact (ofTargets_eq_single_iff.2 ⟨rfl, Node.condition?_eq_none_iff.2 hfree⟩).symm
  | branch targets condition =>
    obtain ⟨-, hguard, hmany⟩ := (h.branch_iff targets condition).1 hnext
    refine (ofTargets_eq_branch_iff.2 ⟨rfl, Node.eq_condition?_iff.2 hguard, ?_⟩).symm
    exact hmany.imp_right fun ⟨hone, hguarded⟩ => ⟨hone, Node.condition?_ne_none_iff.2 hguarded⟩

theorem Node.resolvesTo_iff : n.ResolvesTo edges s ↔
    n.toStep (.ofTargets (targetsFrom edges n.id) n.condition?) = s := by
  constructor
  · intro h
    have hlabel := (fills_iff (by decide)).1 h.label
    have hrun := (fills_iff (by decide)).1 h.run
    rw [toStep, ← h.next_eq, ← h.id_eq, ← h.kind_eq, ← hlabel, ← hrun, ← h.args_eq,
      ← h.argsSchema_eq, ← h.config_eq, ← h.position_eq]
  · rintro rfl
    exact n.resolvesTo_toStep edges

/-- The steps of a graph are one for each node, in the order of the nodes, and each is the one to
which its node resolves. Nodes may share their ids, and edges may have ends that are no nodes. -/
theorem resolve_eq_iff (nodes : List Node) (edges : List Edge) (steps : List Step) :
    resolve nodes edges = steps ↔
      List.Forall₂ (fun n s => n.ResolvesTo edges s) nodes steps := by
  simp only [Node.resolvesTo_iff]
  rw [resolve_eq_map, ← List.forall₂_eq_eq_eq, List.forall₂_map_left_iff]

/-- Of two nodes with one id each gets the target, and the one that is a condition guards it. -/
example :
    (resolve [{ id := "a" },
        { id := "a", kind := some .condition, config := [(conditionKey, .str "ok")] }]
      [⟨"1", "a", "ghost", none⟩]).map (·.next) =
      [.single "ghost", .branch ["ghost"] (some "ok")] := rfl

end

end StepFlow
