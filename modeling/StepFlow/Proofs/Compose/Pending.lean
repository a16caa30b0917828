import StepFlow.Proofs.Compose.Outcome
import StepFlow.Store.Command

/-!
# Composing all pending flows

All pending flows are fetched before the first one is merged, and nothing is checked again in
between. This is no different from composing them one after the other: a merge keeps the nodes that
are there, and what it appends was composed under one node. So any other node that waits is still
found by its id when its turn comes, and nothing was composed under it in the meantime.

## Main definitions

* `Store.Awaits`: a node whose flow can be composed.
* `Composer.composeNext`: a report after composing one more flow.

## Main statements

* `Store.Awaits.merge`: other nodes still wait after a merge.
* `Composer.composeNext_of_awaits`: one composition of a node that waits.
* `Composer.foldl_composeNext`: compositions of several nodes that wait.
* `Composer.store_foldl_composeNext`: the store that these compositions leave.
* `composeAll_eq_foldl_composeNext`: composing all pending flows.
-/

namespace StepFlow

namespace Store

variable {s : Store} {g : Graph} {n : Node} {p : String}

/-- Whether composing under the id of a node composes under that very node, and nothing was composed
under it yet. -/
structure Awaits (s : Store) (n : Node) : Prop where
  found : s.graph.node? n.id = some n
  uncomposed : s.hasSubflow n.id = false

theorem awaits_of_mem_pendingSubflows (hnodup : (nodeIds s.graph.nodes).Nodup)
    (h : n ∈ s.pendingSubflows) : s.Awaits n := by
  obtain ⟨hmem, -, huncomposed⟩ := mem_pendingSubflows.1 h
  exact ⟨Graph.node?_of_mem hnodup hmem, huncomposed⟩

theorem Awaits.merge (h : s.Awaits n) (hunder : ∀ m ∈ g.nodes, m.isUnder p) (hne : n.id ≠ p) :
    (s.merge g).2.Awaits n := by
  have hnew : (newcomers Node.clashes s.graph.nodes g.nodes).any (·.isUnder n.id) = false := by
    refine List.any_eq_false.2 fun m hm htrue => hne ?_
    have hparent : m.parent = some p := of_decide_eq_true (hunder m (mem_of_mem_newcomers hm))
    have hparent' : m.parent = some n.id := of_decide_eq_true htrue
    exact Option.some.inj (hparent'.symm.trans hparent)
  have huncomposed : s.graph.nodes.any (·.isUnder n.id) = false := h.uncomposed
  rw [s.merge_eq]
  refine ⟨Graph.node?_append_of_eq_some h.found _, ?_⟩
  rw [hasSubflow, Graph.nodes_append, List.any_append, huncomposed, hnew, Bool.or_false]

end Store

/-- A report with more ids that the source was asked for. -/
def CompositionReport.asked (r : CompositionReport) (flows : List String) : CompositionReport :=
  { r with fetched := r.fetched ++ flows }

namespace Composer

variable {c : Composer} {r : CompositionReport} {n m : Node} {parents : List Node}

/-- The report after composing the flow of one more node in the store that is left so far. -/
def composeNext (c : Composer) (r : CompositionReport) (parent : String) : CompositionReport :=
  let composition := c.compose r.store parent
  let later := { r with
    store := composition.store
    notices := r.notices ++ composition.notices
    fetched := r.fetched ++ composition.fetched }
  match composition.result with
  | .ok summary => { later with composed := r.composed ++ [(parent, summary)] }
  | .error e => { later with failed := r.failed ++ [e] }

/-- Merging fragments does not ask the source for anything. -/
theorem foldl_addFragment_asked (r : CompositionReport) (flows : List String)
    (fragments : List (Except ComposeError Fragment)) :
    fragments.foldl addFragment (r.asked flows) = (fragments.foldl addFragment r).asked flows := by
  induction fragments generalizing r with
  | nil => rfl
  | cons fragment fragments ih =>
    have hfirst : addFragment (r.asked flows) fragment = (addFragment r fragment).asked flows := by
      cases fragment <;> rfl
    rw [List.foldl_cons, hfirst, ih, List.foldl_cons]

/-- The checks before the flow of a node that waits is fetched change nothing. -/
theorem composeNext_of_awaits (c : Composer) (h : r.store.Awaits n) :
    c.composeNext r n.id =
      (addFragment r (c.fetchFragment n)).asked n.subflowId?.toList := by
  rw [composeNext, c.compose_of_node h.uncomposed h.found]
  cases hf : c.fetchFragment n with
  | error e => rfl
  | ok f =>
    have hparent : f.parent = n.id := (of_fetchFragment_isUnder hf).1
    rw [merge, addFragment, hparent]
    rfl

theorem awaits_addFragment (h : r.store.Awaits m) (hne : m.id ≠ n.id) :
    (addFragment r (c.fetchFragment n)).store.Awaits m := by
  cases hf : c.fetchFragment n with
  | error e => exact h
  | ok f => exact h.merge (of_fetchFragment_isUnder hf).2 hne

/-- If several nodes wait, composing under one after the other does what fetching all their flows
and then merging these does. -/
theorem foldl_composeNext (c : Composer) (hnodup : (nodeIds parents).Nodup)
    (h : ∀ n ∈ parents, r.store.Awaits n) :
    (nodeIds parents).foldl c.composeNext r =
      ((parents.map c.fetchFragment).foldl addFragment r).asked
        (parents.filterMap (·.subflowId?)) := by
  induction parents generalizing r with
  | nil => simp [nodeIds, CompositionReport.asked]
  | cons n parents ih =>
    obtain ⟨hfresh, hnodup⟩ : n.id ∉ nodeIds parents ∧ (nodeIds parents).Nodup :=
      List.nodup_cons.1 hnodup
    let later := (addFragment r (c.fetchFragment n)).asked n.subflowId?.toList
    -- the nodes whose turn is still to come have other ids, so they go on waiting
    have hlater : ∀ m ∈ parents, later.store.Awaits m := by
      intro m hm
      apply awaits_addFragment (h m (List.mem_cons_of_mem _ hm))
      exact fun heq => hfresh (heq ▸ List.mem_map_of_mem hm)
    calc (nodeIds (n :: parents)).foldl c.composeNext r
        = (nodeIds parents).foldl c.composeNext later :=
          congrArg (fun r => (nodeIds parents).foldl c.composeNext r)
            (c.composeNext_of_awaits (h n List.mem_cons_self))
      _ = ((parents.map c.fetchFragment).foldl addFragment later).asked
            (parents.filterMap (·.subflowId?)) := ih hnodup hlater
      _ = (((n :: parents).map c.fetchFragment).foldl addFragment r).asked
            ((n :: parents).filterMap (·.subflowId?)) := by
          rw [foldl_addFragment_asked, filterMap_cons_append]
          simp only [CompositionReport.asked, List.append_assoc, List.map_cons, List.foldl_cons]

theorem store_composeNext (c : Composer) (r : CompositionReport) (p : String) :
    (c.composeNext r p).store = (c.compose r.store p).store := by
  rw [composeNext]
  cases (c.compose r.store p).result <;> rfl

theorem store_foldl_composeNext (c : Composer) (r : CompositionReport) (parents : List String) :
    (parents.foldl c.composeNext r).store = r.store.editAll (parents.map (.compose c)) := by
  induction parents generalizing r with
  | nil => rfl
  | cons p parents ih =>
    rw [List.foldl_cons, ih, store_composeNext]
    rfl

end Composer

/-- Composing all pending flows does what composing them one after the other in node order does: the
store, the notices, the successes, the failures and the ids that the source was asked for are the
same. -/
theorem composeAll_eq_foldl_composeNext (c : Composer) (s : Store)
    (hnodup : (nodeIds s.graph.nodes).Nodup) :
    let parents := s.pendingSubflows.map (·.id)
    c.composeAll s = parents.foldl c.composeNext { store := s } ∧
      (c.composeAll s).store = s.editAll (parents.map (.compose c)) := by
  intro parents
  have hpending : (nodeIds s.pendingSubflows).Nodup :=
    (List.filter_sublist.map _).nodup hnodup
  have hawaits : ∀ n ∈ s.pendingSubflows, s.Awaits n :=
    fun n => Store.awaits_of_mem_pendingSubflows hnodup
  have hall : c.composeAll s = parents.foldl c.composeNext { store := s } :=
    (c.composeAll_eq s).trans <| (Composer.foldl_addFragment_asked { store := s } _ _).trans
      (c.foldl_composeNext hpending hawaits).symm
  refine ⟨hall, ?_⟩
  rw [hall, Composer.store_foldl_composeNext]

/-- Of three pending flows the second one is missing. -/
theorem composeAll_beside_missing_flow :
    let composer : Composer := {
      source := fun id =>
        if id = "f" then .ok (.graph ⟨[{ id := "a" }, { id := "b" }], []⟩)
        else .error (.notFound id) }
    let s : Store := .ofGraph ⟨[{ id := "p", config := [(subflowKey, .str "f")] },
      { id := "q", config := [(subflowKey, .str "g")] },
      { id := "r", config := [(subflowKey, .str "f")] }], []⟩
    let report := composer.composeAll s
    (nodeIds s.graph.nodes).Nodup ∧ report.composed.map (·.1) = ["p", "r"] ∧
      report.failed = [.fetch "q" "g" (.notFound "g")] ∧
      (report.store.graph.nodes.drop 3).map (fun n => (n.id, n.parent)) =
        [("p__a", some "p"), ("p__b", some "p"), ("r__a", some "r"), ("r__b", some "r")] ∧
      report = ["p", "q", "r"].foldl composer.composeNext { store := s } := by
  intro composer s report
  have hnodup : (nodeIds s.graph.nodes).Nodup := by decide
  obtain ⟨hreport, -⟩ := composeAll_eq_foldl_composeNext composer s hnodup
  exact ⟨hnodup, rfl, rfl, rfl, hreport⟩

end StepFlow
