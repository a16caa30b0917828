import StepFlow.Proofs.Layout.Roots
import StepFlow.Proofs.Run.Candidate

/-!
# Opening flows

A flow that is loaded gets the chain of its layout in addition to its stored edges. The chain enters
each node but the topmost one. So a flow without a trigger can be run after it was opened only if
no stored edge points up at its topmost node, or if an edge of the chain had to be left out because
of its id.

## Main statements

* `Store.isRoot_load_iff`: from which nodes a walk starts after loading.
* `plan_after_load`: when a flow has a plan after loading.
-/

namespace StepFlow

namespace Store

variable {flow : PersistedFlow} {n : Node}

theorem edges_load (flowId : String) (flow : PersistedFlow) :
    (load flowId flow).graph.edges =
      flow.edges ++ newcomers Edge.clashes flow.edges (sequentialChain flow.nodes) :=
  congrArg Prod.fst (mergeEdges_eq flow.edges (sequentialChain flow.nodes))

/-- After loading a walk starts from the triggers and from those nodes that no stored edge enters
and that are topmost or whose edge of the chain is barred. -/
theorem isRoot_load_iff (flowId : String) (hnodup : (nodeIds flow.nodes).Nodup)
    (hn : n ∈ flow.nodes) :
    IsRoot (load flowId flow).graph.edges n ↔ n.isTrigger ∨
      (∀ e ∈ flow.edges, e.target ≠ n.id) ∧ ((layoutOrder flow.nodes).head? = some n ∨
        ∃ e ∈ sequentialChain flow.nodes, e.target = n.id ∧
          e.Barred (load flowId flow).graph.edges) := by
  rw [edges_load, isRoot_append_newcomers_iff]
  simp only [mem_sequentialChain, forall_entering_iff hnodup hn]

theorem exists_plan_load_iff (flowId : String) (hnodup : (nodeIds flow.nodes).Nodup) :
    (∃ plan, (load flowId flow).graph.plan = .ok plan) ↔ (∃ n ∈ flow.nodes, n.isTrigger) ∨
      (∃ top, (layoutOrder flow.nodes).head? = some top ∧ ∀ e ∈ flow.edges, e.target ≠ top.id) ∨
      ∃ e ∈ sequentialChain flow.nodes, (∀ stored ∈ flow.edges, stored.target ≠ e.target) ∧
        e.Barred (load flowId flow).graph.edges := by
  rw [Graph.plan, exists_plan_iff]
  constructor
  · rintro ⟨n, hn, hroot⟩
    rcases (isRoot_load_iff flowId hnodup hn).1 hroot with
      htrigger | ⟨hstored, htop | ⟨e, he, htarget, hbarred⟩⟩
    · exact .inl ⟨n, hn, htrigger⟩
    · exact .inr (.inl ⟨n, htop, hstored⟩)
    · exact .inr (.inr ⟨e, he, htarget ▸ hstored, hbarred⟩)
  · rintro (⟨n, hn, htrigger⟩ | ⟨top, htop, hstored⟩ | ⟨e, he, hstored, hbarred⟩)
    · exact ⟨n, hn, .inl htrigger⟩
    · have hn : top ∈ flow.nodes := mem_of_head?_layoutOrder htop
      exact ⟨top, hn, (isRoot_load_iff flowId hnodup hn).2 (.inr ⟨hstored, .inl htop⟩)⟩
    · obtain ⟨a, -, n, hn, rfl⟩ := mem_layoutEdges (mem_sequentialChain.1 he)
      exact ⟨n, hn, (isRoot_load_iff flowId hnodup hn).2
        (.inr ⟨hstored, .inr ⟨_, he, rfl, hbarred⟩⟩)⟩

end Store

theorem Run.exists_start_iff (r : Run) (now : Timestamp) :
    (∃ step, (r.start now).answer = .ok step) ↔ ∃ plan, r.store.graph.plan = .ok plan := by
  constructor
  · rintro ⟨step, hstep⟩
    unfold start at hstep
    split at hstep
    · cases hstep
    · next plan hplan => exact ⟨plan, hplan⟩
  · intro h
    obtain ⟨plan, hplan, hne⟩ := exists_plan (exists_plan_iff.1 h)
    obtain ⟨-, entry, hentry, -⟩ := r.exists_entry hne
    have hplan : r.store.graph.plan = .ok plan := hplan
    exact ⟨entry, by rw [start, hplan]; simp only [hentry]⟩

theorem Run.reopen_of_load {host : Host σ} {storage : Storage σ} {flowId : String}
    {flow : PersistedFlow} {world later : σ} (r : Run) (hstorage : host.storage = some storage)
    (hload : storage.load flowId world = (.ok flow, later)) :
    r.reopen host flowId world =
      ({ answer := .ok (), run := { store := .load flowId flow } }, later) := by
  rw [reopen, hstorage]
  simp only [hload]

/-- A flow whose nodes have distinct ids has a plan after loading if and only if it has a trigger,
or no stored edge enters the topmost node of its layout, or no stored edge enters a node whose edge
of the chain is barred. A run that opens the flow can be started under just these conditions. -/
theorem plan_after_load (flowId : String) (flow : PersistedFlow)
    (hnodup : (nodeIds flow.nodes).Nodup) :
    let loaded := (Store.load flowId flow).graph
    ((∃ plan, loaded.plan = .ok plan) ↔ (∃ n ∈ flow.nodes, n.isTrigger) ∨
      (∃ top, (layoutOrder flow.nodes).head? = some top ∧ ∀ e ∈ flow.edges, e.target ≠ top.id) ∨
      ∃ e ∈ sequentialChain flow.nodes, (∀ stored ∈ flow.edges, stored.target ≠ e.target) ∧
        e.Barred loaded.edges) ∧
    ∀ {σ : Type} (host : Host σ) (storage : Storage σ) (r : Run) (world later : σ)
      (now : Timestamp), host.storage = some storage →
      storage.load flowId world = (.ok flow, later) →
      let opened := (r.reopen host flowId world).1
      opened.answer = .ok () ∧ opened.run.store.graph = loaded ∧
        ((∃ step, (opened.run.start now).answer = .ok step) ↔
          ∃ plan, loaded.plan = .ok plan) := by
  intro loaded
  constructor
  · exact Store.exists_plan_load_iff flowId hnodup
  · intro σ host storage r world later now hstorage hload opened
    have hopened := r.reopen_of_load hstorage hload
    have hrun : opened.run = { store := .load flowId flow } := by simp only [opened, hopened]
    refine ⟨by simp only [opened, hopened], by rw [hrun], ?_⟩
    rw [Run.exists_start_iff, hrun]

/-- Two steps that are joined downwards. -/
theorem plan_after_load_of_downward_edge :
    let flow : PersistedFlow := {
      nodes := [{ id := "a" }, { id := "b" }], edges := [⟨"1", "a", "b", none⟩] }
    let host : Host Unit := {
      storage := some ⟨fun id _ world => (.ok (id.getD "new"), world),
        fun _ world => (.ok flow, world)⟩
      execute := fun request world => (.ok ⟨request.candidate, .null, .null⟩, world)
      registry := none
      settings := {} }
    let opened := (Run.reopen {} host "f" ()).1
    (nodeIds flow.nodes).Nodup ∧ opened.answer = .ok () ∧
      ∃ step, (opened.run.start .epoch).answer = .ok step := by
  intro flow host opened
  have hnodup : (nodeIds flow.nodes).Nodup := by decide
  have horder : layoutOrder flow.nodes = flow.nodes := layoutOrder_of_level (by simp [flow])
  obtain ⟨hplan, hopen⟩ := plan_after_load "f" flow hnodup
  obtain ⟨hanswer, -, hstart⟩ := hopen host _ {} () () .epoch rfl rfl
  refine ⟨hnodup, hanswer, hstart.2 (hplan.2 (.inr (.inl ⟨{ id := "a" }, ?_, by decide⟩)))⟩
  rw [horder]
  rfl

/-- A flow that was drawn upwards has a plan in storage and none after loading. -/
theorem plan_lost_by_load :
    let flow : PersistedFlow := {
      nodes := [{ id := "a" }, { id := "b" }], edges := [⟨"1", "b", "a", none⟩] }
    (nodeIds flow.nodes).Nodup ∧ (∃ plan, linearize flow.nodes flow.edges = .ok plan) ∧
      ∀ plan, (Store.load "f" flow).graph.plan ≠ .ok plan := by
  intro flow
  have horder : layoutOrder flow.nodes = flow.nodes := layoutOrder_of_level (by simp [flow])
  have hedges : (Store.load "f" flow).graph.edges = flow.edges ++ [.sequential "a" "b"] := by
    rw [Store.edges_load, sequentialChain, layoutEdges, horder]
    rfl
  refine ⟨by decide, exists_plan_iff.2 ⟨{ id := "b" }, by simp [flow], .inr (by decide)⟩, ?_⟩
  intro plan hplan
  obtain ⟨n, hn, hroot⟩ := exists_plan_iff.1 ⟨plan, hplan⟩
  rw [hedges] at hroot
  have hentered : ∀ n ∈ flow.nodes, n.isTrigger = false ∧
      ∃ e ∈ flow.edges ++ [.sequential "a" "b"], e.target = n.id := by
    decide
  exact not_isRoot_iff.2 (hentered n hn) hroot

end StepFlow
