import StepFlow.Proofs.Plan.Navigation
import StepFlow.Proofs.Plan.Reachable
import StepFlow.Proofs.Run.Candidate
import StepFlow.Proofs.Run.Saving

/-!
# What the backend sees is what was saved

A request holds the flow five times over: as nodes, as steps, as the step to execute, as the state
of the flow and in its metadata. They are put together after the flow was saved, and the save may have
given the flow its id. Over a repository in memory all of them agree with each other, with the store
and with the entry that was saved.

## Main definitions

* `StepRequest.Shows`: a request agrees with a store and with the entry of its flow.

## Main statements

* `Plan.get?_eq_some_iff_mem_resolve`: the planned step with an id, found among all steps.
* `Run.request_shows`: the request that is made after a save.
* `Run.exchange_shows_saved`: what that means for approvals.
-/

namespace StepFlow

/-- If the ids of nodes are distinct, looking up an id in a plan gives the step of the graph with
this id, provided that the step is planned. -/
theorem Plan.get?_eq_some_iff_mem_resolve {plan : Plan} {nodes : List Node} {edges : List Edge}
    {id : String} {s : Step} (h : linearize nodes edges = .ok plan)
    (hdistinct : (nodeIds nodes).Nodup) :
    plan.get? id = some s ↔ s ∈ resolve nodes edges ∧ s.id = id ∧ id ∈ plan.ids := by
  rw [get?_eq_some_iff (nodup_ids h)]
  constructor
  · rintro ⟨hs, rfl⟩
    exact ⟨mem_resolve_of_mem_plan h hs, rfl, List.mem_map_of_mem hs⟩
  · rintro ⟨hs, rfl, hplanned⟩
    exact ⟨mem_plan_of_mem_resolve h hdistinct hs hplanned, rfl⟩

/-- Whether a request shows the flow of a store with its plan as it is, as it is stored under an id,
and the same wherever it shows it. -/
structure StepRequest.Shows (q : StepRequest) (store : Store) (plan : Plan) (id : String)
    (entry : Entry) : Prop where
  nodes_eq : q.nodes = store.graph.nodes
  edges_eq : q.flow.edges = store.graph.edges
  saved_graph : entry.flow = .graph ⟨q.nodes, q.flow.edges⟩
  steps_eq : q.steps = resolve q.nodes q.flow.edges
  flow_steps : q.flow.steps = q.steps
  flow_current : q.flow.current = q.stepId
  saved_current : entry.current = some q.stepId
  current_iff : ∀ s, q.current = some s ↔ s ∈ q.steps ∧ s.id = q.stepId ∧ q.stepId ∈ plan.ids
  current_none : q.current = none ↔ q.stepId ∉ plan.ids
  flowIds : q.flowId = some id ∧ q.flow.flowId = some id ∧ q.metadata.flowId = some id
  names : q.flow.name = entry.name ∧ q.metadata.name = entry.name
  context_eq : q.context = store.context

namespace Run

variable {σ : Type}

/-- The request that is made when a flow has just been saved shows the flow as it was saved. -/
theorem request_shows {r : Run} {plan : Plan} (hplan : r.store.graph.plan = .ok plan)
    (hdistinct : (nodeIds r.store.graph.nodes).Nodup) (settings : Settings) (step id : String)
    (repository : Repository) (now : Timestamp) :
    ({ r with store := r.store.setFlowId id }.request settings plan step now).Shows r.store plan id
      (Repository.entryFor repository id (r.record settings step)) where
  nodes_eq := rfl
  edges_eq := rfl
  saved_graph := rfl
  steps_eq := rfl
  flow_steps := rfl
  flow_current := rfl
  saved_current := rfl
  current_iff _ := Plan.get?_eq_some_iff_mem_resolve hplan hdistinct
  current_none := Plan.get?_eq_none_iff (nodup_ids hplan)
  flowIds := ⟨rfl, rfl, rfl⟩
  names := ⟨rfl, rfl⟩
  context_eq := rfl

/-- A run in any state over a repository, whose nodes have different ids. An approval makes one
request if a step is pending and the graph has a plan, and only then. The request is for the pending
step. It shows the flow of the store and its results as they were before the step, and the flow as
the same approval saved it, under the id that the flow had or else got by this. -/
theorem exchange_shows_saved (host : Host σ) (newId : σ → String × σ) (r : Run)
    (repository : Repository) (rest : σ) (hdistinct : (nodeIds r.store.graph.nodes).Nodup)
    (now : Timestamp) :
    let memory := host.inMemory newId
    let approved := r.approve memory now (repository, rest)
    let exchanges := r.exchanges memory (repository, rest) (.approve now)
    (∀ step plan, r.state.pending? = some step → r.store.graph.plan = .ok plan →
      ∃ x, exchanges = [x]) ∧
    ∀ x ∈ exchanges, ∃ id entry plan,
      r.state.pending? = some x.request.stepId ∧ r.store.graph.plan = .ok plan ∧
      (r.store.flowId = none ∨ r.store.flowId = some id) ∧
      approved.1.run.store.flowId = some id ∧ approved.2.1 = repository.insert id entry ∧
      x.request.Shows r.store plan id entry := by
  intro memory approved exchanges
  constructor
  · intro step plan hpending hplan
    obtain ⟨result, hstate⟩ := RunState.exists_of_pending? hpending
    obtain ⟨later, hsave⟩ := persist_inMemory host newId r step repository rest
    exact exists_exchange now hstate (saves_of_persist hsave) hplan
  · intro x hx
    obtain ⟨step, result, saved, later, plan, hstate, hsave, hplan, hrequest⟩ := of_mem_exchanges hx
    obtain ⟨world, hpersist⟩ := persist_inMemory host newId r step repository rest
    obtain ⟨hid, -, hworld⟩ := approve_inMemory hstate host newId now repository rest
    rw [hpersist] at hsave
    cases hsave
    have hplan : r.store.graph.plan = .ok plan := hplan
    rw [hrequest]
    exact ⟨r.savedId newId rest, _, plan, congrArg RunState.pending? hstate, hplan,
      r.flowId_eq_none_or_savedId newId rest, hid, hworld,
      request_shows hplan hdistinct host.settings step _ repository now⟩

/-- A flow without an id is saved under a new one, and the request for its first step has it. -/
theorem exchange_shows_saved_of_unsaved :
    let newId : Unit → String × Unit := fun world => ("f", world)
    let memory := Host.following.inMemory newId
    let graph : Graph := ⟨[{ id := "a" }, { id := "b" }], [⟨"1", "a", "b", none⟩]⟩
    let r : Run := { store := .ofGraph graph, state := .awaitingApproval "a" none }
    r.store.flowId = none ∧ (nodeIds graph.nodes).Nodup ∧
      ∃ x, r.exchanges memory (.empty, ()) (.approve .epoch) = [x] ∧ ∃ id entry,
        x.request.stepId = "a" ∧ x.request.flowId = some id ∧ x.request.current.isSome ∧
        (r.approve memory .epoch (.empty, ())).2.1 = KeyMap.empty.insert id entry ∧
        entry.name = x.request.metadata.name ∧ entry.flow = .graph graph := by
  intro newId memory graph r
  let plan : Plan := ⟨[0, 1].filterMap fun i => (graph.steps[i]? : Option Step)⟩
  have hplan : r.store.graph.plan = .ok plan :=
    (linearize_eq_of_iterate_round graph.nodes graph.edges (by decide) 3 rfl).trans rfl
  have hdistinct : (nodeIds graph.nodes).Nodup := by decide
  obtain ⟨hsent, hshown⟩ :=
    exchange_shows_saved .following newId r .empty () hdistinct .epoch
  obtain ⟨x, hx⟩ := hsent "a" plan rfl hplan
  obtain ⟨id, entry, planned, hpending, hsame, -, -, hstored, hshows⟩ :=
    hshown x (by rw [hx]; exact List.mem_singleton_self x)
  rw [hplan] at hsame
  cases hsame
  have hstep : x.request.stepId = "a" := (Option.some.inj hpending).symm
  have hplanned : x.request.stepId ∈ plan.ids := hstep ▸ List.mem_cons_self
  have hgraph := hshows.saved_graph
  rw [hshows.nodes_eq, hshows.edges_eq] at hgraph
  exact ⟨rfl, hdistinct, x, hx, id, entry, hstep, hshows.flowIds.1,
    Option.isSome_iff_ne_none.2 fun hnone => hshows.current_none.1 hnone hplanned,
    hstored, hshows.names.2.symm, hgraph⟩

end Run

end StepFlow
