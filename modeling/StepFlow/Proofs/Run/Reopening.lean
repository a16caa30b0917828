import StepFlow.Proofs.Plan.Rounds
import StepFlow.Proofs.Run.Open
import StepFlow.Proofs.Run.Saving
import StepFlow.Proofs.Store.Revision

/-!
# Opening a flow again

Loading a flow adds the chain of its layout, and a save writes the chain back. What was chained once
gains nothing from the same chain, whatever ids its edges have, so the graph does not change any
more. The stored step is the one before which the flow was saved last, and a run resumes there.

## Main definitions

* `Graph.Chained`: a graph to which the chain of its layout adds nothing.
* `Run.savedSteps`: the steps before which the flow is saved while commands are carried out.
* `Run.Kept`: a run whose flow is in the repository as the run has it.

## Main statements

* `Store.chained_load`: every loaded graph is chained.
* `Run.Kept.perform`: no command but an edit or another flow changes this.
* `Run.reopen_stable`: what is loaded when the flow is opened again.
-/

namespace StepFlow

/-- Whether the chain of the layout adds nothing to a graph. -/
def Graph.Chained (g : Graph) : Prop :=
  g.merge ⟨[], sequentialChain g.nodes⟩ = g

theorem Graph.merge_again (g more : Graph) : (g.merge more).merge more = g.merge more := by
  refine Graph.ext ?_ ?_
  · simp only [nodes_merge, newcomers_again Node.clashes_self, List.append_nil]
  · simp only [edges_merge, newcomers_again Edge.clashes_self, List.append_nil]

theorem Store.chained_load (flowId : String) (flow : PersistedFlow) :
    (load flowId flow).graph.Chained := by
  have hnodes : (load flowId flow).graph.nodes = flow.nodes := rfl
  rw [Graph.Chained, hnodes, graph_load]
  exact Graph.merge_again _ _

theorem Graph.Chained.load {g : Graph} (h : g.Chained) (flowId : String) {flow : PersistedFlow}
    (hflow : flow.graph = g) : (Store.load flowId flow).graph = g := by
  have hnodes : flow.nodes = g.nodes := congrArg Graph.nodes hflow
  rw [Store.graph_load, hflow, hnodes]
  exact h

namespace Run

variable {σ : Type} {host : Host σ} {newId : σ → String × σ} {r : Run} {c : Command}
  {repository : Repository} {rest : σ} {flowId step : String} {graph : Graph} {saved : List String}

/-- The step before which a command saves the flow. -/
def savedStep? (host : Host σ) (r : Run) (world : σ) : Command → Option String
  | .approve _ => r.state.pending?.filter fun step => (r.persist host step world).1.isOk
  | _ => none

/-- The steps before which the flow is saved while commands are carried out, in their order. -/
def savedSteps (host : Host σ) : Run → σ → List Command → List String
  | _, _, [] => []
  | r, world, c :: commands =>
    (r.savedStep? host world c).toList ++
      savedSteps host (r.perform host world c).1.run (r.perform host world c).2 commands

/-- Whether a run has the flow with an id and the given graph, and the repository has an entry for
it from which this graph is loaded, with the step before which it was saved last. -/
structure Kept (r : Run) (repository : Repository) (flowId : String) (graph : Graph)
    (saved : List String) : Prop where
  id_eq : r.store.flowId = some flowId
  graph_eq : r.store.graph = graph
  stored : ∃ entry, repository.get? flowId = some entry ∧
    (Store.load flowId entry.toPersisted).graph = graph ∧
    ∀ step, saved.getLast? = some step → entry.current = some step

theorem savedStep?_of_quiet (h : r.Quiet c) (host : Host σ) (world : σ) :
    r.savedStep? host world c = none := by
  cases c with
  | approve now => rw [savedStep?, h now rfl, Option.filter_none]
  | _ => rfl

theorem savedStep?_inMemory {result : Option Json.Value}
    (hstate : r.state = .awaitingApproval step result) (host : Host σ) (newId : σ → String × σ)
    (now : Timestamp) (repository : Repository) (rest : σ) :
    r.savedStep? (host.inMemory newId) (repository, rest) (.approve now) = some step := by
  obtain ⟨later, hsave⟩ := persist_inMemory host newId r step repository rest
  simp only [savedStep?, hstate, RunState.pending?, hsave, Option.filter]
  rfl

/-- A command that leaves the flow alone loads to the same graph after it as before, and what it
saves is stored. -/
theorem Kept.perform (h : r.Kept repository flowId graph saved) (hchained : graph.Chained)
    (hkeeps : c.keepsFlow = true) (host : Host σ) (newId : σ → String × σ) (rest : σ) :
    let performed := r.perform (host.inMemory newId) (repository, rest) c
    performed.1.run.Kept performed.2.1 flowId graph
      (saved ++ (r.savedStep? (host.inMemory newId) (repository, rest) c).toList) := by
  intro performed
  rcases r.approves_or_quiet c with ⟨now, step, result, rfl, hstate⟩ | hquiet
  · obtain ⟨hid, hgraph, hworld⟩ := approve_inMemory hstate host newId now repository rest
    have hsame : r.savedId newId rest = flowId := by rw [savedId, h.id_eq, Option.getD_some]
    have hworld : performed.2.1 = r.savedIn host newId step repository rest := hworld
    rw [savedStep?_inMemory hstate host newId now repository rest]
    refine ⟨hid.trans (congrArg some hsame), hgraph.trans h.graph_eq, ?_⟩
    refine ⟨Repository.entryFor repository flowId (r.record host.settings step), ?_, ?_, ?_⟩
    · rw [hworld, ← hsame]
      exact get?_savedIn host newId r step repository rest
    · exact hchained.load flowId h.graph_eq
    · intro last hlast
      rw [Option.toList_some, List.getLast?_concat] at hlast
      exact hlast
  · obtain ⟨hid, hgraph, hworld⟩ :=
      perform_of_keepsFlow hquiet hkeeps (host.inMemory newId) (repository, rest)
    have hworld : performed.2.1 = repository := congrArg Prod.fst hworld
    rw [savedStep?_of_quiet hquiet, Option.toList_none, List.append_nil, hworld]
    exact ⟨hid.trans h.id_eq, hgraph.trans h.graph_eq, h.stored⟩

theorem Kept.performAll (h : r.Kept repository flowId graph saved) (hchained : graph.Chained)
    {commands : List Command} (hkeeps : ∀ c ∈ commands, c.keepsFlow = true) (host : Host σ)
    (newId : σ → String × σ) (rest : σ) :
    let after := performAll (host.inMemory newId) r (repository, rest) commands
    after.1.Kept after.2.1 flowId graph
      (saved ++ savedSteps (host.inMemory newId) r (repository, rest) commands) := by
  induction commands generalizing r repository rest saved with
  | nil =>
    intro after
    rw [savedSteps, List.append_nil]
    exact h
  | cons c commands ih =>
    obtain ⟨hc, hcommands⟩ := List.forall_mem_cons.1 hkeeps
    intro after
    rw [savedSteps, ← List.append_assoc]
    exact ih (h.perform hchained hc host newId rest) hcommands _

/-- Opening a flow of the repository starts all over with it and changes nothing else. -/
theorem reopen_inMemory {entry : Entry} (hentry : repository.get? flowId = some entry)
    (host : Host σ) (newId : σ → String × σ) (r : Run) (rest : σ) :
    r.reopen (host.inMemory newId) flowId (repository, rest) =
      ({ answer := .ok (), run := { store := .load flowId entry.toPersisted } },
        (repository, rest)) := by
  refine r.reopen_of_load rfl ?_
  simp only [Repository.storage, Repository.load, hentry]

/-- A run whose stored step is planned starts with it. -/
theorem start_of_stored {plan : Plan} (hplan : r.store.graph.plan = .ok plan)
    (hcurrent : r.store.pointers.current = some step) (hplanned : plan.contains step = true)
    (now : Timestamp) :
    (r.start now).answer = .ok step ∧
      (r.start now).run.state = .awaitingApproval step none ∧
      (r.start now).run.store.pointers = ⟨some step, (plan.following? step).map (·.id)⟩ := by
  have hentry : r.entry? plan = some step := by
    unfold entry?
    rw [hcurrent, Option.filter_some, if_pos hplanned]
    rfl
  rw [start_of_entry now hplan hentry]
  refine ⟨?_, rfl, rfl⟩
  simp only [start, hplan, hentry]

/-- A run opens a flow of the repository and carries out any commands that leave the flow alone. If
the flow is opened again, over the same repository but by any run in any surroundings, it has the
same nodes and edges in the same order. If it was saved last before a step of the plan, the run that
opened it again starts with that step, and with the next one of the plan. -/
theorem reopen_stable (host : Host σ) (newId : σ → String × σ) (r : Run) (repository : Repository)
    (rest : σ) {flowId : String} {entry : Entry} (hentry : repository.get? flowId = some entry)
    (commands : List Command) (hkeeps : ∀ c ∈ commands, c.keepsFlow = true) :
    let memory := host.inMemory newId
    let opened := r.reopen memory flowId (repository, rest)
    let after := performAll memory opened.1.run opened.2 commands
    opened.1.answer = .ok () ∧
    ∀ {τ : Type} (other : Host τ) (otherId : τ → String × τ) (r' : Run) (world : τ),
      let again := r'.reopen (other.inMemory otherId) flowId (after.2.1, world)
      again.1.answer = .ok () ∧
      again.1.run.store.graph = opened.1.run.store.graph ∧
      ∀ plan step now, opened.1.run.store.graph.plan = .ok plan →
        (savedSteps memory opened.1.run opened.2 commands).getLast? = some step →
        plan.contains step = true →
        (again.1.run.start now).answer = .ok step ∧
          (again.1.run.start now).run.state = .awaitingApproval step none ∧
          (again.1.run.start now).run.store.pointers =
            ⟨some step, (plan.following? step).map (·.id)⟩ := by
  intro memory opened after
  have hopened : opened = _ := reopen_inMemory hentry host newId r rest
  let graph := (Store.load flowId entry.toPersisted).graph
  have hgraph : opened.1.run.store.graph = graph := by rw [hopened]
  have hkept : opened.1.run.Kept repository flowId graph [] := by
    refine ⟨by rw [hopened]; rfl, hgraph, entry, hentry, rfl, ?_⟩
    intro step hnone
    cases hnone
  have hworld : opened.2 = (repository, rest) := by rw [hopened]
  have hafter : after.1.Kept after.2.1 flowId graph
      (savedSteps memory opened.1.run opened.2 commands) := by
    simp only [after, hworld]
    exact hkept.performAll (Store.chained_load flowId _) hkeeps host newId rest
  obtain ⟨last, hlast, hload, hcurrent⟩ := hafter.stored
  refine ⟨by rw [hopened], fun {τ} other otherId r' world => ?_⟩
  intro again
  have hagain : again = _ := reopen_inMemory hlast other otherId r' world
  have hsame : again.1.run.store.graph = opened.1.run.store.graph := by
    rw [hagain, hgraph]
    exact hload
  refine ⟨by rw [hagain], hsame, ?_⟩
  intro plan step now hplan hsaved hplanned
  refine start_of_stored (hsame ▸ hplan) ?_ hplanned now
  rw [hagain]
  exact hcurrent step hsaved

/-- A flow of two steps, one of which was approved before the flow is opened again. -/
theorem reopen_stable_after_approval :
    let flow : Graph := ⟨[{ id := "a" }, { id := "b" }], [⟨"1", "a", "b", none⟩]⟩
    let entry : Entry := { name := "f", flow := .graph flow }
    let repository : Repository := KeyMap.empty.insert "f" entry
    let host : Host Unit := {
      storage := none
      execute := fun _ world => (.ok (.finished .null), world)
      registry := none
      settings := {} }
    let memory := host.inMemory fun world => ("g", world)
    let commands : List Command := [.start .epoch, .approve .epoch]
    let opened := reopen {} memory "f" (repository, ())
    let after := performAll memory opened.1.run opened.2 commands
    let again := reopen {} memory "f" after.2
    repository.get? "f" = some entry ∧ (∀ c ∈ commands, c.keepsFlow = true) ∧
      again.1.answer = .ok () ∧ again.1.run.store.graph = flow ∧
      (again.1.run.start .epoch).answer = .ok "a" ∧
      (again.1.run.start .epoch).run.store.pointers = ⟨some "a", some "b"⟩ := by
  intro flow entry repository host memory commands opened after again
  have hentry : repository.get? "f" = some entry := rfl
  have hkeeps : ∀ c ∈ commands, c.keepsFlow = true := by simp [commands, Command.keepsFlow]
  have hopened : opened = _ := reopen_inMemory hentry host _ {} ()
  -- the chain of the layout has the ends of the stored edge
  have hgraph : opened.1.run.store.graph = flow := by
    have horder : layoutOrder flow.nodes = flow.nodes := layoutOrder_of_level (by simp [flow])
    have hchain : sequentialChain flow.nodes = [.sequential "a" "b"] := by
      rw [sequentialChain, layoutEdges, horder]
      rfl
    rw [hopened]
    refine Graph.ext rfl ((Store.edges_load "f" entry.toPersisted).trans ?_)
    show flow.edges ++ newcomers Edge.clashes flow.edges (sequentialChain flow.nodes) = _
    rw [hchain]
    rfl
  obtain ⟨plan, hplan, hfirst, hplanned, hnext⟩ : ∃ plan,
      opened.1.run.store.graph.plan = .ok plan ∧ Run.entry? opened.1.run plan = some "a" ∧
        plan.contains "a" = true ∧ (plan.following? "a").map (·.id) = some "b" := by
    rw [hgraph, hopened]
    exact ⟨_, linearize_eq_of_iterate_round flow.nodes flow.edges (by decide) 3 rfl, rfl, rfl, rfl⟩
  have hsaved : savedSteps memory opened.1.run opened.2 commands = ["a"] := by
    have hstate : (opened.1.run.start .epoch).run.state = .awaitingApproval "a" none := by
      rw [start_of_entry .epoch hplan hfirst]
    have hstep := savedStep?_inMemory hstate host (fun world => ("g", world)) .epoch
      opened.2.1 opened.2.2
    show (savedStep? memory (opened.1.run.start .epoch).run opened.2 (.approve .epoch)).toList ++
      [] = _
    rw [hstep]
    rfl
  obtain ⟨-, hagain⟩ := reopen_stable host (fun world => ("g", world)) {} repository () hentry
    commands hkeeps
  obtain ⟨hanswer, hsame, hresume⟩ := hagain host (fun world => ("g", world)) {} after.2.2
  obtain ⟨hstart, -, hpointers⟩ :=
    hresume plan "a" .epoch hplan (congrArg List.getLast? hsaved) hplanned
  exact ⟨hentry, hkeeps, hanswer, hsame.trans hgraph, hstart, hnext ▸ hpointers⟩

end Run

end StepFlow
