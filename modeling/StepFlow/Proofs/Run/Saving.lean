import StepFlow.Proofs.Plan.Rounds
import StepFlow.Proofs.Run.InMemory

/-!
# One entry for each run

A run whose flow has no id gets one at its first save, over a repository the id of a new entry. From
then on the run has the id, whatever becomes of the step, and every save goes to that entry. So a
run leaves the repository as it was, or with one new entry.

## Main definitions

* `Repository.Gained`: what a new run makes of a repository.

## Main statements

* `Run.gained_perform`: every command keeps it so.
* `Run.flowId_performAll`: a run that has an id keeps it.
* `Run.saves_go_to_one_entry`: what that means after any commands to a new run.
-/

namespace StepFlow

/-- What a run with the given flow id has made of a repository: without an id it has not saved
anything, and else it has added the entry with its id. -/
inductive Repository.Gained (before : Repository) : Option String → Repository → Prop
  | unsaved : Gained before none before
  | saved {id : String} {entry : Entry} (hnew : before.get? id = none) :
      Gained before (some id) (before.insert id entry)

namespace Repository.Gained

variable {before after : Repository} {flowId : Option String} {id other : String}

theorem size_le (h : before.Gained flowId after) : after.size ≤ before.size + 1 := by
  cases h with
  | unsaved => omega
  | saved => exact before.size_insert_le _ _

theorem get?_of_ne (h : before.Gained flowId after) (hne : flowId ≠ some other) :
    after.get? other = before.get? other := by
  cases h with
  | unsaved => rfl
  | saved => rw [KeyMap.get?_insert, if_neg fun heq => hne (congrArg some heq.symm)]

theorem new (h : before.Gained (some id) after) :
    before.get? id = none ∧ ∃ entry, after.get? id = some entry := by
  cases h with
  | saved hnew => exact ⟨hnew, _, by rw [KeyMap.get?_insert, if_pos rfl]⟩

/-- Saving again replaces the entry that was added. -/
theorem save (h : before.Gained flowId after) (hid : flowId = none → before.get? id = none)
    (hsame : flowId = none ∨ flowId = some id) (entry : Entry) :
    before.Gained (some id) (after.insert id entry) := by
  cases h with
  | unsaved => exact .saved (hid rfl)
  | saved hnew =>
    rcases hsame with hnone | hsome
    · cases hnone
    · cases hsome
      rw [KeyMap.insert_insert]
      exact .saved hnew

end Repository.Gained

namespace Run

variable {σ : Type} {newId : σ → String × σ} {r : Run} {c : Command}
  {before repository : Repository} {rest : σ} {id step : String}

theorem flowId_eq_none_or_savedId (newId : σ → String × σ) (r : Run) (rest : σ) :
    r.store.flowId = none ∨ r.store.flowId = some (r.savedId newId rest) := by
  rw [savedId]
  cases r.store.flowId with
  | none => exact .inl rfl
  | some id => exact .inr rfl

theorem get?_savedIn (host : Host σ) (newId : σ → String × σ) (r : Run) (step : String)
    (repository : Repository) (rest : σ) :
    let id := r.savedId newId rest
    (r.savedIn host newId step repository rest).get? id =
      some (Repository.entryFor repository id (r.record host.settings step)) := by
  intro id
  rw [savedIn, KeyMap.get?_insert, if_pos rfl]

/-- The flow that is loaded after a save is the one that was saved. -/
theorem load_savedIn (host : Host σ) (newId : σ → String × σ) (r : Run) (step : String)
    (repository : Repository) (rest : σ) :
    ∃ flow, Repository.load (r.savedIn host newId step repository rest) (r.savedId newId rest) =
        .ok flow ∧ flow.nodes = r.store.graph.nodes ∧ flow.edges = r.store.graph.edges ∧
      flow.current = some step := by
  rw [Repository.load, get?_savedIn]
  exact ⟨_, rfl, rfl, rfl, rfl⟩

theorem get?_savedIn_of_ne (host : Host σ) {other : String} (hne : other ≠ r.savedId newId rest) :
    (r.savedIn host newId step repository rest).get? other = repository.get? other := by
  rw [savedIn, KeyMap.get?_insert, if_neg hne]

/-- A command that leaves the id alone keeps it. -/
theorem flowId_perform (host : Host σ) (newId : σ → String × σ) (hkeeps : c.keepsId = true)
    (hid : r.store.flowId = some id) (repository : Repository) (rest : σ) :
    (r.perform (host.inMemory newId) (repository, rest) c).1.run.store.flowId = some id := by
  rcases r.approves_or_quiet c with ⟨now, step, result, rfl, hstate⟩ | hquiet
  · obtain ⟨hsaved, -⟩ := approve_inMemory hstate host newId now repository rest
    have hsame : r.savedId newId rest = id := by rw [savedId, hid, Option.getD_some]
    exact hsaved.trans (congrArg some hsame)
  · exact (perform_of_quiet hquiet hkeeps _ _).1.trans hid

theorem flowId_performAll (host : Host σ) (newId : σ → String × σ) {commands : List Command}
    (hkeeps : ∀ c ∈ commands, c.keepsId = true) (hid : r.store.flowId = some id)
    (world : Repository × σ) :
    (performAll (host.inMemory newId) r world commands).1.store.flowId = some id := by
  induction commands generalizing r world with
  | nil => exact hid
  | cons c commands ih =>
    obtain ⟨hc, hcommands⟩ := List.forall_mem_cons.1 hkeeps
    exact ih hcommands (flowId_perform host newId hc hid world.1 world.2) _

/-- A command saves the flow at most under the id of the run, or under a new one. -/
theorem gained_perform (host : Host σ) (hfresh : ∀ rest, before.get? (newId rest).1 = none)
    (hkeeps : c.keepsId = true) (h : before.Gained r.store.flowId repository) (rest : σ) :
    before.Gained (r.perform (host.inMemory newId) (repository, rest) c).1.run.store.flowId
      (r.perform (host.inMemory newId) (repository, rest) c).2.1 := by
  rcases r.approves_or_quiet c with ⟨now, step, result, rfl, hstate⟩ | hquiet
  · obtain ⟨hid, -, hworld⟩ := approve_inMemory hstate host newId now repository rest
    have hnew : r.store.flowId = none → before.get? (r.savedId newId rest) = none := by
      intro hnone
      rw [savedId, hnone]
      exact hfresh rest
    simp only [perform, ofMoved, hid, hworld]
    exact h.save hnew (r.flowId_eq_none_or_savedId newId rest) _
  · obtain ⟨hid, hworld⟩ := perform_of_quiet hquiet hkeeps (host.inMemory newId) (repository, rest)
    rw [hid, hworld]
    exact h

theorem gained_performAll (host : Host σ) (hfresh : ∀ rest, before.get? (newId rest).1 = none)
    {commands : List Command} (hkeeps : ∀ c ∈ commands, c.keepsId = true) {world : Repository × σ}
    (h : before.Gained r.store.flowId world.1) :
    before.Gained (performAll (host.inMemory newId) r world commands).1.store.flowId
      (performAll (host.inMemory newId) r world commands).2.1 := by
  induction commands generalizing r world with
  | nil => exact h
  | cons c commands ih =>
    obtain ⟨hc, hcommands⟩ := List.forall_mem_cons.1 hkeeps
    exact ih hcommands (gained_perform host hfresh hc h world.2)

/-- A run whose flow has no id, over a repository in which the new ids are free. After any commands
but those that set the id, the repository has at most one entry more, and all entries but the one
with the id of the run are as they were. An id of the run is that of a new entry and stays for good.
An approval of a pending step saves the flow under the id of the run, or gives it one, and from this
entry the graph of that moment is loaded, with the approved step as the current one. No other
command touches the repository. -/
theorem saves_go_to_one_entry (host : Host σ) (newId : σ → String × σ) (r : Run)
    (repository : Repository) (rest : σ) (hnone : r.store.flowId = none)
    (hfresh : ∀ rest, repository.get? (newId rest).1 = none) (commands : List Command)
    (hkeeps : ∀ c ∈ commands, c.keepsId = true) :
    let memory := host.inMemory newId
    let after := performAll memory r (repository, rest) commands
    after.2.1.size ≤ repository.size + 1 ∧
    (∀ other, after.1.store.flowId ≠ some other →
      after.2.1.get? other = repository.get? other) ∧
    (∀ id, after.1.store.flowId = some id →
      repository.get? id = none ∧ (∃ entry, after.2.1.get? id = some entry) ∧
        ∀ later, (∀ c ∈ later, c.keepsId = true) →
          (performAll memory after.1 after.2 later).1.store.flowId = some id) ∧
    (∀ now step result, after.1.state = .awaitingApproval step result →
      let approved := after.1.approve memory now after.2
      ∃ id flow, (after.1.store.flowId = none ∨ after.1.store.flowId = some id) ∧
        approved.1.run.store.flowId = some id ∧
        Repository.load approved.2.1 id = .ok flow ∧
        approved.1.run.store.graph = after.1.store.graph ∧
        flow.nodes = after.1.store.graph.nodes ∧ flow.edges = after.1.store.graph.edges ∧
        flow.current = some step ∧
        ∀ other, other ≠ id → approved.2.1.get? other = after.2.1.get? other) ∧
    ∀ c, c.keepsId = true → after.1.Quiet c →
      (after.1.perform memory after.2 c).2.1 = after.2.1 := by
  intro memory after
  have hgained : repository.Gained after.1.store.flowId after.2.1 := by
    refine gained_performAll host hfresh hkeeps ?_
    rw [hnone]
    exact .unsaved
  refine ⟨hgained.size_le, fun other hne => hgained.get?_of_ne hne, ?_, ?_, ?_⟩
  · intro id hid
    rw [hid] at hgained
    exact ⟨hgained.new.1, hgained.new.2,
      fun later hlater => flowId_performAll host newId hlater hid after.2⟩
  · intro now step result hstate approved
    obtain ⟨hid, hgraph, hworld⟩ :=
      approve_inMemory hstate host newId now after.2.1 after.2.2
    have hworld : approved.2.1 = after.1.savedIn host newId step after.2.1 after.2.2 := hworld
    obtain ⟨flow, hload, hnodes, hedges, hcurrent⟩ :=
      load_savedIn host newId after.1 step after.2.1 after.2.2
    refine ⟨after.1.savedId newId after.2.2, flow, after.1.flowId_eq_none_or_savedId newId _, hid,
      ?_, hgraph, hnodes, hedges, hcurrent, ?_⟩
    · rw [hworld]
      exact hload
    · intro other hne
      rw [hworld]
      exact get?_savedIn_of_ne host hne
  · intro c hc hquiet
    exact congrArg Prod.fst (perform_of_quiet hquiet hc memory after.2).2

/-- A backend that cannot be reached: the step is approved once more after a node was added. -/
theorem saves_go_to_one_entry_again :
    let host : Host Unit := {
      storage := none
      execute := fun _ world => (.error (.transport "timeout"), world)
      registry := none
      settings := {} }
    let newId : Unit → String × Unit := fun world => ("f", world)
    let r : Run := { store := .ofGraph ⟨[{ id := "a" }], []⟩, state := .awaitingApproval "a" none }
    let commands : List Command := [.approve .epoch, .edit (.addNode { id := "b" })]
    let after := performAll (host.inMemory newId) r (.empty, ()) commands
    let approved := after.1.approve (host.inMemory newId) .epoch after.2
    r.store.flowId = none ∧ (∀ rest, (KeyMap.empty : Repository).get? (newId rest).1 = none) ∧
      (∀ c ∈ commands, c.keepsId = true) ∧ after.2.1.size ≤ 1 ∧
      ∃ flow, Repository.load approved.2.1 "f" = .ok flow ∧
        flow.nodes.map (·.id) = ["a", "b"] ∧ flow.current = some "a" := by
  intro host newId r commands after approved
  have hfresh : ∀ rest, (KeyMap.empty : Repository).get? (newId rest).1 = none := fun _ => rfl
  have hkeeps : ∀ c ∈ commands, c.keepsId = true := by
    simp [commands, Command.keepsId, Store.Command.keepsId]
  have hplan : (r.store.setFlowId "f").graph.plan = _ :=
    linearize_eq_of_iterate_round [{ id := "a" }] [] (by decide) 2 rfl
  -- the first approval saves the flow and stays on its step
  have hsave : r.persist (host.inMemory newId) "a" (.empty, ()) =
      (.ok { r with store := r.store.setFlowId "f" }, r.savedIn host newId "a" .empty (), ()) := rfl
  have hfirst : (r.approve (host.inMemory newId) .epoch (.empty, ())).1.run = { r with
      store := r.store.setFlowId "f"
      lastError := some (RunError.executor (.transport "timeout")).diagnostic.chain } := by
    simp only [approve, r, hsave, hplan, execute]
    rfl
  have hafter : after.1 = { (r.approve (host.inMemory newId) .epoch (.empty, ())).1.run with
      store := ((r.approve (host.inMemory newId) .epoch (.empty, ())).1.run.store.edit
        (.addNode { id := "b" })).store } := rfl
  rw [hfirst] at hafter
  have hstate : after.1.state = .awaitingApproval "a" none := congrArg state hafter
  have hid : after.1.store.flowId = some "f" := congrArg (·.store.flowId) hafter
  have hnodes : after.1.store.graph.nodes = [{ id := "a" }, { id := "b" }] :=
    congrArg (·.store.graph.nodes) hafter
  obtain ⟨hsize, -, -, happrove, -⟩ :=
    saves_go_to_one_entry host newId r .empty () rfl hfresh commands hkeeps
  obtain ⟨id, flow, hsame, -, hload, -, hsaved, -, hcurrent, -⟩ := happrove .epoch "a" none hstate
  obtain rfl : id = "f" := by
    rcases hsame with hnone | hsome
    · exact absurd (hid.symm.trans hnone) (by simp)
    · exact Option.some.inj (hsome.symm.trans hid)
  refine ⟨rfl, hfresh, hkeeps, hsize, flow, hload, ?_, hcurrent⟩
  rw [hsaved]
  exact congrArg (List.map (·.id)) hnodes

end Run

end StepFlow
