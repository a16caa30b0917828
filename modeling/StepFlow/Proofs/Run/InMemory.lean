import StepFlow.Proofs.Run.Approve
import StepFlow.Proofs.Store.Edits
import StepFlow.Run.Command
import StepFlow.Run.InMemory

/-!
# What runs do to a repository

Over a repository in memory an approval of a pending step always saves the flow, and nothing else
touches the repository. So a command does one of two things: an approval writes one entry and
settles the id of the flow, and every other command leaves the repository alone.

## Main definitions

* `Run.savedId`: the id under which a run saves its flow.
* `Run.Command.keepsId`: commands that leave the id of the flow alone.
* `Run.Command.keepsFlow`: commands that leave the flow alone.

## Main statements

* `Run.persist_inMemory`: saving over a repository.
* `Run.perform_approve_inMemory`: an approval of a pending step.
* `Run.perform_of_quiet`: any other command.
-/

namespace StepFlow

namespace Run

variable {σ : Type} {host : Host σ} {newId : σ → String × σ} {r : Run} {step : String}
  {repository : Repository} {rest : σ}

/-- The id under which a run saves its flow. -/
def savedId (newId : σ → String × σ) (r : Run) (rest : σ) : String :=
  r.store.flowId.getD (newId rest).1

/-- The repository after a run saved its flow before a step. -/
def savedIn (host : Host σ) (newId : σ → String × σ) (r : Run) (step : String)
    (repository : Repository) (rest : σ) : Repository :=
  repository.insert (r.savedId newId rest)
    (Repository.entryFor repository (r.savedId newId rest) (r.record host.settings step))

/-- Saving over a repository succeeds, and the flow has its id then. -/
theorem persist_inMemory (host : Host σ) (newId : σ → String × σ) (r : Run) (step : String)
    (repository : Repository) (rest : σ) :
    ∃ later, r.persist (host.inMemory newId) step (repository, rest) =
      (.ok { r with store := r.store.setFlowId (r.savedId newId rest) },
        r.savedIn host newId step repository rest, later) := by
  cases hid : r.store.flowId with
  | none =>
    refine ⟨(newId rest).2, ?_⟩
    simp only [persist, Host.inMemory, Repository.storage, Repository.save, savedIn, savedId, hid]
    rfl
  | some id =>
    have hsame : { r with store := r.store.setFlowId (r.savedId newId rest) } = r := by
      rw [savedId, hid, Option.getD_some, Store.setFlowId, ← hid]
    refine ⟨rest, ?_⟩
    rw [hsame]
    simp only [persist, Host.inMemory, Repository.storage, Repository.save, savedIn, savedId, hid]
    rfl

/-! ### Operations on the run -/

theorem start_store (r : Run) (now : Timestamp) :
    ∃ pointers, (r.start now).run.store = r.store.setPointers pointers := by
  unfold start
  split
  · exact ⟨r.store.pointers, rfl⟩
  · split
    · exact ⟨r.store.pointers, rfl⟩
    · exact ⟨_, rfl⟩

theorem reject_store (r : Run) (policy : RejectPolicy) :
    ∃ pointers, (r.reject policy).run.store = r.store.setPointers pointers := by
  unfold reject
  split
  · exact ⟨r.store.pointers, rfl⟩
  · exact ⟨r.store.pointers, rfl⟩
  · split
    · exact ⟨r.store.pointers, rfl⟩
    · split
      · exact ⟨r.store.pointers, rfl⟩
      · exact ⟨_, rfl⟩

theorem advance_store (r : Run) (plan : Plan) (step : String) (response : StepResponse) :
    (r.advance plan step response).run.store.flowId = r.store.flowId ∧
      (r.advance plan step response).run.store.graph = r.store.graph := by
  unfold advance
  split <;> exact ⟨rfl, rfl⟩

/-- After the flow was saved, an approval changes neither its id nor its graph, and it calls the
backend at most once. -/
theorem approve_of_persist {τ : Type} {host : Host τ} {world later : τ} {saved : Run}
    {result : Option Json.Value} (hstate : r.state = .awaitingApproval step result)
    (hsave : r.persist host step world = (.ok saved, later)) (now : Timestamp) :
    (r.approve host now world).1.run.store.flowId = saved.store.flowId ∧
      (r.approve host now world).1.run.store.graph = saved.store.graph ∧
      ((r.approve host now world).2 = later ∨
        ∃ request, (r.approve host now world).2 = (host.execute request later).2) := by
  simp only [approve, hstate, hsave]
  split
  · exact ⟨rfl, rfl, .inl rfl⟩
  · next plan _ =>
    simp only [execute, Moved.following_run]
    split
    · next response _ =>
      obtain ⟨hid, hgraph⟩ :=
        advance_store { saved with state := .running step } plan step response
      exact ⟨hid, hgraph, .inr ⟨_, rfl⟩⟩
    · exact ⟨rfl, rfl, .inr ⟨_, rfl⟩⟩

/-- Over a repository an approval of a pending step saves the flow, whatever comes after. -/
theorem approve_inMemory {result : Option Json.Value}
    (hstate : r.state = .awaitingApproval step result) (host : Host σ) (newId : σ → String × σ)
    (now : Timestamp) (repository : Repository) (rest : σ) :
    let approved := r.approve (host.inMemory newId) now (repository, rest)
    approved.1.run.store.flowId = some (r.savedId newId rest) ∧
      approved.1.run.store.graph = r.store.graph ∧
      approved.2.1 = r.savedIn host newId step repository rest := by
  intro approved
  obtain ⟨later, hsave⟩ := persist_inMemory host newId r step repository rest
  obtain ⟨hid, hgraph, hworld⟩ := approve_of_persist hstate hsave now
  refine ⟨hid, hgraph, ?_⟩
  rcases hworld with hlater | ⟨request, hrequest⟩
  · exact congrArg Prod.fst hlater
  · exact congrArg Prod.fst hrequest

/-! ### Commands -/

namespace Command

/-- Whether a command leaves the id of the flow alone. -/
def keepsId : Command → Bool
  | .reopen _ => false
  | .edit c => c.keepsId
  | _ => true

/-- Whether a command leaves the flow alone. -/
def keepsFlow : Command → Bool
  | .start _ | .approve _ | .reject | .reset => true
  | _ => false

end Command

/-- Whether a command does not save the flow: it is no approval, or there is no pending step. -/
def Quiet (r : Run) (c : Command) : Prop :=
  ∀ now, c = .approve now → r.state.pending? = none

/-- A command saves the flow before the pending step, or it is quiet. -/
theorem approves_or_quiet (r : Run) (c : Command) :
    (∃ now step result, c = .approve now ∧ r.state = .awaitingApproval step result) ∨
      r.Quiet c := by
  cases c with
  | approve now =>
    cases hstate : r.state with
    | awaitingApproval step result => exact .inl ⟨now, step, result, rfl, rfl⟩
    | _ =>
      right
      intro _ _
      rw [hstate]
      rfl
  | _ =>
    right
    rintro now ⟨⟩

variable {c : Command} {τ : Type}

theorem perform_approve_of_quiet {now : Timestamp} (h : r.Quiet (.approve now)) (host : Host τ)
    (world : τ) :
    (r.perform host world (.approve now)).1.run = r ∧
      (r.perform host world (.approve now)).2 = world := by
  simp only [perform, approve_of_not_pending host now world (h now rfl), ofMoved, and_self]

/-- A quiet command that leaves the flow alone keeps its id and its graph, and the world. -/
theorem perform_of_keepsFlow (h : r.Quiet c) (hkeeps : c.keepsFlow = true) (host : Host τ)
    (world : τ) :
    (r.perform host world c).1.run.store.flowId = r.store.flowId ∧
      (r.perform host world c).1.run.store.graph = r.store.graph ∧
      (r.perform host world c).2 = world := by
  cases c with
  | approve now =>
    obtain ⟨hrun, hworld⟩ := perform_approve_of_quiet h host world
    rw [hrun]
    exact ⟨rfl, rfl, hworld⟩
  | start now =>
    obtain ⟨pointers, hstore⟩ := r.start_store now
    have hrun : (r.perform host world (.start now)).1.run.store = r.store.setPointers pointers :=
      hstore
    rw [hrun]
    exact ⟨rfl, rfl, rfl⟩
  | reject =>
    obtain ⟨pointers, hstore⟩ := r.reject_store host.settings.policy
    have hrun : (r.perform host world .reject).1.run.store = r.store.setPointers pointers := hstore
    rw [hrun]
    exact ⟨rfl, rfl, rfl⟩
  | reset => exact ⟨rfl, rfl, rfl⟩
  | reopen | fillGaps | edit => cases hkeeps

/-- A quiet command keeps the world, and the id of the flow if it is one of those. -/
theorem perform_of_quiet (h : r.Quiet c) (hkeeps : c.keepsId = true) (host : Host τ) (world : τ) :
    (r.perform host world c).1.run.store.flowId = r.store.flowId ∧
      (r.perform host world c).2 = world := by
  cases c with
  | start | approve | reject | reset =>
    obtain ⟨hid, -, hworld⟩ := perform_of_keepsFlow h rfl host world
    exact ⟨hid, hworld⟩
  | reopen flowId => cases hkeeps
  | fillGaps => exact ⟨rfl, rfl⟩
  | edit c => exact ⟨Store.flowId_edit hkeeps, rfl⟩

end Run

end StepFlow
