import StepFlow.Run.Basic

/-!
# How operations on a run end

An approval has five ways to end, and each is reached under conditions of its own. What is proved
about approvals is proved exit by exit.

## Main definitions

* `Run.Saves`: the flow is saved before a step, or there is no storage.
* `Run.Approval`: the exits of an approval.

## Main statements

* `Run.approval`: an approval takes one of these exits.
* `Run.approve_settled` and the like: no operation leaves a run at work.
-/

namespace StepFlow

namespace RunState

/-- The backend is not at work. -/
def Settled (s : RunState) : Prop :=
  ∀ step, s ≠ .running step

@[simp] theorem settled_idle : Settled .idle :=
  nofun

@[simp] theorem settled_awaitingApproval (step : String) (result : Option Json.Value) :
    Settled (.awaitingApproval step result) :=
  nofun

@[simp] theorem settled_complete : Settled .complete :=
  nofun

@[simp] theorem settled_error (message : String) : Settled (.error message) :=
  nofun

theorem exists_of_pending? {s : RunState} {step : String} (h : s.pending? = some step) :
    ∃ result, s = .awaitingApproval step result := by
  cases s with
  | awaitingApproval pending result =>
    cases h
    exact ⟨result, rfl⟩
  | _ => cases h

end RunState

@[simp] theorem Moved.following_run {α : Type} (m : Moved α) (earlier : List Notice) :
    (m.following earlier).run = m.run :=
  rfl

namespace Run

variable {σ : Type}

/-- Whether the flow is saved before a step; without storage nothing has to be. -/
def Saves (host : Host σ) (r : Run) (step : String) (world : σ) : Prop :=
  ∀ storage, host.storage = some storage →
    ∃ id, (storage.save r.store.flowId (r.record host.settings step) world).1 = .ok id

/-- The exits of an approval: there is no pending step, the flow is not saved, its graph has no
plan, or the backend answers or fails. -/
inductive Approval (host : Host σ) (now : Timestamp) (r : Run) (world : σ) :
    Moved Outcome × σ → Prop
  | refused (hstate : r.state.pending? = none) :
      Approval host now r world
        ({ answer := .error (.notAwaitingApproval r.state.display), run := r }, world)
  | unsaved {step : String} {result : Option Json.Value} {later : σ} {e : PersistenceError}
      (hstate : r.state = .awaitingApproval step result)
      (hsave : r.persist host step world = (.error e, later)) :
      Approval host now r world
        ((r.stay step result .persistence (.persistence e)).following (r.alerts host.registry),
          later)
  | unplanned {step : String} {result : Option Json.Value} {saved : Run} {later : σ} {e : PlanError}
      (hstate : r.state = .awaitingApproval step result)
      (hsave : r.persist host step world = (.ok saved, later))
      (hplan : saved.store.graph.plan = .error e) :
      Approval host now r world ((saved.halt e).following (r.alerts host.registry), later)
  | answered {step : String} {result : Option Json.Value} {saved : Run} {plan : Plan}
      {later last : σ} {response : StepResponse} (hstate : r.state = .awaitingApproval step result)
      (hsave : r.persist host step world = (.ok saved, later))
      (hplan : saved.store.graph.plan = .ok plan)
      (hanswer : host.execute (saved.request host.settings plan step now) later =
        (.ok response, last)) :
      Approval host now r world
        (({ saved with state := .running step }.advance plan step response).following
          (r.alerts host.registry), last)
  | failed {step : String} {result : Option Json.Value} {saved : Run} {plan : Plan}
      {later last : σ} {e : ExecutorError} (hstate : r.state = .awaitingApproval step result)
      (hsave : r.persist host step world = (.ok saved, later))
      (hplan : saved.store.graph.plan = .ok plan)
      (hanswer : host.execute (saved.request host.settings plan step now) later =
        (.error e, last)) :
      Approval host now r world
        (({ saved with state := .running step }.stay step result .execution (.executor e)).following
          (r.alerts host.registry), last)

variable {host : Host σ} {r saved : Run} {step : String} {world later : σ}

@[simp] theorem halt_settled {α : Type} (r : Run) (e : PlanError) :
    (r.halt e : Moved α).run.state.Settled :=
  RunState.settled_error _

@[simp] theorem stay_settled {α : Type} (r : Run) (step : String) (result : Option Json.Value)
    (scope : Scope) (e : RunError) : (r.stay step result scope e : Moved α).run.state.Settled :=
  RunState.settled_awaitingApproval _ _

@[simp] theorem advance_settled (r : Run) (plan : Plan) (step : String) (response : StepResponse) :
    (r.advance plan step response).run.state.Settled := by
  unfold advance
  split
  · exact RunState.settled_complete
  · exact RunState.settled_awaitingApproval _ _

theorem saves_of_persist (h : r.persist host step world = (.ok saved, later)) :
    r.Saves host step world := by
  intro storage hstorage
  simp only [persist, hstorage] at h
  split at h
  · simp at h
  · next id _ hsave => exact ⟨id, by rw [hsave]⟩

theorem not_saves_of_persist {e : PersistenceError}
    (h : r.persist host step world = (.error e, later)) : ¬r.Saves host step world := by
  intro hsaves
  unfold persist at h
  split at h
  · simp at h
  · next storage hstorage =>
    obtain ⟨id, hid⟩ := hsaves storage hstorage
    split at h
    · next hsave => simp [hsave] at hid
    · split at h <;> simp at h

theorem exists_persist_of_saves (h : r.Saves host step world) :
    ∃ saved later, r.persist host step world = (.ok saved, later) := by
  cases hpersist : r.persist host step world with
  | mk answer later =>
    cases answer with
    | ok saved => exact ⟨saved, later, rfl⟩
    | error e => exact absurd h (not_saves_of_persist hpersist)

/-- Saving a flow gives it at most an id. -/
theorem eq_of_persist (h : r.persist host step world = (.ok saved, later)) :
    saved = { r with store := { r.store with flowId := saved.store.flowId } } := by
  unfold persist at h
  split at h
  · cases h
    rfl
  · split at h
    · simp at h
    · split at h <;> cases h <;> rfl

theorem graph_of_persist (h : r.persist host step world = (.ok saved, later)) :
    saved.store.graph = r.store.graph := by
  rw [eq_of_persist h]

/-- An approval without a pending step does nothing at all. -/
theorem approve_of_not_pending (host : Host σ) (now : Timestamp) (world : σ)
    (hstate : r.state.pending? = none) :
    r.approve host now world =
      ({ answer := .error (.notAwaitingApproval r.state.display), run := r }, world) := by
  unfold approve
  split
  · next hpending =>
    rw [hpending] at hstate
    cases hstate
  · rfl

/-- An approval that is answered moves on with the answer. -/
theorem approve_of_execute {result : Option Json.Value} {plan : Plan} {now : Timestamp} {last : σ}
    {response : StepResponse} (hstate : r.state = .awaitingApproval step result)
    (hsave : r.persist host step world = (.ok saved, later))
    (hplan : saved.store.graph.plan = .ok plan)
    (hanswer : host.execute (saved.request host.settings plan step now) later =
      (.ok response, last)) :
    r.approve host now world =
      (({ saved with state := .running step }.advance plan step response).following
        (r.alerts host.registry), last) := by
  simp only [approve, hstate, hsave, hplan, execute, hanswer]

theorem approval (host : Host σ) (now : Timestamp) (r : Run) (world : σ) :
    Approval host now r world (r.approve host now world) := by
  unfold approve
  split
  · next step result hstate =>
    simp only
    split
    · next e later hsave => exact .unsaved hstate hsave
    · next saved later hsave =>
      split
      · next e hplan => exact .unplanned hstate hsave hplan
      · next plan hplan =>
        cases hanswer : host.execute (saved.request host.settings plan step now) later with
        | mk answer last =>
          cases answer with
          | ok response =>
            simp only [execute, hanswer]
            exact .answered hstate hsave hplan hanswer
          | error e =>
            simp only [execute, hanswer]
            exact .failed hstate hsave hplan hanswer
  · next hstate =>
    refine .refused ?_
    cases h : r.state with
    | awaitingApproval step result => exact absurd h (hstate step result)
    | _ => rfl

theorem approve_settled (host : Host σ) (now : Timestamp) (world : σ) (h : r.state.Settled) :
    (r.approve host now world).1.run.state.Settled := by
  have hexit := approval host now r world
  generalize r.approve host now world = result at hexit
  cases hexit with
  | refused => exact h
  | unsaved | unplanned | answered | failed => simp

/-- A run that has a plan to start with waits for the approval of its first step. -/
theorem start_of_entry {plan : Plan} (now : Timestamp) (hplan : r.store.graph.plan = .ok plan)
    (hentry : r.entry? plan = some step) :
    (r.start now).run = {
      store := r.store.setPointers ⟨some step, (plan.following? step).map (·.id)⟩
      state := .awaitingApproval step none
      startedAt := some now } := by
  simp only [start, hplan, hentry]

theorem start_settled (r : Run) (now : Timestamp) : (r.start now).run.state.Settled := by
  unfold start
  split
  · simp
  · split <;> simp

theorem reject_settled (policy : RejectPolicy) (h : r.state.Settled) :
    (r.reject policy).run.state.Settled := by
  unfold reject
  split
  · exact h
  · exact h
  · split
    · simp
    · split
      · exact h
      · simp [stepBack]

/-- Opening another flow either fails and leaves the run as it was, or starts all over with it. -/
theorem reopen_cases (host : Host σ) (r : Run) (flowId : String) (world : σ) :
    (∃ e, (r.reopen host flowId world).1.answer = .error e ∧
      (r.reopen host flowId world).1.run = r) ∨
    (∃ flow, (r.reopen host flowId world).1.answer = .ok () ∧
      (r.reopen host flowId world).1.run = { store := .load flowId flow }) := by
  unfold reopen
  split
  · exact .inl ⟨_, rfl, rfl⟩
  · split
    · exact .inl ⟨_, rfl, rfl⟩
    · exact .inr ⟨_, rfl, rfl⟩

theorem reopen_settled (host : Host σ) (flowId : String) (world : σ) (h : r.state.Settled) :
    (r.reopen host flowId world).1.run.state.Settled := by
  rcases reopen_cases host r flowId world with ⟨_, _, hrun⟩ | ⟨_, _, hrun⟩ <;> rw [hrun]
  · exact h
  · exact RunState.settled_idle

end Run

end StepFlow
