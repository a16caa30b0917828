import StepFlow.Proofs.Run.Calls

/-!
# What is exchanged with the backend

A host can also keep a record of its exchanges, each a request with what came back. What a run has
seen since its results were last cleared is its chronicle: the exchanges of a reset or of a flow
that was given up for another one do not belong to it.

## Main definitions

* `Exchange`: a request and what came back.
* `Run.exchanges`: the exchanges of one command.
* `Chronicle`: a run with the exchanges since its results were last cleared.

## Main statements

* `Run.perform_recorded`: the record grows by the exchanges of each command and changes nothing
  else.
* `Run.exchanges_of_persist` and the like: what an approval exchanges, exit by exit.
* `Run.of_mem_exchanges`, `Run.exists_exchange`: what is sent at all, and when.
-/

namespace StepFlow

variable {σ : Type}

/-- A request to the backend and what came back. -/
structure Exchange where
  request : StepRequest
  answer : Except ExecutorError StepResponse

/-- The host that also keeps a record of its exchanges. -/
def Host.recorded (host : Host σ) : Host (σ × List Exchange) where
  storage := host.storage.map (.beside _)
  execute request world :=
    let (answer, later) := host.execute request world.1
    (answer, later, world.2 ++ [⟨request, answer⟩])
  registry := host.registry
  settings := host.settings

@[simp] theorem Host.recorded_registry (host : Host σ) :
    host.recorded.registry = host.registry :=
  rfl

@[simp] theorem Host.recorded_settings (host : Host σ) :
    host.recorded.settings = host.settings :=
  rfl

@[simp] theorem Host.recorded_execute (host : Host σ) (request : StepRequest) (world : σ)
    (log : List Exchange) :
    host.recorded.execute request (world, log) =
      ((host.execute request world).1, (host.execute request world).2,
        log ++ [⟨request, (host.execute request world).1⟩]) :=
  rfl

namespace Run

/-- The exchanges of one command. -/
def exchanges (host : Host σ) (r : Run) (world : σ) (c : Command) : List Exchange :=
  (r.perform host.recorded (world, []) c).2.2

variable {host : Host σ} {r saved : Run} {step : String} {world later : σ}
  {result : Option Json.Value} {plan : Plan} {now : Timestamp}

theorem persist_recorded (host : Host σ) (r : Run) (step : String) (world : σ)
    (log : List Exchange) :
    r.persist host.recorded step (world, log) =
      ((r.persist host step world).1, (r.persist host step world).2, log) :=
  persist_beside rfl rfl r step world log

theorem reopen_recorded (host : Host σ) (r : Run) (flowId : String) (world : σ)
    (log : List Exchange) :
    r.reopen host.recorded flowId (world, log) =
      ((r.reopen host flowId world).1, (r.reopen host flowId world).2, log) :=
  reopen_beside rfl r flowId world log

/-- The record grows by the exchanges of a command and makes no other difference to it. -/
theorem perform_recorded (host : Host σ) (r : Run) (world : σ) (log : List Exchange)
    (c : Command) :
    r.perform host.recorded (world, log) c =
      ((r.perform host world c).1, (r.perform host world c).2,
        log ++ r.exchanges host world c) := by
  cases c with
  | approve now =>
    have hexit := approval host now r world
    simp only [exchanges, perform]
    generalize r.approve host now world = exit at hexit
    cases hexit with
    | refused hstate =>
      simp only [approve_of_not_pending host.recorded now _ hstate, List.append_nil]
    | unsaved hstate hsave =>
      simp only [approve, hstate, persist_recorded, hsave, Host.recorded_registry,
        List.append_nil]
    | unplanned hstate hsave hplan =>
      simp only [approve, hstate, persist_recorded, hsave, hplan, Host.recorded_registry,
        List.append_nil]
    | answered hstate hsave hplan hanswer | failed hstate hsave hplan hanswer =>
      simp only [approve, execute, hstate, persist_recorded, hsave, hplan, Host.recorded_execute,
        Host.recorded_settings, Host.recorded_registry, hanswer, List.nil_append]
  | reopen flowId => simp only [exchanges, perform, reopen_recorded, List.append_nil]
  | start | reject | reset | fillGaps | edit =>
    simp only [exchanges, perform, List.append_nil, Host.recorded_settings]

/-- An approval that gets as far as the backend makes one exchange with it. -/
theorem exchanges_of_persist (now : Timestamp) (hstate : r.state = .awaitingApproval step result)
    (hsave : r.persist host step world = (.ok saved, later))
    (hplan : saved.store.graph.plan = .ok plan) :
    r.exchanges host world (.approve now) =
      [⟨saved.request host.settings plan step now,
        (host.execute (saved.request host.settings plan step now) later).1⟩] := by
  simp only [exchanges, perform, approve, execute, hstate, persist_recorded, hsave, hplan,
    Host.recorded_execute, Host.recorded_settings, List.nil_append]
  split <;> rfl

theorem exchanges_of_refused (now : Timestamp) (hstate : r.state.pending? = none) :
    r.exchanges host world (.approve now) = [] := by
  simp only [exchanges, perform, approve_of_not_pending host.recorded now _ hstate]

theorem exchanges_of_unsaved {e : PersistenceError} (now : Timestamp)
    (hstate : r.state = .awaitingApproval step result)
    (hsave : r.persist host step world = (.error e, later)) :
    r.exchanges host world (.approve now) = [] := by
  simp only [exchanges, perform, approve, hstate, persist_recorded, hsave]

theorem exchanges_of_unplanned {e : PlanError} (now : Timestamp)
    (hstate : r.state = .awaitingApproval step result)
    (hsave : r.persist host step world = (.ok saved, later))
    (hplan : saved.store.graph.plan = .error e) :
    r.exchanges host world (.approve now) = [] := by
  simp only [exchanges, perform, approve, hstate, persist_recorded, hsave, hplan]

/-- Whatever an approval sends is the request for the pending step, made after the flow was saved
and found to have a plan. -/
theorem of_mem_exchanges {now : Timestamp} {x : Exchange}
    (h : x ∈ r.exchanges host world (.approve now)) :
    ∃ step result saved later plan, r.state = .awaitingApproval step result ∧
      r.persist host step world = (.ok saved, later) ∧ saved.store.graph.plan = .ok plan ∧
      x.request = saved.request host.settings plan step now := by
  have hexit := approval host now r world
  generalize r.approve host now world = exit at hexit
  cases hexit with
  | refused hstate =>
    rw [exchanges_of_refused now hstate] at h
    cases h
  | unsaved hstate hsave =>
    rw [exchanges_of_unsaved now hstate hsave] at h
    cases h
  | unplanned hstate hsave hplan =>
    rw [exchanges_of_unplanned now hstate hsave hplan] at h
    cases h
  | answered hstate hsave hplan | failed hstate hsave hplan =>
    rw [exchanges_of_persist now hstate hsave hplan] at h
    rw [List.mem_singleton.1 h]
    exact ⟨_, _, _, _, _, hstate, hsave, hplan, rfl⟩

/-- An approval that is answered saved the flow, had a plan and sent the request for the pending
step. -/
theorem of_exchanges_eq_singleton {request : StepRequest} {response : StepResponse}
    (h : r.exchanges host world (.approve now) = [⟨request, .ok response⟩]) :
    ∃ step result saved plan later last, r.state = .awaitingApproval step result ∧
      r.persist host step world = (.ok saved, later) ∧ saved.store.graph.plan = .ok plan ∧
      request = saved.request host.settings plan step now ∧
      host.execute request later = (.ok response, last) := by
  have hmem : (⟨request, .ok response⟩ : Exchange) ∈ r.exchanges host world (.approve now) := by
    rw [h]
    exact List.mem_singleton_self _
  obtain ⟨step, result, saved, later, plan, hstate, hsave, hplan, rfl⟩ := of_mem_exchanges hmem
  rw [exchanges_of_persist now hstate hsave hplan, List.singleton_inj, Exchange.mk.injEq] at h
  exact ⟨step, result, saved, plan, later, _, hstate, hsave, hplan, rfl, Prod.ext h.2 rfl⟩

/-- An approval of a pending step is sent to the backend if the flow has a plan and can be saved. -/
theorem exists_exchange (now : Timestamp) (hstate : r.state = .awaitingApproval step result)
    (hsaves : r.Saves host step world) (hplan : r.store.graph.plan = .ok plan) :
    ∃ x, r.exchanges host world (.approve now) = [x] := by
  obtain ⟨saved, later, hsave⟩ := exists_persist_of_saves hsaves
  exact ⟨_, exchanges_of_persist now hstate hsave (graph_of_persist hsave ▸ hplan)⟩

/-- Only approvals make exchanges. -/
theorem exchanges_of_ne_approve {c : Command} (h : ∀ now, c ≠ .approve now) :
    r.exchanges host world c = [] := by
  cases c with
  | approve now => exact absurd rfl (h now)
  | reopen flowId => simp only [exchanges, perform, reopen_recorded]
  | start | reject | reset | fillGaps | edit => rfl

end Run

/-- A run with what surrounds it and the exchanges since its results were last cleared. -/
structure Chronicle (σ : Type) where
  run : Run
  world : σ
  exchanges : List Exchange := []

/-- Whether a command cleared the results of a run: a reset does, and opening another flow if it
succeeds. -/
def Run.Command.clears (c : Run.Command) (performed : Run.Performed) : Bool :=
  match c, performed.answer with
  | .reset, _ => true
  | .reopen _, .ok _ => true
  | _, _ => false

namespace Chronicle

/-- The chronicle after a command. -/
def perform (host : Host σ) (s : Chronicle σ) (c : Run.Command) : Chronicle σ :=
  let (performed, world, exchanges) := s.run.perform host.recorded (s.world, s.exchanges) c
  ⟨performed.run, world, if c.clears performed then [] else exchanges⟩

/-- The chronicle after a list of commands. -/
def performAll (host : Host σ) (s : Chronicle σ) (commands : List Run.Command) : Chronicle σ :=
  commands.foldl (perform host) s

variable (host : Host σ) (s : Chronicle σ)

@[simp] theorem performAll_nil : s.performAll host [] = s :=
  rfl

@[simp] theorem performAll_cons (c : Run.Command) (commands : List Run.Command) :
    s.performAll host (c :: commands) = (s.perform host c).performAll host commands :=
  rfl

theorem perform_eq (c : Run.Command) :
    s.perform host c = ⟨(s.run.perform host s.world c).1.run, (s.run.perform host s.world c).2,
      if c.clears (s.run.perform host s.world c).1 then []
      else s.exchanges ++ s.run.exchanges host s.world c⟩ := by
  simp only [perform, Run.perform_recorded]

theorem perform_of_clears {c : Run.Command} (h : c.clears (s.run.perform host s.world c).1 = true) :
    s.perform host c =
      ⟨(s.run.perform host s.world c).1.run, (s.run.perform host s.world c).2, []⟩ := by
  rw [perform_eq, h, if_pos rfl]

theorem perform_of_not_clears {c : Run.Command}
    (h : c.clears (s.run.perform host s.world c).1 = false) :
    s.perform host c =
      ⟨(s.run.perform host s.world c).1.run, (s.run.perform host s.world c).2,
        s.exchanges ++ s.run.exchanges host s.world c⟩ := by
  rw [perform_eq, h, if_neg Bool.false_ne_true]

/-- A command that neither approves nor clears the results adds nothing to the exchanges. -/
theorem perform_of_quiet {c : Run.Command} (hquiet : ∀ now, c ≠ .approve now)
    (h : c.clears (s.run.perform host s.world c).1 = false) :
    s.perform host c =
      ⟨(s.run.perform host s.world c).1.run, (s.run.perform host s.world c).2, s.exchanges⟩ := by
  rw [perform_of_not_clears host s h, Run.exchanges_of_ne_approve hquiet, List.append_nil]

/-- A start that succeeds. -/
theorem perform_start_of_entry {plan : Plan} {step : String} (now : Timestamp)
    (hplan : s.run.store.graph.plan = .ok plan) (hentry : s.run.entry? plan = some step) :
    s.perform host (.start now) = { s with run := {
      store := s.run.store.setPointers ⟨some step, (plan.following? step).map (·.id)⟩
      state := .awaitingApproval step none
      startedAt := some now } } := by
  rw [perform_of_quiet host s (by rintro _ ⟨⟩) rfl]
  simp only [Run.perform, Run.ofMoved, Run.start_of_entry now hplan hentry]

/-- An approval without a pending step. -/
theorem perform_approve_of_refused (now : Timestamp) (hstate : s.run.state.pending? = none) :
    s.perform host (.approve now) = s := by
  rw [perform_of_not_clears host s rfl, Run.exchanges_of_refused now hstate, List.append_nil]
  simp only [Run.perform, Run.ofMoved, Run.approve_of_not_pending host now s.world hstate]

/-- An approval of a flow that could not be saved. -/
theorem perform_approve_of_unsaved {step : String} {result : Option Json.Value} {later : σ}
    {e : PersistenceError} (now : Timestamp) (hstate : s.run.state = .awaitingApproval step result)
    (hsave : s.run.persist host step s.world = (.error e, later)) :
    s.perform host (.approve now) =
      ⟨{ s.run with
          state := .awaitingApproval step result
          lastError := some (RunError.persistence e).diagnostic.chain }, later, s.exchanges⟩ := by
  rw [perform_of_not_clears host s rfl, Run.exchanges_of_unsaved now hstate hsave, List.append_nil]
  simp only [Run.perform, Run.ofMoved, Run.approve, hstate, hsave, Moved.following, Run.stay]

/-- An approval that the backend answers. -/
theorem perform_approve_of_answer {saved : Run} {plan : Plan} {step : String}
    {result : Option Json.Value} {later last : σ} {response : StepResponse} (now : Timestamp)
    (hstate : s.run.state = .awaitingApproval step result)
    (hsave : s.run.persist host step s.world = (.ok saved, later))
    (hplan : saved.store.graph.plan = .ok plan)
    (hanswer : host.execute (saved.request host.settings plan step now) later =
      (.ok response, last)) :
    s.perform host (.approve now) =
      ⟨({ saved with state := .running step }.advance plan step response).run, last,
        s.exchanges ++ [⟨saved.request host.settings plan step now, .ok response⟩]⟩ := by
  rw [perform_of_not_clears host s rfl, Run.exchanges_of_persist now hstate hsave hplan]
  simp only [Run.perform, Run.ofMoved, Run.approve_of_execute hstate hsave hplan hanswer, hanswer,
    Moved.following_run]

/-- The runs of a chronicle are the runs that the commands lead to. -/
theorem run_performAll (commands : List Run.Command) :
    ((s.performAll host commands).run, (s.performAll host commands).world) =
      s.run.performAll host s.world commands := by
  induction commands generalizing s with
  | nil => rfl
  | cons c commands ih => rw [performAll_cons, ih, perform_eq]; rfl

end Chronicle

end StepFlow
