import StepFlow.Proofs.Run.Approve
import StepFlow.Run.Command

/-!
# Calls of the backend

The backend runs a step only when a person has approved it. To tell what the backend was called
with, a host keeps a log of the requests; the log changes nothing else.

## Main definitions

* `Host.logged`: the host that also keeps a log of its calls.
* `Run.calls`: the requests of a run, from first to last.
* `Run.Cleared`: a command approves a step that the backend may run then.
* `Run.Sent`: a request for a cleared step is sent, or there is no cleared step and no request.

## Main statements

* `Run.calls_gated`: each command sends what it clears, and leaves no run at work.
-/

namespace StepFlow

variable {σ τ : Type}

/-- The same storage for a larger world. -/
def Storage.beside (τ : Type) (storage : Storage σ) : Storage (σ × τ) where
  save id flow world :=
    let (answer, later) := storage.save id flow world.1
    (answer, later, world.2)
  load id world :=
    let (answer, later) := storage.load id world.1
    (answer, later, world.2)

/-- The host that also keeps a log of its calls. -/
def Host.logged (host : Host σ) : Host (σ × List StepRequest) where
  storage := host.storage.map (.beside _)
  execute request world :=
    let (answer, later) := host.execute request world.1
    (answer, later, world.2 ++ [request])
  registry := host.registry
  settings := host.settings

@[simp] theorem Host.logged_registry (host : Host σ) : host.logged.registry = host.registry :=
  rfl

@[simp] theorem Host.logged_settings (host : Host σ) : host.logged.settings = host.settings :=
  rfl

@[simp] theorem Host.logged_execute (host : Host σ) (request : StepRequest) (world : σ)
    (log : List StepRequest) :
    host.logged.execute request (world, log) =
      ((host.execute request world).1, (host.execute request world).2, log ++ [request]) :=
  rfl

namespace Run

/-- The requests that the backend gets while commands are carried out on a new run. -/
def calls (host : Host σ) (store : Store) (world : σ) (commands : List Command) :
    List StepRequest :=
  (performAll host.logged { store } (world, []) commands).2.2

/-- Whether a command approves the pending step of a run, whose flow is saved before and has a
plan. -/
structure Cleared (host : Host σ) (r : Run) (world : σ) (c : Command) (step : String) : Prop where
  approval : ∃ now, c = .approve now
  pending : ∃ result, r.state = .awaitingApproval step result
  saves : r.Saves host step world
  planned : ∃ plan, r.store.graph.plan = .ok plan

/-- Whether requests are what a command may send: one for the step that it clears, and none if it
clears no step. -/
def Sent (host : Host σ) (r : Run) (world : σ) (c : Command) (requests : List StepRequest) : Prop :=
  (requests = [] ∧ ∀ step, ¬r.Cleared host world c step) ∨
    ∃ request, requests = [request] ∧ r.Cleared host world c request.stepId

variable {host : Host σ} {r saved : Run} {step : String} {world later : σ}
  {log : List StepRequest} {c : Command} {result : Option Json.Value}

theorem sent_nil (h : ∀ step, ¬r.Cleared host world c step) : r.Sent host world c [] :=
  .inl ⟨rfl, h⟩

theorem sent_nil_of_ne_approve (h : ∀ now, c ≠ .approve now) : r.Sent host world c [] :=
  sent_nil fun _ hcleared => hcleared.approval.elim h

theorem Cleared.step_eq {other : String} (h : r.Cleared host world c other)
    (hstate : r.state = .awaitingApproval step result) : other = step := by
  obtain ⟨_, hpending⟩ := h.pending
  rw [hstate] at hpending
  cases hpending
  rfl

/-- An approval that gets as far as the backend is one of a cleared step. -/
theorem cleared_of_persist {plan : Plan} (now : Timestamp)
    (hstate : r.state = .awaitingApproval step result)
    (hsave : r.persist host step world = (.ok saved, later))
    (hplan : saved.store.graph.plan = .ok plan) : r.Cleared host world (.approve now) step where
  approval := ⟨now, rfl⟩
  pending := ⟨result, hstate⟩
  saves := saves_of_persist hsave
  planned := ⟨plan, graph_of_persist hsave ▸ hplan⟩

/-- What a host keeps beside its world makes no difference to a save. -/
theorem persist_beside {larger : Host (σ × τ)}
    (hstorage : larger.storage = host.storage.map (.beside τ))
    (hsettings : larger.settings = host.settings) (r : Run) (step : String) (world : σ)
    (extra : τ) :
    r.persist larger step (world, extra) =
      ((r.persist host step world).1, (r.persist host step world).2, extra) := by
  cases hnone : host.storage with
  | none => simp [persist, hstorage, hnone]
  | some storage =>
    cases hsave : storage.save r.store.flowId (r.record host.settings step) world with
    | mk answer later =>
      cases answer with
      | error e => simp [persist, Storage.beside, hstorage, hsettings, hnone, hsave]
      | ok id =>
        simp only [persist, Storage.beside, hstorage, hsettings, hnone, hsave, Option.map_some]
        split <;> rfl

theorem persist_logged (host : Host σ) (r : Run) (step : String) (world : σ)
    (log : List StepRequest) :
    r.persist host.logged step (world, log) =
      ((r.persist host step world).1, (r.persist host step world).2, log) :=
  persist_beside rfl rfl r step world log

/-- An approval sends what it clears, and the log makes no other difference to it. -/
theorem approve_logged (host : Host σ) (r : Run) (now : Timestamp) (world : σ)
    (log : List StepRequest) :
    ∃ requests, r.Sent host world (.approve now) requests ∧
      r.approve host.logged now (world, log) =
        ((r.approve host now world).1, (r.approve host now world).2, log ++ requests) := by
  have hexit := approval host now r world
  generalize r.approve host now world = exit at hexit
  -- the first three exits lie before the call, and each misses a condition of clearance
  cases hexit with
  | refused hstate =>
    refine ⟨[], sent_nil ?_, ?_⟩
    · rintro step ⟨-, ⟨result, hpending⟩, -, -⟩
      simp [hpending, RunState.pending?] at hstate
    · rw [List.append_nil, approve_of_not_pending host.logged now (world, log) hstate]
  | @unsaved step result later e hstate hsave =>
    refine ⟨[], sent_nil ?_, ?_⟩
    · intro other hcleared
      cases hcleared.step_eq hstate
      exact not_saves_of_persist hsave hcleared.saves
    · simp only [approve, hstate, persist_logged, hsave, List.append_nil]
      rfl
  | @unplanned step result saved later e hstate hsave hplan =>
    refine ⟨[], sent_nil ?_, ?_⟩
    · rintro other ⟨-, -, -, plan, hplanned⟩
      rw [graph_of_persist hsave, hplanned] at hplan
      cases hplan
    · simp only [approve, hstate, persist_logged, hsave, hplan, List.append_nil]
      rfl
  | @answered step result saved plan later last response hstate hsave hplan hanswer =>
    have hcleared := cleared_of_persist now hstate hsave hplan
    refine ⟨_, .inr ⟨saved.request host.settings plan step now, rfl, hcleared⟩, ?_⟩
    simp only [approve, execute, hstate, persist_logged, hsave, hplan, Host.logged_execute,
      Host.logged_settings, Host.logged_registry, hanswer]
  | @failed step result saved plan later last e hstate hsave hplan hanswer =>
    have hcleared := cleared_of_persist now hstate hsave hplan
    refine ⟨_, .inr ⟨saved.request host.settings plan step now, rfl, hcleared⟩, ?_⟩
    simp only [approve, execute, hstate, persist_logged, hsave, hplan, Host.logged_execute,
      Host.logged_settings, Host.logged_registry, hanswer]

/-- What a host keeps beside its world makes no difference to loading a flow. -/
theorem reopen_beside {larger : Host (σ × τ)}
    (hstorage : larger.storage = host.storage.map (.beside τ)) (r : Run) (flowId : String)
    (world : σ) (extra : τ) :
    r.reopen larger flowId (world, extra) =
      ((r.reopen host flowId world).1, (r.reopen host flowId world).2, extra) := by
  cases hnone : host.storage with
  | none => simp [reopen, hstorage, hnone]
  | some storage =>
    cases hload : storage.load flowId world with
    | mk answer later =>
      cases answer <;> simp [reopen, Storage.beside, hstorage, hnone, hload]

theorem reopen_logged (host : Host σ) (r : Run) (flowId : String) (world : σ)
    (log : List StepRequest) :
    r.reopen host.logged flowId (world, log) =
      ((r.reopen host flowId world).1, (r.reopen host flowId world).2, log) :=
  reopen_beside rfl r flowId world log

/-- A command sends what it clears, and the log makes no other difference to it. -/
theorem perform_logged (host : Host σ) (r : Run) (world : σ) (log : List StepRequest)
    (c : Command) :
    ∃ requests, r.Sent host world c requests ∧
      r.perform host.logged (world, log) c =
        ((r.perform host world c).1, (r.perform host world c).2, log ++ requests) := by
  cases c with
  | approve now =>
    obtain ⟨requests, hsent, hlogged⟩ := approve_logged host r now world log
    refine ⟨requests, hsent, ?_⟩
    simp only [perform, hlogged]
  | reopen flowId =>
    refine ⟨[], sent_nil_of_ne_approve nofun, ?_⟩
    simp only [perform, reopen_logged, List.append_nil]
  | start | reject | reset | fillGaps | edit =>
    refine ⟨[], sent_nil_of_ne_approve nofun, ?_⟩
    simp only [perform, List.append_nil, Host.logged_settings]

theorem performAll_concat (host : Host σ) (r : Run) (world : σ) (commands : List Command)
    (c : Command) :
    performAll host r world (commands ++ [c]) =
      (((performAll host r world commands).1.perform host
          (performAll host r world commands).2 c).1.run,
        ((performAll host r world commands).1.perform host
          (performAll host r world commands).2 c).2) := by
  simp [performAll]

theorem performAll_logged (host : Host σ) (r : Run) (world : σ) (log : List StepRequest)
    (commands : List Command) :
    ∃ requests, performAll host.logged r (world, log) commands =
      ((performAll host r world commands).1, (performAll host r world commands).2,
        log ++ requests) := by
  induction commands generalizing r world log with
  | nil => exact ⟨[], by simp [performAll]⟩
  | cons c commands ih =>
    -- the log of the first command is the one that the others start from
    obtain ⟨first, -, hfirst⟩ := perform_logged host r world log c
    obtain ⟨others, hothers⟩ :=
      ih (r.perform host world c).1.run (r.perform host world c).2 (log ++ first)
    refine ⟨first ++ others, ?_⟩
    simp only [performAll, List.foldl_cons, hfirst] at hothers ⊢
    rw [hothers, List.append_assoc]

theorem perform_settled (host : Host σ) (world : σ) (c : Command) (h : r.state.Settled) :
    (r.perform host world c).1.run.state.Settled := by
  cases c with
  | start now => exact start_settled r now
  | approve now => exact approve_settled host now world h
  | reject => exact reject_settled host.settings.policy h
  | reset => exact RunState.settled_idle
  | reopen flowId => exact reopen_settled host flowId world h
  | fillGaps | edit => exact h

theorem performAll_settled (host : Host σ) (world : σ) (commands : List Command)
    (h : r.state.Settled) : (performAll host r world commands).1.state.Settled := by
  induction commands generalizing r world with
  | nil => exact h
  | cons c commands ih => exact ih _ (perform_settled host world c h)

/-- After any commands to a new run the backend is not at work, and the next command sends a request
for the step that it clears, if there is one, and no other request. -/
theorem calls_gated (host : Host σ) (store : Store) (world : σ) (commands : List Command) :
    (∀ step, (performAll host { store } world commands).1.state ≠ .running step) ∧
    calls host store world [] = [] ∧
    ∀ c, ∃ requests,
      calls host store world (commands ++ [c]) = calls host store world commands ++ requests ∧
      (performAll host { store } world commands).1.Sent host
        (performAll host { store } world commands).2 c requests := by
  refine ⟨performAll_settled host world commands RunState.settled_idle, rfl, ?_⟩
  intro c
  obtain ⟨earlier, hearlier⟩ := performAll_logged host { store } world [] commands
  obtain ⟨requests, hsent, hlogged⟩ :=
    perform_logged host (performAll host { store } world commands).1
      (performAll host { store } world commands).2 ([] ++ earlier) c
  refine ⟨requests, ?_, hsent⟩
  rw [calls, calls, performAll_concat, hearlier, hlogged]

end Run

end StepFlow
