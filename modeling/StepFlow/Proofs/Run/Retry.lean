import Mathlib.Logic.Relation
import StepFlow.Proofs.Plan.Rounds
import StepFlow.Proofs.Run.Exchanges

/-!
# Failed approvals leave no trace

An approval that fails because of storage or the backend leaves the run on its step as it was, but
for the message of the error and perhaps the id under which the flow was saved before. So however
often it fails, approving again amounts to approving for the first time.

## Main definitions

* `RunError.faultScope?`: the errors after which a step can be approved again.
* `Run.withFlowId`, `StepRequest.withFlowId`: the same for a flow with another id.
* `Run.Faltered`: an approval fails because of storage or the backend.
* `Run.Dated`: a run with a pending step knows when it was started.

## Main statements

* `Run.approve_fails_cleanly`: what a failed approval changes, and that retrying is transparent.
-/

namespace StepFlow

open Relation (ReflTransGen)

variable {σ τ : Type}

/-- The same request for a flow with another id. -/
def StepRequest.withFlowId (q : StepRequest) (flowId : Option String) : StepRequest :=
  { q with
    flowId
    flow := { q.flow with flowId }
    metadata := { q.metadata with flowId } }

/-- The part of the system at fault if an error leaves the run on its step. -/
def RunError.faultScope? : RunError → Option Scope
  | persistence _ => some .persistence
  | executor _ => some .execution
  | notAwaitingApproval _ | plan _ | noRepository => none

namespace Run

/-- The same run for a flow with another id. -/
def withFlowId (r : Run) (flowId : Option String) : Run :=
  { r with store := { r.store with flowId } }

/-- Whether an approval fails because of storage or the backend. -/
def Faltered (host : Host σ) (before after : Run × σ) : Prop :=
  ∃ now e, (before.1.approve host now before.2).1.answer = .error e ∧ e.faultScope?.isSome ∧
    after = ((before.1.approve host now before.2).1.run, (before.1.approve host now before.2).2)

/-- Whether a run with a pending step knows when it was started. -/
def Dated (r : Run) : Prop :=
  r.state.pending?.isSome → r.startedAt.isSome

variable {host : Host σ} {r saved tried : Run} {step : String} {world later : σ}
  {now : Timestamp} {e : RunError} {scope : Scope} {outcome : Outcome}

section saving

theorem withFlowId_of_persist (h : r.persist host step world = (.ok saved, later)) :
    saved = r.withFlowId saved.store.flowId :=
  eq_of_persist h

/-- Saving gives an id to a flow that has none, and no other one to a flow that has one. -/
theorem flowId_of_persist (h : r.persist host step world = (.ok saved, later)) :
    saved.store.flowId = r.store.flowId ∨ r.store.flowId = none := by
  unfold persist at h
  split at h
  · cases h
    exact .inl rfl
  · split at h
    · simp at h
    · split at h
      · next hnone => exact .inr (Option.isNone_iff_eq_none.1 hnone)
      · cases h
        exact .inl rfl

theorem flowId_of_persist_of_isSome (h : r.persist host step world = (.ok saved, later))
    (hsome : r.store.flowId.isSome) : saved.store.flowId = r.store.flowId := by
  rcases flowId_of_persist h with hsame | hnone
  · exact hsame
  · simp [hnone] at hsome

end saving

section notices

theorem alerts_filter_error (r : Run) (registry : Option Registry) :
    (r.alerts registry).filter (·.level = .error) = [] := by
  simp [alerts, Notice.warning]

theorem following_stay_filter_error (r tried : Run) (step : String) (result : Option Json.Value)
    (scope : Scope) (e : RunError) (registry : Option Registry) :
    ((tried.stay step result scope e : Moved Outcome).following
        (r.alerts registry)).notices.filter (·.level = .error) =
      [.error scope e.diagnostic.chain (some step)] := by
  simp only [Moved.following, stay, List.filter_append, alerts_filter_error]
  rfl

end notices

section failing

theorem advance_answer_ne_error (r : Run) (plan : Plan) (step : String) (response : StepResponse)
    (e : RunError) : (r.advance plan step response).answer ≠ .error e := by
  unfold advance
  split <;> exact nofun

/-- An approval that fails by a fault changes the message of the last error and at most gives the
flow the id under which it was saved. The fault is told once. -/
theorem approve_of_fault (hanswer : (r.approve host now world).1.answer = .error e)
    (hscope : e.faultScope? = some scope) :
    ∃ step result flowId, r.state = .awaitingApproval step result ∧
      (r.approve host now world).1.run =
        { r.withFlowId flowId with lastError := some e.diagnostic.chain } ∧
      (flowId = r.store.flowId ∨ r.store.flowId = none ∧
        ∃ later, r.persist host step world = (.ok (r.withFlowId flowId), later)) ∧
      (r.approve host now world).1.notices.filter (·.level = .error) =
        [.error scope e.diagnostic.chain (some step)] := by
  have hexit := approval host now r world
  generalize r.approve host now world = exit at hexit hanswer ⊢
  cases hexit with
  | refused hstate =>
    cases hanswer
    simp [RunError.faultScope?] at hscope
  | @unsaved step result later cause hstate hsave =>
    cases hanswer
    cases hscope
    refine ⟨step, result, r.store.flowId, hstate, ?_, .inl rfl, ?_⟩
    · simp only [Moved.following_run, stay, ← hstate]
      rfl
    · exact following_stay_filter_error ..
  | unplanned hstate hsave hplan =>
    cases hanswer
    simp [RunError.faultScope?] at hscope
  | answered => exact absurd hanswer (advance_answer_ne_error _ _ _ _ _)
  | @failed step result saved plan later last cause hstate hsave hplan hexec =>
    cases hanswer
    cases hscope
    have hsaved := withFlowId_of_persist hsave
    refine ⟨step, result, saved.store.flowId, hstate, ?_, ?_, ?_⟩
    · simp only [Moved.following_run, stay, ← hstate]
      rw [hsaved]
      rfl
    · rcases flowId_of_persist hsave with hsame | hnone
      · exact .inl hsame
      · exact .inr ⟨hnone, later, hsaved ▸ hsave⟩
    · exact following_stay_filter_error ..

theorem approve_of_notAwaiting {state : String}
    (hanswer : (r.approve host now world).1.answer = .error (.notAwaitingApproval state)) :
    r.approve host now world =
      ({ answer := .error (.notAwaitingApproval state), run := r }, world) := by
  have hexit := approval host now r world
  generalize r.approve host now world = exit at hexit hanswer ⊢
  cases hexit with
  | refused hstate =>
    cases hanswer
    rfl
  | unsaved | unplanned | failed => cases hanswer
  | answered => exact absurd hanswer (advance_answer_ne_error _ _ _ _ _)

/-- An approval on a graph without a plan stops the run and at most gives the flow an id. -/
theorem approve_of_unplanned {cause : PlanError}
    (hanswer : (r.approve host now world).1.answer = .error (.plan cause)) :
    ∃ flowId, (r.approve host now world).1.run =
      { r.withFlowId flowId with
        state := .error cause.diagnostic.message
        lastError := some cause.diagnostic.message } := by
  have hexit := approval host now r world
  generalize r.approve host now world = exit at hexit hanswer ⊢
  cases hexit with
  | refused | unsaved | failed => cases hanswer
  | @unplanned step result saved later e hstate hsave hplan =>
    cases hanswer
    refine ⟨saved.store.flowId, ?_⟩
    simp only [Moved.following_run, halt]
    rw [withFlowId_of_persist hsave]
    rfl
  | answered => exact absurd hanswer (advance_answer_ne_error _ _ _ _ _)

end failing

section retrying

/-- If the backend fails, the run is left as it was saved, with the message of the fault. -/
theorem faltered_of_error {result : Option Json.Value} {plan : Plan} {cause : ExecutorError}
    {last : σ} (now : Timestamp) (hstate : r.state = .awaitingApproval step result)
    (hsave : r.persist host step world = (.ok saved, later))
    (hplan : saved.store.graph.plan = .ok plan)
    (hexec : host.execute (saved.request host.settings plan step now) later =
      (.error cause, last)) :
    Faltered host (r, world)
      ({ saved with
          state := .awaitingApproval step result
          lastError := some (RunError.executor cause).diagnostic.chain }, last) := by
  refine ⟨now, .executor cause, ?_, rfl, ?_⟩ <;>
    simp only [approve, hstate, hsave, hplan, execute, hexec] <;> rfl

/-- After any number of faults the run is what it was, but for the message of the last error and
perhaps the flow id. -/
theorem eq_of_faltered (h : ReflTransGen (Faltered host) (r, world) (tried, later)) :
    ∃ flowId lastError, tried = { r.withFlowId flowId with lastError } ∧
      (r.store.flowId.isSome → flowId = r.store.flowId) := by
  generalize hlast : (tried, later) = last at h
  induction h generalizing tried later with
  | refl =>
    cases hlast
    exact ⟨r.store.flowId, r.lastError, rfl, fun _ => rfl⟩
  | @tail before after _ hfalter ih =>
    obtain ⟨flowId, lastError, hbefore, hid⟩ := @ih before.1 before.2 rfl
    obtain ⟨now, e, hanswer, hscope, rfl⟩ := hfalter
    obtain ⟨scope, hscope⟩ := Option.isSome_iff_exists.1 hscope
    obtain ⟨step, result, newId, -, hrun, hnew, -⟩ := approve_of_fault hanswer hscope
    cases hlast
    refine ⟨newId, some e.diagnostic.chain, ?_, ?_⟩
    · rw [hrun, hbefore]
      rfl
    · intro hsome
      rw [hbefore] at hnew
      -- only a flow without an id gets one
      rcases hnew with hsame | ⟨hnone, -⟩
      · exact hsame.trans (hid hsome)
      · have hlost : flowId = none := hnone
        rw [← hid hsome, hlost] at hsome
        cases hsome

/-- A successful approval saved the flow, had a plan and was answered by the backend. -/
theorem answered_of_ok (hanswer : (r.approve host now world).1.answer = .ok outcome) :
    ∃ step result saved plan later response, r.state = .awaitingApproval step result ∧
      r.persist host step world = (.ok saved, later) ∧ saved.store.graph.plan = .ok plan ∧
      (host.execute (saved.request host.settings plan step now) later).1 = .ok response := by
  have hexit := approval host now r world
  generalize r.approve host now world = exit at hexit hanswer
  cases hexit with
  | refused | unsaved | unplanned | failed => cases hanswer
  | @answered step result saved plan later last response hstate hsave hplan hexec =>
    exact ⟨step, result, saved, plan, later, response, hstate, hsave, hplan, by rw [hexec]⟩

/-- Moving on depends neither on the id of the flow nor on what went wrong before. -/
theorem advance_withFlowId (r : Run) (flowId lastError : Option String) (state : RunState)
    (plan : Plan) (step : String) (response : StepResponse) :
    ({ r.withFlowId flowId with state, lastError }.advance plan step response).answer =
        (r.advance plan step response).answer ∧
      ({ r.withFlowId flowId with state, lastError }.advance plan step response).run =
        (r.advance plan step response).run.withFlowId flowId := by
  unfold advance
  split <;> exact ⟨rfl, rfl⟩

/-- What an approval comes to whose flow is saved and whose request is answered: it depends on the
run and the answer alone, up to the flow id. -/
theorem approve_of_answer {result : Option Json.Value} {plan : Plan} {response : StepResponse}
    (hstate : r.state = .awaitingApproval step result)
    (hsave : r.persist host step world = (.ok saved, later)) (hplan : r.store.graph.plan = .ok plan)
    (hexec : (host.execute (saved.request host.settings plan step now) later).1 = .ok response) :
    (r.approve host now world).1.answer = (r.advance plan step response).answer ∧
      (r.approve host now world).1.run =
        (r.advance plan step response).run.withFlowId saved.store.flowId := by
  have hplanned : saved.store.graph.plan = .ok plan := graph_of_persist hsave ▸ hplan
  have hmoved := approve_of_execute hstate hsave hplanned (Prod.ext hexec rfl)
  have hadvance := advance_withFlowId r saved.store.flowId saved.lastError (.running step) plan
    step response
  rw [← withFlowId_of_persist hsave] at hadvance
  rw [hmoved]
  exact hadvance

/-- What a request says depends on the time only if nobody knows when the run was started. -/
theorem request_time (r : Run) (settings : Settings) (plan : Plan) (step : String)
    {now time : Timestamp} (h : time = now ∨ r.startedAt.isSome) :
    r.request settings plan step time = r.request settings plan step now := by
  rcases h with rfl | hstarted
  · rfl
  · obtain ⟨start, hstart⟩ := Option.isSome_iff_exists.1 hstarted
    simp only [request, hstart, Option.getD_some]

/-- An approval that succeeds after faults is the one that would have succeeded at once: with the
same answer of the backend it sends the same request and ends in the same run, up to the flow id. -/
theorem approve_after_faults (hfaults : ReflTransGen (Faltered host) (r, world) (tried, later))
    (hok : (tried.approve host now later).1.answer = .ok outcome) :
    ∃ request response, tried.exchanges host later (.approve now) = [⟨request, .ok response⟩] ∧
      ∀ (other : Host τ) (start : τ) (time : Timestamp), other.settings = host.settings →
        (∀ step, r.Saves other step start) →
        (∀ request world, (other.execute request world).1 = .ok response) →
        (time = now ∨ r.startedAt.isSome) →
        ∃ first, r.exchanges other start (.approve time) = [⟨first, .ok response⟩] ∧
          request = first.withFlowId request.flowId ∧
          (r.store.flowId.isSome → request = first) ∧
          (r.approve other time start).1.answer = .ok outcome ∧
          (tried.approve host now later).1.run =
            (r.approve other time start).1.run.withFlowId
              (tried.approve host now later).1.run.store.flowId := by
  obtain ⟨flowId, lastError, rfl, hid⟩ := eq_of_faltered hfaults
  obtain ⟨step, result, saved, plan, middle, response, hstate, hsave, hplan, hexec⟩ :=
    answered_of_ok hok
  have hexchange := exchanges_of_persist now hstate hsave hplan
  rw [hexec] at hexchange
  refine ⟨_, response, hexchange, ?_⟩
  intro other start time hsettings hsaves hanswers htime
  have hfirst : r.state = .awaitingApproval step result := hstate
  have hplanned : r.store.graph.plan = .ok plan := graph_of_persist hsave ▸ hplan
  obtain ⟨alone, after, hsave'⟩ := exists_persist_of_saves (hsaves step)
  have hplan' : alone.store.graph.plan = .ok plan := graph_of_persist hsave' ▸ hplanned
  have hexchange' := exchanges_of_persist time hfirst hsave' hplan'
  rw [hanswers, hsettings] at hexchange'
  -- both requests are the one of `r`, for a flow with the id that it was saved under
  have hrequest : saved.request host.settings plan step now =
      (r.request host.settings plan step now).withFlowId saved.store.flowId := by
    rw [withFlowId_of_persist hsave]
    rfl
  have hrequest' : alone.request host.settings plan step time =
      (r.request host.settings plan step now).withFlowId alone.store.flowId := by
    rw [withFlowId_of_persist hsave', ← request_time r host.settings plan step htime]
    rfl
  obtain ⟨hanswer, hrun⟩ := approve_of_answer hstate hsave hplanned hexec
  obtain ⟨hanswer', hrun'⟩ := approve_of_answer hfirst hsave' hplanned (hanswers _ after)
  obtain ⟨hmoved, hmovedRun⟩ := advance_withFlowId r flowId lastError r.state plan step response
  refine ⟨_, hexchange', ?_, ?_, ?_, ?_⟩
  · rw [hrequest, hrequest']
    rfl
  · intro hsome
    have hid' : flowId.isSome := by rw [hid hsome, hsome]
    rw [hrequest, hrequest', flowId_of_persist_of_isSome hsave hid',
      flowId_of_persist_of_isSome hsave' hsome, ← hid hsome]
    rfl
  · rw [hanswer', ← hmoved]
    exact hanswer.symm.trans hok
  · have hmovedRun : ({ r.withFlowId flowId with lastError }.advance plan step response).run =
        (r.advance plan step response).run.withFlowId flowId := hmovedRun
    rw [hrun, hrun', hmovedRun]
    rfl

end retrying

section dating

theorem dated_of_not_pending (h : r.state.pending? = none) : r.Dated := by
  intro hpending
  rw [h] at hpending
  cases hpending

theorem dated_start (r : Run) (now : Timestamp) : (r.start now).run.Dated := by
  unfold start
  split
  · exact dated_of_not_pending rfl
  · split
    · exact dated_of_not_pending rfl
    · exact fun _ => rfl

theorem Dated.approve (h : r.Dated) (host : Host σ) (now : Timestamp) (world : σ) :
    (r.approve host now world).1.run.Dated := by
  have hexit := approval host now r world
  generalize r.approve host now world = exit at hexit
  cases hexit with
  | refused => exact h
  | unsaved hstate hsave => exact fun _ => h (by simp [hstate, RunState.pending?])
  | unplanned => exact dated_of_not_pending rfl
  | answered hstate hsave hplan hexec =>
    have hstarted := h (by simp [hstate, RunState.pending?])
    rw [eq_of_persist hsave]
    simp only [Moved.following_run, advance]
    split
    · exact dated_of_not_pending rfl
    · exact fun _ => hstarted
  | failed hstate hsave hplan hexec =>
    have hstarted := h (by simp [hstate, RunState.pending?])
    rw [eq_of_persist hsave]
    exact fun _ => hstarted

theorem Dated.reject (h : r.Dated) (policy : RejectPolicy) : (r.reject policy).run.Dated := by
  unfold Run.reject
  split
  · exact h
  · exact h
  · next step hpending =>
    split
    · exact dated_of_not_pending rfl
    · split
      · exact h
      · exact fun _ => h (by simp [hpending])

theorem Dated.perform (h : r.Dated) (host : Host σ) (world : σ) (c : Command) :
    (r.perform host world c).1.run.Dated := by
  cases c with
  | start now => exact dated_start r now
  | approve now => exact h.approve host now world
  | reject => exact h.reject host.settings.policy
  | reset => exact dated_of_not_pending rfl
  | reopen flowId =>
    simp only [Run.perform, ofMoved]
    rcases reopen_cases host r flowId world with ⟨_, _, hrun⟩ | ⟨_, _, hrun⟩ <;> rw [hrun]
    · exact h
    · exact dated_of_not_pending rfl
  | fillGaps | edit => exact h

/-- Every run that commands lead to knows when it was started. -/
theorem dated_performAll (host : Host σ) (store : Store) (world : σ) (commands : List Command) :
    (performAll host { store } world commands).1.Dated := by
  have hall : ∀ r : Run, r.Dated → ∀ world, (performAll host r world commands).1.Dated := by
    induction commands with
    | nil => exact fun r h _ => h
    | cons c commands ih => exact fun r h world => ih _ (h.perform host world c) _
  exact hall { store } (dated_of_not_pending rfl) world

end dating

/-- What a failed approval changes. After a fault of storage or the backend the same step with the
same result is pending, only the message of the last error is new and perhaps the id under which the
flow was saved, and one error is told, for that step. Without a pending step nothing changes. If the
graph has no plan, the state and the message are new and perhaps the flow id.

After any number of faults, an approval that succeeds sends the request that the first one would
have sent if the flow had been saved and the backend had given the same answer, and ends in the same
run, both up to a new flow id. (The request tells when the run was started, which is known of every
run with a pending step that commands lead to.) -/
theorem approve_fails_cleanly (host : Host σ) (r : Run) (world : σ) (now : Timestamp) :
    (∀ e scope, (r.approve host now world).1.answer = .error e → e.faultScope? = some scope →
      ∃ step result flowId, r.state = .awaitingApproval step result ∧
        (r.approve host now world).1.run =
          { r.withFlowId flowId with lastError := some e.diagnostic.chain } ∧
        (flowId = r.store.flowId ∨ r.store.flowId = none ∧
          ∃ later, r.persist host step world = (.ok (r.withFlowId flowId), later)) ∧
        (r.approve host now world).1.notices.filter (·.level = .error) =
          [.error scope e.diagnostic.chain (some step)]) ∧
    (∀ state, (r.approve host now world).1.answer = .error (.notAwaitingApproval state) →
      r.approve host now world =
        ({ answer := .error (.notAwaitingApproval state), run := r }, world)) ∧
    (∀ cause, (r.approve host now world).1.answer = .error (.plan cause) →
      ∃ flowId, (r.approve host now world).1.run =
        { r.withFlowId flowId with
          state := .error cause.diagnostic.message
          lastError := some cause.diagnostic.message }) ∧
    (∀ tried later outcome, ReflTransGen (Faltered host) (r, world) (tried, later) →
      (tried.approve host now later).1.answer = .ok outcome →
      ∃ request response, tried.exchanges host later (.approve now) = [⟨request, .ok response⟩] ∧
        ∀ (other : Host τ) (start : τ) (time : Timestamp), other.settings = host.settings →
          (∀ step, r.Saves other step start) →
          (∀ request world, (other.execute request world).1 = .ok response) →
          (time = now ∨ r.startedAt.isSome) →
          ∃ first, r.exchanges other start (.approve time) = [⟨first, .ok response⟩] ∧
            request = first.withFlowId request.flowId ∧
            (r.store.flowId.isSome → request = first) ∧
            (r.approve other time start).1.answer = .ok outcome ∧
            (tried.approve host now later).1.run =
              (r.approve other time start).1.run.withFlowId
                (tried.approve host now later).1.run.store.flowId) ∧
    ∀ store start commands, (performAll host { store } start commands).1.Dated := by
  refine ⟨?_, ?_, ?_, ?_, ?_⟩
  · exact fun e scope hanswer hscope => approve_of_fault hanswer hscope
  · exact fun state hanswer => approve_of_notAwaiting hanswer
  · exact fun cause hanswer => approve_of_unplanned hanswer
  · exact fun tried later outcome hfaults hok => approve_after_faults hfaults hok
  · exact fun store start commands => dated_performAll host store start commands

/-- A backend that fails twice before it answers, and one that answers at once. -/
theorem approve_fails_cleanly_twice :
    let done : StepResponse := .finished (.str "done")
    let steady : Host (List ExecutorError) := {
      storage := some {
        save := fun id _ world => (.ok (id.getD "f1"), world)
        load := fun id world => (.error (.notFound id), world) }
      execute := fun _ world => (.ok done, world)
      registry := none
      settings := {} }
    let shaky : Host (List ExecutorError) := { steady with
      execute := fun _ world => match world with
        | [] => (.ok done, [])
        | e :: errors => (.error e, errors) }
    let r : Run := {
      store := .ofGraph ⟨[{ id := "a" }], []⟩
      state := .awaitingApproval "a" none
      startedAt := some .epoch }
    let faults : List ExecutorError := [.transport "timeout", .rejected "a" "busy"]
    ∃ tried request first, ReflTransGen (Faltered shaky) (r, faults) (tried, []) ∧
      tried.exchanges shaky [] (.approve .epoch) = [⟨request, .ok done⟩] ∧
      r.exchanges steady [] (.approve .epoch) = [⟨first, .ok done⟩] ∧
      request = first.withFlowId request.flowId := by
  intro done steady shaky r faults
  let after (cause : ExecutorError) : Run := { r.withFlowId (some "f1") with
    lastError := some (RunError.executor cause).diagnostic.chain }
  let once := after (.transport "timeout")
  let twice := after (.rejected "a" "busy")
  have hplan : r.store.graph.plan = _ :=
    linearize_eq_of_iterate_round [{ id := "a" }] [] (by decide) 2 rfl
  have hfirst : Faltered shaky (r, faults) (once, faults.tail) :=
    faltered_of_error .epoch rfl rfl hplan rfl
  have hsave : once.persist shaky "a" faults.tail = (.ok once, faults.tail) := rfl
  have hsecond := faltered_of_error .epoch rfl hsave hplan rfl
  have hfaults : ReflTransGen (Faltered shaky) (r, faults) (twice, []) :=
    (ReflTransGen.single hfirst).tail hsecond
  have hsave' : twice.persist shaky "a" [] = (.ok twice, []) := rfl
  have hanswer : (twice.approve shaky .epoch []).1.answer = .ok (.completed (.str "done")) :=
    (approve_of_answer rfl hsave' hplan rfl).1
  obtain ⟨-, -, -, hretry, -⟩ :=
    @approve_fails_cleanly (List ExecutorError) (List ExecutorError) shaky r faults .epoch
  obtain ⟨request, response, hexchange, hsame⟩ := hretry twice [] _ hfaults hanswer
  have hdone : response = done := by
    have hmade := exchanges_of_persist .epoch rfl hsave' hplan
    rw [hexchange] at hmade
    cases hmade
    rfl
  subst hdone
  have hsaves : ∀ step, r.Saves steady step [] := by
    intro step storage hstorage
    cases hstorage
    exact ⟨_, rfl⟩
  obtain ⟨first, hfirst, hrequest, -⟩ :=
    hsame steady [] .epoch rfl hsaves (fun _ _ => rfl) (.inl rfl)
  exact ⟨twice, request, first, hfaults, hexchange, hfirst, hrequest⟩

end Run

end StepFlow
