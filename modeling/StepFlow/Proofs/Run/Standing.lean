import StepFlow.Proofs.Plan.Navigation
import StepFlow.Proofs.Plan.Reachable
import StepFlow.Proofs.Run.Retry
import StepFlow.Proofs.Store.Edits

/-!
# Where a run stands

Where a run stands is written down three times: in its state, in its pointers and in its results.
Every operation keeps the three in step with each other, with the plan of the graph, and with what
was exchanged with the backend, whatever the backend answers.

## Main definitions

* `Exchange.result?`: the result that an exchange leads to.
* `Context.ofResults`: results recorded one after the other.
* `Chronicle.Undisturbed`: commands that leave the flow of a started run alone.
* `Chronicle.Standing`: state, pointers, results and exchanges of a run agree.

## Main statements

* `Chronicle.Standing.performAll`: they agree after any such commands.
* `Chronicle.performAll_standing`: what that means for a run of a new coordinator.
-/

namespace StepFlow

variable {σ : Type}

/-- The result that an exchange leads to: the output for the step that the backend named. There is
none if the backend failed or named no step. -/
def Exchange.result? (e : Exchange) : Option StepResult :=
  match e.answer with
  | .error _ => none
  | .ok response => response.target?.map fun step => ⟨step, response.output⟩

/-- Results recorded one after the other. -/
def Context.ofResults (results : List StepResult) : Context :=
  results.foldl (fun context entry => context.record entry.step entry.result) {}

theorem Context.ofResults_concat (results : List StepResult) (entry : StepResult) :
    ofResults (results ++ [entry]) = (ofResults results).record entry.step entry.result := by
  simp [ofResults]

namespace Run.Command

/-- Whether a command edits the flow. -/
def isEdit : Run.Command → Bool
  | .fillGaps | .edit _ => true
  | _ => false

/-- Whether a command records a result by hand. -/
def isRecord : Run.Command → Bool
  | .edit (.record ..) => true
  | _ => false

/-- Whether a command starts a run. -/
def isStart : Run.Command → Bool
  | .start _ => true
  | _ => false

end Run.Command

namespace Chronicle

/-- Whether commands record no result by hand and leave the flow of a started run alone: after a
start, nothing is edited before the results are cleared by a reset or by opening a flow. -/
def Undisturbed (host : Host σ) : Bool → Chronicle σ → List Run.Command → Prop
  | _, _, [] => True
  | started, s, c :: commands =>
    c.isRecord = false ∧ (started = true → c.isEdit = false) ∧
      Undisturbed host ((started || c.isStart) && !c.clears (s.run.perform host s.world c).1)
        (s.perform host c) commands

/-- Whether state, pointers, results and exchanges of a run agree. -/
structure Standing (s : Chronicle σ) : Prop where
  results : s.run.store.context = .ofResults (s.exchanges.filterMap Exchange.result?)
  pending : ∀ step result, s.run.state = .awaitingApproval step result →
    s.run.store.pointers.current = some step ∧
    (∃ plan, s.run.store.graph.plan = .ok plan ∧
      plan.Continues step s.run.store.pointers.next) ∧
    ∀ value, result = some value → s.run.store.context.get? step = some value
  complete : s.run.state = .complete → ∃ last, s.exchanges.getLast? = some last ∧
    s.run.store.pointers = ⟨some last.request.stepId, none⟩
  idle : s.run.state = .idle → s.exchanges = []

variable {host : Host σ} {s : Chronicle σ}

theorem standing_of_idle (hstate : s.run.state = .idle) (hempty : s.run.store.context = {})
    (hnone : s.exchanges = []) : s.Standing where
  results := by rw [hempty, hnone]; rfl
  pending step result h := by rw [hstate] at h; cases h
  complete h := by rw [hstate] at h; cases h
  idle _ := hnone

theorem standing_new {store : Store} (hempty : store.context = {}) (world : σ) :
    Standing ⟨{ store }, world, []⟩ :=
  standing_of_idle rfl hempty rfl

theorem standing_of_awaiting {step : String} {result : Option Json.Value} {plan : Plan}
    (hstate : s.run.state = .awaitingApproval step result)
    (hresults : s.run.store.context = .ofResults (s.exchanges.filterMap Exchange.result?))
    (hcurrent : s.run.store.pointers.current = some step)
    (hplan : s.run.store.graph.plan = .ok plan)
    (hnext : plan.Continues step s.run.store.pointers.next)
    (hvalue : ∀ value, result = some value → s.run.store.context.get? step = some value) :
    s.Standing where
  results := hresults
  pending step' result' h := by
    rw [hstate] at h
    cases h
    exact ⟨hcurrent, ⟨plan, hplan, hnext⟩, hvalue⟩
  complete h := by rw [hstate] at h; cases h
  idle h := by rw [hstate] at h; cases h

theorem standing_of_complete {last : Exchange} (hstate : s.run.state = .complete)
    (hresults : s.run.store.context = .ofResults (s.exchanges.filterMap Exchange.result?))
    (hlast : s.exchanges.getLast? = some last)
    (hpointers : s.run.store.pointers = ⟨some last.request.stepId, none⟩) : s.Standing where
  results := hresults
  pending step result h := by rw [hstate] at h; cases h
  complete _ := ⟨last, hlast, hpointers⟩
  idle h := by rw [hstate] at h; cases h

theorem standing_of_error {message : String} (hstate : s.run.state = .error message)
    (hresults : s.run.store.context = .ofResults (s.exchanges.filterMap Exchange.result?)) :
    s.Standing where
  results := hresults
  pending step result h := by rw [hstate] at h; cases h
  complete h := by rw [hstate] at h; cases h
  idle h := by rw [hstate] at h; cases h

theorem Standing.start (h : s.Standing) (now : Timestamp) :
    Standing { s with run := (s.run.start now).run } := by
  unfold Run.start
  split
  · exact standing_of_error rfl h.results
  · next plan hplan =>
    split
    · exact standing_of_error rfl h.results
    · next step _ =>
      have hnext := Plan.continues_following? (nodup_ids hplan) step
      refine standing_of_awaiting rfl h.results rfl hplan hnext ?_
      intro value hvalue
      cases hvalue

theorem Standing.reject (h : s.Standing) (policy : RejectPolicy) :
    Standing { s with run := (s.run.reject policy).run } := by
  unfold Run.reject
  split
  · exact h
  · exact h
  · next step _ =>
    split
    · exact standing_of_error rfl h.results
    · next plan hplan =>
      split
      · exact h
      · next previous hprevious =>
        have hnext := Plan.continues_preceding? (nodup_ids hplan) hprevious
        exact standing_of_awaiting rfl h.results rfl hplan hnext fun _ hvalue => hvalue

/-- A fault of storage or the backend leaves the run where it stands. -/
theorem Standing.stay (h : s.Standing) {step : String} {result : Option Json.Value}
    (hstate : s.run.state = .awaitingApproval step result) (flowId lastError : Option String)
    (world : σ) {exchanges : List Exchange}
    (hnone : exchanges.filterMap Exchange.result? = []) :
    Standing ⟨{ s.run.withFlowId flowId with
      state := .awaitingApproval step result, lastError }, world, s.exchanges ++ exchanges⟩ := by
  obtain ⟨hcurrent, ⟨plan, hplan, hnext⟩, hvalue⟩ := h.pending step result hstate
  refine standing_of_awaiting rfl ?_ hcurrent hplan hnext hvalue
  rw [List.filterMap_append, hnone, List.append_nil]
  exact h.results

/-- Moving on as the backend answered: its result is recorded, and the step that it named is
pending; or the run is complete. -/
theorem Standing.advance (h : s.Standing) {plan : Plan} (hplan : s.run.store.graph.plan = .ok plan)
    (request : StepRequest) (response : StepResponse) (flowId : Option String) (state : RunState)
    (world : σ) :
    Standing ⟨({ s.run.withFlowId flowId with state }.advance plan request.stepId response).run,
      world, s.exchanges ++ [⟨request, .ok response⟩]⟩ := by
  cases htarget : response.target? with
  | none =>
    have hnone : Exchange.result? ⟨request, .ok response⟩ = none := by
      simp [Exchange.result?, htarget]
    simp only [Run.advance, htarget]
    refine standing_of_complete rfl ?_ List.getLast?_concat rfl
    simp only [List.filterMap_append, List.filterMap_cons, hnone, List.filterMap_nil,
      List.append_nil]
    exact h.results
  | some target =>
    have hsome : Exchange.result? ⟨request, .ok response⟩ = some ⟨target, response.output⟩ := by
      simp [Exchange.result?, htarget]
    have hnext := Plan.continues_following? (nodup_ids hplan) target
    simp only [Run.advance, htarget]
    refine standing_of_awaiting rfl ?_ rfl hplan hnext ?_
    · simp only [List.filterMap_append, List.filterMap_cons, hsome, List.filterMap_nil,
        Context.ofResults_concat, ← h.results]
      rfl
    · intro value hvalue
      cases hvalue
      exact (Context.get?_record _ _ _ _).trans (if_pos rfl)

theorem Standing.approve (h : s.Standing) (host : Host σ) (now : Timestamp) :
    Standing ⟨(s.run.approve host now s.world).1.run, (s.run.approve host now s.world).2,
      s.exchanges ++ s.run.exchanges host s.world (.approve now)⟩ := by
  have hexit := Run.approval host now s.run s.world
  generalize s.run.approve host now s.world = exit at hexit
  cases hexit with
  | refused hstate =>
    rw [Run.exchanges_of_refused now hstate, List.append_nil]
    exact h
  | unsaved hstate hsave =>
    rw [Run.exchanges_of_unsaved now hstate hsave]
    exact h.stay hstate _ _ _ rfl
  | unplanned hstate hsave hplan =>
    rw [Run.exchanges_of_unplanned now hstate hsave hplan, List.append_nil]
    rw [Run.withFlowId_of_persist hsave]
    exact standing_of_error rfl h.results
  | answered hstate hsave hplan hexec =>
    rw [Run.exchanges_of_persist now hstate hsave hplan, hexec]
    rw [Run.withFlowId_of_persist hsave]
    exact h.advance (Run.graph_of_persist hsave ▸ hplan) (Run.request ..) _ _ _ _
  | failed hstate hsave hplan hexec =>
    rw [Run.exchanges_of_persist now hstate hsave hplan, hexec]
    rw [Run.withFlowId_of_persist hsave]
    exact h.stay hstate _ _ _ rfl

theorem Standing.reopen (h : s.Standing) (host : Host σ) (flowId : String) :
    (s.perform host (.reopen flowId)).Standing := by
  rcases Run.reopen_cases host s.run flowId s.world with ⟨e, hfault, hrun⟩ | ⟨flow, hdone, hrun⟩
  · have hkeeps : (Run.Command.reopen flowId).clears
        (s.run.perform host s.world (.reopen flowId)).1 = false := by
      simp only [Run.perform, Run.Command.clears, Run.ofMoved, hfault]
      rfl
    rw [perform_of_quiet host s (by rintro _ ⟨⟩) hkeeps]
    simp only [Run.perform, Run.ofMoved, hrun]
    exact ⟨h.results, h.pending, h.complete, h.idle⟩
  · have hclears : (Run.Command.reopen flowId).clears
        (s.run.perform host s.world (.reopen flowId)).1 = true := by
      simp only [Run.perform, Run.Command.clears, Run.ofMoved, hdone]
      rfl
    rw [perform_of_clears host s hclears]
    simp only [Run.perform, Run.ofMoved, hrun]
    exact standing_new rfl _

/-- An edit of a flow whose run was not started. -/
theorem Standing.edit (h : s.Standing) (hidle : s.run.state = .idle) {c : Store.Command}
    (hc : ∀ step result, c ≠ .record step result) :
    Standing { s with run := { s.run with store := (s.run.store.edit c).store } } := by
  have hempty : s.run.store.context = {} := by
    rw [h.results, h.idle hidle]
    rfl
  refine standing_of_idle hidle ?_ (h.idle hidle)
  rcases Store.context_edit hc with hkept | hnone
  · exact hkept.trans hempty
  · exact hnone

theorem Standing.perform (h : s.Standing) (host : Host σ) {c : Run.Command}
    (hrecord : c.isRecord = false) (hedit : c.isEdit = true → s.run.state = .idle) :
    (s.perform host c).Standing := by
  cases c with
  | start now =>
    rw [perform_of_quiet host s (by rintro _ ⟨⟩) rfl]
    exact h.start now
  | approve now =>
    rw [perform_of_not_clears host s rfl]
    exact h.approve host now
  | reject =>
    rw [perform_of_quiet host s (by rintro _ ⟨⟩) rfl]
    exact h.reject host.settings.policy
  | reset =>
    rw [perform_of_clears host s rfl]
    exact standing_new rfl s.world
  | reopen flowId => exact h.reopen host flowId
  | fillGaps =>
    rw [perform_of_quiet host s (by rintro _ ⟨⟩) rfl]
    exact h.edit (hedit rfl) (by rintro _ _ ⟨⟩)
  | edit c =>
    rw [perform_of_quiet host s (by rintro _ ⟨⟩) rfl]
    refine h.edit (hedit rfl) ?_
    rintro step result rfl
    cases hrecord

/-- A command that clears the results gives the run up. -/
theorem idle_of_clears (host : Host σ) {c : Run.Command}
    (h : c.clears (s.run.perform host s.world c).1 = true) :
    (s.perform host c).run.state = .idle := by
  rw [perform_of_clears host s h]
  cases c with
  | reset => rfl
  | reopen flowId =>
    simp only [Run.perform, Run.ofMoved, Run.Command.clears] at h ⊢
    rcases Run.reopen_cases host s.run flowId s.world with ⟨_, hfault, _⟩ | ⟨_, _, hrun⟩
    · rw [hfault] at h
      cases h
    · rw [hrun]
  | start | approve | reject | fillGaps | edit => cases h

/-- Only a start ends the rest of a run. -/
theorem idle_perform (host : Host σ) (hidle : s.run.state = .idle) {c : Run.Command}
    (hstart : c.isStart = false) : (s.perform host c).run.state = .idle := by
  have hpending : s.run.state.pending? = none := by rw [hidle]; rfl
  rw [perform_eq]
  cases c with
  | start now => cases hstart
  | approve now =>
    simp only [Run.perform, Run.ofMoved, Run.approve_of_not_pending host now s.world hpending]
    exact hidle
  | reject =>
    simp only [Run.perform, Run.ofMoved, Run.reject, hpending]
    exact hidle
  | reset => rfl
  | reopen flowId =>
    simp only [Run.perform, Run.ofMoved]
    rcases Run.reopen_cases host s.run flowId s.world with ⟨_, _, hrun⟩ | ⟨_, _, hrun⟩ <;> rw [hrun]
    exact hidle
  | fillGaps | edit => exact hidle

theorem Standing.performAll (h : s.Standing) {started : Bool}
    (hidle : started = false → s.run.state = .idle) {commands : List Run.Command}
    (hundisturbed : Undisturbed host started s commands) :
    (s.performAll host commands).Standing := by
  induction commands generalizing s started with
  | nil => exact h
  | cons c commands ih =>
    obtain ⟨hrecord, hedit, hothers⟩ := hundisturbed
    -- an edit comes before a start, when there are no results that it could put out of step
    have hfree : c.isEdit = true → s.run.state = .idle := by
      intro hc
      refine hidle (Bool.eq_false_iff.2 fun hstarted => ?_)
      rw [hedit hstarted] at hc
      cases hc
    refine ih (h.perform host hrecord hfree) ?_ hothers
    -- the run counts as not started if it was not and is not now, or if it was given up
    intro hflag
    rcases Bool.and_eq_false_iff.1 hflag with hrest | hclears
    · obtain ⟨hbefore, hstart⟩ := Bool.or_eq_false_iff.1 hrest
      exact idle_perform host (hidle hbefore) hstart
    · exact idle_of_clears host (by simpa using hclears)

theorem Standing.approve_error (h : s.Standing) (host : Host σ) (now : Timestamp)
    {message : String} (herror : (s.run.approve host now s.world).1.run.state = .error message) :
    s.run.state = .error message := by
  have hexit := Run.approval host now s.run s.world
  generalize s.run.approve host now s.world = exit at hexit herror
  cases hexit with
  | refused => exact herror
  | unsaved | failed => cases herror
  | unplanned hstate hsave hplan =>
    -- a step is pending only if the graph has a plan, and saving leaves the graph as it is
    obtain ⟨-, ⟨plan, hplanned, -⟩, -⟩ := h.pending _ _ hstate
    rw [Run.graph_of_persist hsave, hplanned] at hplan
    cases hplan
  | answered =>
    simp only [Moved.following_run, Run.advance] at herror
    split at herror <;> cases herror

theorem Standing.reject_error (h : s.Standing) (policy : RejectPolicy) {message : String}
    (herror : (s.run.reject policy).run.state = .error message) :
    s.run.state = .error message := by
  unfold Run.reject at herror
  split at herror
  · exact herror
  · exact herror
  · next step hpending =>
    split at herror
    · next hplan =>
      obtain ⟨result, hstate⟩ := RunState.exists_of_pending? hpending
      obtain ⟨-, ⟨plan, hplanned, -⟩, -⟩ := h.pending step result hstate
      rw [hplanned] at hplan
      cases hplan
    · split at herror
      · exact herror
      · cases herror

/-- Where a run stands after any commands that leave a started run alone, whatever storage and
backend do. A pending step is the current one, and the next one is what follows it in the plan; the
result that it was reached with is recorded. A complete run stands on the step that was executed
last. The results are those of the exchanges since they were cleared. No approval and no rejection
stops a run. -/
theorem performAll_standing (host : Host σ) (store : Store) (hempty : store.context = {})
    (world : σ) (commands : List Run.Command)
    (hundisturbed : Undisturbed host false ⟨{ store }, world, []⟩ commands) :
    let s := performAll host ⟨{ store }, world, []⟩ commands
    (s.run, s.world) = Run.performAll host { store } world commands ∧
    (∀ step result, s.run.state = .awaitingApproval step result →
      s.run.store.pointers.current = some step ∧
      ∃ plan, s.run.store.graph.plan = .ok plan ∧
        plan.Continues step s.run.store.pointers.next) ∧
    (∀ step value, s.run.state = .awaitingApproval step (some value) →
      s.run.store.context.get? step = some value) ∧
    (s.run.state = .complete → ∃ last, s.exchanges.getLast? = some last ∧
      s.run.store.pointers = ⟨some last.request.stepId, none⟩) ∧
    s.run.store.context = .ofResults (s.exchanges.filterMap Exchange.result?) ∧
    (∀ now message, (s.perform host (.approve now)).run.state = .error message →
      s.run.state = .error message) ∧
    ∀ message, (s.perform host .reject).run.state = .error message →
      s.run.state = .error message := by
  intro s
  have h : s.Standing := (standing_new hempty world).performAll (fun _ => rfl) hundisturbed
  refine ⟨run_performAll host _ commands, ?_, ?_, h.complete, h.results, ?_, ?_⟩
  · intro step result hstate
    obtain ⟨hcurrent, hplan, -⟩ := h.pending step result hstate
    exact ⟨hcurrent, hplan⟩
  · intro step value hstate
    obtain ⟨-, -, hvalue⟩ := h.pending step (some value) hstate
    exact hvalue value rfl
  · intro now message herror
    rw [perform_eq] at herror
    exact h.approve_error host now herror
  · intro message herror
    rw [perform_eq] at herror
    exact h.reject_error host.settings.policy herror

/-- A flow of two steps that is edited, started, and approved once. -/
theorem performAll_standing_onEditedFlow :
    let host : Host Unit := {
      storage := none
      execute := fun request world => (.ok ⟨request.candidate, .str request.stepId, .null⟩, world)
      registry := none
      settings := {} }
    let store : Store := .ofGraph ⟨[{ id := "a" }, { id := "b" }], []⟩
    let commands : List Run.Command :=
      [.edit (.connect "a" "b"), .start .epoch, .approve .epoch]
    let s := performAll host ⟨{ store }, (), []⟩ commands
    Undisturbed host false ⟨{ store }, (), []⟩ commands ∧
      s.run.state = .awaitingApproval "b" (some (.str "a")) ∧
      s.run.store.pointers.current = some "b" ∧
      s.run.store.context.get? "b" = some (.str "a") := by
  intro host store commands
  have hundisturbed : Undisturbed host false ⟨{ store }, (), []⟩ commands :=
    ⟨rfl, nofun, rfl, nofun, rfl, fun _ => rfl, trivial⟩
  let edited := perform host ⟨{ store }, (), []⟩ (.edit (.connect "a" "b"))
  let plan : Plan := ⟨edited.run.store.graph.steps⟩
  have hplan : edited.run.store.graph.plan = .ok plan :=
    (linearize_eq_of_iterate_round [{ id := "a" }, { id := "b" }] [.sequential "a" "b"]
      (by decide) 3 rfl).trans rfl
  let started : Chronicle Unit := { edited with run := {
    store := edited.run.store.setPointers ⟨some "a", some "b"⟩
    state := .awaitingApproval "a" none
    startedAt := some .epoch } }
  have hstarted : edited.perform host (.start .epoch) = started :=
    perform_start_of_entry host edited .epoch hplan rfl
  have hsave : started.run.persist host "a" () = (.ok started.run, ()) := rfl
  have happroved := perform_approve_of_answer host started .epoch rfl hsave hplan rfl
  have hstate : (performAll host ⟨{ store }, (), []⟩ commands).run.state =
      .awaitingApproval "b" (some (.str "a")) := by
    simp only [commands, performAll_cons, performAll_nil]
    rw [hstarted, happroved]
    rfl
  obtain ⟨-, hcurrent, hresult, -⟩ := performAll_standing host store rfl () commands hundisturbed
  exact ⟨hundisturbed, hstate, (hcurrent _ _ hstate).1, hresult _ _ hstate⟩

end Chronicle

end StepFlow
