import StepFlow.Proofs.Run.Retry
import StepFlow.Proofs.Wire.Stable

/-!
# Answers over the wire

A backend may be called directly, or its responses may be written and read again before the run gets
them. Reading takes a blank next step for none, while a run that is answered directly takes only the
empty text for none. So the two ways differ exactly on responses that name a step of nothing but
white space: answered directly the run moves on to that step, and over the wire it is complete.

## Main definitions

* `StepResponse.received`: what is read of a response.
* `StepResponse.NamesBlank`: a response names a step of nothing but white space.
* `Host.wired`: the host whose responses are written and read again.

## Main statements

* `Run.approve_wired_of_not_blank`: all other responses drive an approval alike.
* `Run.performAll_wired`: and so do they drive a whole run.
* `Run.approve_answered_over_wire`: an approval that is answered either way.
-/

namespace StepFlow

variable {σ : Type}

namespace StepResponse

/-- A response as it is read: a blank next step counts as none. -/
def received (r : StepResponse) : StepResponse :=
  { r with next := nonBlank r.next }

/-- Whether a response names a step whose id is not empty and nothing but white space. -/
def NamesBlank (r : StepResponse) : Prop :=
  ∃ id, r.next = some id ∧ id ≠ "" ∧ Text.isBlankText id

variable {r : StepResponse}

theorem fromJson_toJson_eq_received (r : StepResponse) : fromJson r.toJson = .ok r.received :=
  fromJson_toJson r

/-- The empty text is blank, so nothing more is dropped from what was read. -/
theorem target?_received (r : StepResponse) : r.received.target? = nonBlank r.next := by
  have hempty : Text.isBlankText "" = true := by decide
  simp only [target?, received, nonBlank, Option.filter_filter]
  congr 1
  funext id
  by_cases h : id = "" <;> simp [h, hempty]

theorem isFinal_iff : r.isFinal = true ↔ r.target? = none := by
  rw [isFinal, Option.isNone_iff_eq_none]

/-- Only a step of nothing but white space is lost on the wire. -/
theorem nonBlank_next_of_not_blank (h : ¬r.NamesBlank) : nonBlank r.next = r.target? := by
  cases hnext : r.next with
  | none => simp [target?, nonBlank, hnext]
  | some id =>
    by_cases hempty : id = ""
    · subst hempty
      simp only [target?, nonBlank, hnext]
      decide
    · have hvisible : ¬Text.isBlankText id = true := fun hblank => h ⟨id, hnext, hempty, hblank⟩
      simp [target?, nonBlank, hnext, Option.filter, hempty, hvisible]

theorem nonBlank_next_of_blank (h : r.NamesBlank) : nonBlank r.next = none := by
  obtain ⟨id, hnext, -, hblank⟩ := h
  simp [nonBlank, hnext, hblank]

theorem nonBlank_next_eq_none_iff :
    nonBlank r.next = none ↔ r.isFinal = true ∨ r.NamesBlank := by
  by_cases h : r.NamesBlank
  · exact iff_of_true (nonBlank_next_of_blank h) (.inr h)
  · rw [nonBlank_next_of_not_blank h, isFinal_iff, or_iff_left h]

end StepResponse

/-- The host whose backend answers over the wire: each response is written and read again. -/
def Host.wired (host : Host σ) : Host σ :=
  { host with
    execute := fun request world =>
      let (answer, later) := host.execute request world
      (answer.bind fun r => (StepResponse.fromJson r.toJson).mapError (.decode ∘ .shape), later) }

@[simp] theorem Host.wired_settings (host : Host σ) : host.wired.settings = host.settings :=
  rfl

theorem Host.wired_execute (host : Host σ) (request : StepRequest) (world : σ) :
    host.wired.execute request world =
      ((host.execute request world).1.map StepResponse.received,
        (host.execute request world).2) := by
  simp only [wired, StepResponse.fromJson_toJson_eq_received]
  cases (host.execute request world).1 <;> rfl

theorem Host.wired_execute_of_answer {host : Host σ} {request : StepRequest} {world last : σ}
    {response : StepResponse} (h : host.execute request world = (.ok response, last)) :
    host.wired.execute request world = (.ok response.received, last) := by
  rw [Host.wired_execute, h]
  rfl

namespace Run

variable {host : Host σ} {r saved : Run} {plan : Plan} {step : String}
  {result : Option Json.Value} {now : Timestamp} {world later last : σ}
  {response response' : StepResponse}

/-- Moving on depends on the step that a response leads to and on its output. -/
theorem advance_congr (htarget : response.target? = response'.target?)
    (houtput : response.output = response'.output) :
    r.advance plan step response = r.advance plan step response' := by
  simp only [advance, htarget, houtput]

theorem advance_received (h : ¬response.NamesBlank) :
    r.advance plan step response.received = r.advance plan step response :=
  advance_congr ((StepResponse.target?_received response).trans
    (StepResponse.nonBlank_next_of_not_blank h)) rfl

/-- A run is complete after a response that leads to no step. -/
theorem state_advance_eq_complete_iff :
    (r.advance plan step response).run.state = .complete ↔ response.target? = none := by
  unfold advance
  split
  · next h => exact iff_of_true rfl h
  · next target h => simp [h]

theorem persist_wired (host : Host σ) (r : Run) (step : String) (world : σ) :
    r.persist host.wired step world = r.persist host step world :=
  rfl

/-- An approval that is answered moves on with what is read of the answer. -/
theorem approve_wired_of_answer (hstate : r.state = .awaitingApproval step result)
    (hsave : r.persist host step world = (.ok saved, later))
    (hplan : saved.store.graph.plan = .ok plan)
    (hanswer : host.execute (saved.request host.settings plan step now) later =
      (.ok response, last)) :
    r.approve host.wired now world =
      (({ saved with state := .running step }.advance plan step response.received).following
        (r.alerts host.registry), last) := by
  have hsave' : r.persist host.wired step world = (.ok saved, later) := hsave
  exact approve_of_execute hstate hsave' hplan (Host.wired_execute_of_answer hanswer)

/-- An approval goes on alike over the wire unless it is answered by a blank step. -/
theorem approve_wired_of_not_blank
    (h : ∀ request response, r.exchanges host world (.approve now) = [⟨request, .ok response⟩] →
      ¬response.NamesBlank) :
    r.approve host.wired now world = r.approve host now world := by
  have hexit := approval host now r world
  generalize r.approve host now world = exit at hexit
  cases hexit with
  | refused hstate => exact approve_of_not_pending host.wired now world hstate
  | unsaved hstate hsave =>
    simp only [approve, hstate, persist_wired, hsave]
    rfl
  | unplanned hstate hsave hplan =>
    simp only [approve, hstate, persist_wired, hsave, hplan]
    rfl
  | answered hstate hsave hplan hanswer =>
    have hexchange := exchanges_of_persist now hstate hsave hplan
    rw [hanswer] at hexchange
    rw [approve_wired_of_answer hstate hsave hplan hanswer, advance_received (h _ _ hexchange)]
  | failed hstate hsave hplan hanswer =>
    simp only [approve, hstate, persist_wired, hsave, hplan, execute, Host.wired_execute,
      Host.wired_settings, hanswer]
    rfl

/-- A command goes on alike over the wire if the backend never answers by a blank step. -/
theorem perform_wired (hhost : ∀ request world response,
      (host.execute request world).1 = .ok response → ¬response.NamesBlank)
    (r : Run) (world : σ) (c : Command) :
    r.perform host.wired world c = r.perform host world c := by
  cases c with
  | approve now =>
    have happrove : r.approve host.wired now world = r.approve host now world := by
      refine approve_wired_of_not_blank fun request response hexchange => ?_
      obtain ⟨_, _, _, _, later, _, -, -, -, -, hanswer⟩ := of_exchanges_eq_singleton hexchange
      exact hhost request later response (by rw [hanswer])
    simp only [perform, happrove]
  | start | reject | reset | reopen | fillGaps | edit => rfl

theorem performAll_wired (hhost : ∀ request world response,
      (host.execute request world).1 = .ok response → ¬response.NamesBlank)
    (r : Run) (world : σ) (commands : List Command) :
    performAll host.wired r world commands = performAll host r world commands := by
  simp only [performAll, perform_wired hhost]

/-- An approval that a backend answers, with the same answer given directly and over the wire. The
run gets what is read of the written response. If the response names no step of nothing but white
space, both approvals come to the same in every respect. Given directly, a response completes the
run if and only if it is final. Over the wire it also does so if it names such a step: then the run
that is answered directly moves on to that step and keeps its result. -/
theorem approve_answered_over_wire {request : StepRequest}
    (hexchange : r.exchanges host world (.approve now) = [⟨request, .ok response⟩]) :
    let direct := r.approve host now world
    let wired := r.approve host.wired now world
    (∃ read, StepResponse.fromJson response.toJson = .ok read ∧
      r.exchanges host.wired world (.approve now) = [⟨request, .ok read⟩]) ∧
    (¬response.NamesBlank → wired = direct) ∧
    (direct.1.run.state = .complete ↔ response.isFinal = true) ∧
    (wired.1.run.state = .complete ↔ response.isFinal = true ∨ response.NamesBlank) ∧
    ∀ id, response.next = some id → id ≠ "" → Text.isBlankText id = true →
      ∃ step result plan, r.state = .awaitingApproval step result ∧
        r.store.graph.plan = .ok plan ∧
        let next := (plan.following? id).map (·.id)
        direct.1.answer = .ok (.advanced id next response.output) ∧
        direct.1.run.state = .awaitingApproval id (some response.output) ∧
        direct.1.run.store.pointers = ⟨some id, next⟩ ∧
        direct.1.run.store.context = r.store.context.record id response.output ∧
        wired.1.answer = .ok (.completed response.output) ∧
        wired.1.run.state = .complete ∧
        wired.1.run.store.pointers = ⟨some step, none⟩ ∧
        wired.1.run.store.context = r.store.context := by
  intro direct wired
  obtain ⟨step, result, saved, plan, later, last, hstate, hsave, hplan, rfl, hanswer⟩ :=
    of_exchanges_eq_singleton hexchange
  have hdirect : direct = (({ saved with state := .running step }.advance plan step
      response).following (r.alerts host.registry), last) :=
    approve_of_execute hstate hsave hplan hanswer
  have hwired : wired = (({ saved with state := .running step }.advance plan step
      response.received).following (r.alerts host.registry), last) :=
    approve_wired_of_answer hstate hsave hplan hanswer
  refine ⟨⟨response.received, StepResponse.fromJson_toJson_eq_received response, ?_⟩, ?_, ?_, ?_,
    ?_⟩
  · have hsave' : r.persist host.wired step world = (.ok saved, later) := hsave
    rw [exchanges_of_persist now hstate hsave' hplan, Host.wired_settings,
      Host.wired_execute_of_answer hanswer]
  · refine fun hvisible => approve_wired_of_not_blank fun _ _ hother => ?_
    rw [hexchange] at hother
    cases hother
    exact hvisible
  · rw [hdirect, Moved.following_run, state_advance_eq_complete_iff, StepResponse.isFinal_iff]
  · rw [hwired, Moved.following_run, state_advance_eq_complete_iff, StepResponse.target?_received,
      StepResponse.nonBlank_next_eq_none_iff]
  · intro id hnext hne hblank
    have htarget : response.target? = some id := by
      simp [StepResponse.target?, hnext, Option.filter, hne]
    have hread : response.received.target? = none := by
      rw [StepResponse.target?_received,
        StepResponse.nonBlank_next_of_blank ⟨id, hnext, hne, hblank⟩]
    refine ⟨step, result, plan, hstate, graph_of_persist hsave ▸ hplan, ?_⟩
    rw [eq_of_persist hsave] at hdirect hwired
    refine ⟨?_, ?_, ?_, ?_, ?_, ?_, ?_, ?_⟩ <;>
      simp only [hdirect, hwired, advance, htarget, hread] <;> rfl

/-- A backend that names the second of two steps is understood alike. -/
theorem approve_answered_over_wire_by_step :
    let response : StepResponse := .advance "b" (.str "done")
    let host : Host Unit := {
      storage := none
      execute := fun _ world => (.ok response, world)
      registry := none
      settings := {} }
    let r : Run := {
      store := .ofGraph ⟨[{ id := "a" }, { id := "b" }], [Edge.sequential "a" "b"]⟩
      state := .awaitingApproval "a" none }
    ∃ request, r.exchanges host () (.approve .epoch) = [⟨request, .ok response⟩] ∧
      r.approve host.wired .epoch () = r.approve host .epoch () ∧
      (r.approve host .epoch ()).1.run.state ≠ .complete := by
  intro response host r
  have hplan : r.store.graph.plan = _ :=
    linearize_eq_of_iterate_round [{ id := "a" }, { id := "b" }] [Edge.sequential "a" "b"]
      (by decide) 3 rfl
  have hsave : r.persist host "a" () = (.ok r, ()) := rfl
  have hexchange := exchanges_of_persist .epoch rfl hsave hplan
  obtain ⟨-, hsame, hdirect, -⟩ := approve_answered_over_wire hexchange
  have hvisible : ¬response.NamesBlank := by
    rintro ⟨id, hnext, -, hblank⟩
    cases hnext
    revert hblank
    decide
  refine ⟨_, hexchange, hsame hvisible, fun hcomplete => ?_⟩
  have hfinal := hdirect.1 hcomplete
  revert hfinal
  decide

/-- A step of one space is not final. Given directly the run waits for the approval of it, and over
the wire it is complete. -/
theorem blank_step_completes_over_wire :
    let response : StepResponse := .advance " " (.str "done")
    let host : Host Unit := {
      storage := none
      execute := fun _ world => (.ok response, world)
      registry := none
      settings := {} }
    let r : Run := {
      store := .ofGraph ⟨[{ id := "a" }, { id := "b" }], [Edge.sequential "a" "b"]⟩
      state := .awaitingApproval "a" none }
    response.isFinal = false ∧
      (r.approve host .epoch ()).1.run.state = .awaitingApproval " " (some (.str "done")) ∧
      (r.approve host.wired .epoch ()).1.run.state = .complete := by
  intro response host r
  have hplan : r.store.graph.plan = _ :=
    linearize_eq_of_iterate_round [{ id := "a" }, { id := "b" }] [Edge.sequential "a" "b"]
      (by decide) 3 rfl
  have hsave : r.persist host "a" () = (.ok r, ()) := rfl
  have hanswer : ∀ request, host.execute request () = (.ok response, ()) := fun _ => rfl
  refine ⟨by decide, ?_, ?_⟩
  · rw [approve_of_execute rfl hsave hplan (hanswer _)]
    rfl
  · rw [approve_wired_of_answer rfl hsave hplan (hanswer _), Moved.following_run,
      state_advance_eq_complete_iff]
    decide

end Run

end StepFlow
