import StepFlow.Proofs.Run.Candidate
import StepFlow.Proofs.Plan.Rounds
import StepFlow.Proofs.Run.InMemory

/-!
# Suggestions stay on the plan

A plan holds every node that an edge leads to from one of its steps. So what is suggested for a
planned step, be it a target of the step or its successor in the plan, is planned as well, and there
is nothing to suggest only at the end of the plan. A run whose backend heeds the suggestions never
leaves the plan.

## Main definitions

* `Host.Heeds`: a backend that names what was suggested whenever it answers.
* `Run.OnPlan`: the pending step is in the plan.
* `Run.Command.keepsGraph`: commands that leave the graph alone.
* `Run.published`: the notices that are published while commands are carried out.
* `Run.OnCourse`: what a run that heeds the suggestions keeps.

## Main statements

* `Plan.mem_ids_of_candidate?`, `Plan.candidate?_eq_none_iff`: what is suggested.
* `Run.onCourse_perform`: one case for each command.
* `Run.suggestions_stay_on_plan`: what that means for requests and for runs.
-/

namespace StepFlow

variable {σ : Type}

/-- Whether the backend names the step that was suggested whenever it answers. -/
def Host.Heeds (host : Host σ) : Prop :=
  ∀ request world response,
    (host.execute request world).1 = .ok response → response.next = request.candidate

theorem Host.Follows.heeds {host : Host σ} (h : host.Follows) : host.Heeds := by
  intro request world response hanswer
  obtain ⟨expected, hexpected, hnext⟩ := h request world
  obtain rfl : response = expected := Except.ok.inj (hanswer.symm.trans hexpected)
  exact hnext

/-- The notice that the backend named a step that is not planned. -/
def Notice.unknownStep (target : String) : Notice :=
  .warning .execution "backend named an unknown step" target

@[simp] theorem Notice.unknownStep_ne_info (target : String) (scope : Scope)
    (message step : String) : unknownStep target ≠ .info scope message step := by
  simp [unknownStep, warning, info]

@[simp] theorem Notice.unknownStep_ne_error (target : String) (scope : Scope) (message : String)
    (step : Option String) : unknownStep target ≠ .error scope message step := by
  simp [unknownStep, warning, error]

namespace Plan

variable {p : Plan} {nodes : List Node} {edges : List Edge} {id next : String} {s : Step}

/-- Where no edge ends nowhere, what is suggested for a planned step is planned. -/
theorem mem_ids_of_candidate? (h : linearize nodes edges = .ok p)
    (htargets : ∀ e ∈ edges, e.target ∈ nodeIds nodes) (hid : id ∈ p.ids)
    (hnext : Run.candidate? p id = some next) : next ∈ p.ids := by
  obtain ⟨i, hplace⟩ := List.mem_iff_getElem?.1 hid
  obtain ⟨s, hs, rfl⟩ := exists_step hplace
  rw [candidate?_of_getElem? (nodup_ids h) hs, Option.orElse_eq_some] at hnext
  rcases hnext with htarget | ⟨-, hfollowing⟩
  · -- the plan is closed under the edges, so it holds the target of one that leaves a planned step
    have hmem := List.mem_of_getElem? hs
    have hreached := (mem_ids_iff_reachable h).1 hid
    have hlink : Link nodes edges s.id next :=
      ⟨hreached.mem_nodeIds, mem_nodeIds_of_candidate h htargets hmem htarget,
        joined_of_candidate h hmem htarget⟩
    exact (mem_ids_iff_reachable h).2 (hreached.link hlink)
  · exact List.mem_of_getElem? hfollowing

theorem candidate_eq_none_iff (h : linearize nodes edges = .ok p) (hs : s ∈ p.steps) :
    s.next.candidate = none ↔ ∀ e ∈ edges, e.source ≠ s.id := by
  rw [Successors.candidate, List.head?_eq_none_iff,
    targets_of_mem_resolve (mem_resolve_of_mem_plan h hs), targetsFrom_eq_nil_iff]

/-- Nothing is suggested for a planned step only if no edge leaves it and it is the last one. -/
theorem candidate?_eq_none_iff (h : linearize nodes edges = .ok p) (hid : id ∈ p.ids) :
    Run.candidate? p id = none ↔
      (∀ e ∈ edges, e.source ≠ id) ∧ p.ids.getLast? = some id := by
  obtain ⟨i, hplace⟩ := List.mem_iff_getElem?.1 hid
  obtain ⟨s, hs, rfl⟩ := exists_step hplace
  rw [candidate?_of_getElem? (nodup_ids h) hs, Option.orElse_eq_none,
    candidate_eq_none_iff h (List.mem_of_getElem? hs),
    getElem?_succ_eq_none_iff (nodup_ids h) hplace]

end Plan

namespace Run

variable {host : Host σ} {r after : Run} {world : σ} {graph : Graph} {plan : Plan}
  {step : String} {earlier notices : List Notice} {c : Command} {commands : List Command}

/-- Whether the pending step of a run, if there is one, is in the plan of its graph. -/
def OnPlan (r : Run) : Prop :=
  ∀ step, r.state.pending? = some step → ∃ plan, r.store.graph.plan = .ok plan ∧ step ∈ plan.ids

/-- Whether a command leaves the graph alone. -/
def Command.keepsGraph : Command → Bool
  | .edit c => c.keepsGraph
  | c => c.keepsFlow

/-- The notices that are published while commands are carried out, in their order. -/
def published (host : Host σ) : Run → σ → List Command → List Notice
  | _, _, [] => []
  | r, world, c :: commands =>
    (r.perform host world c).1.notices ++
      published host (r.perform host world c).1.run (r.perform host world c).2 commands

/-- Whether a run still has a graph and has not left its plan, and no notice says that it had. -/
structure OnCourse (graph : Graph) (after : Run) (notices : List Notice) : Prop where
  graph_eq : after.store.graph = graph
  onPlan : after.OnPlan
  no_unknown : ∀ target, .unknownStep target ∉ notices

theorem onPlan_of_pending (hplan : r.store.graph.plan = .ok plan) (hstep : step ∈ plan.ids)
    (hpending : r.state.pending? = some step) : r.OnPlan := by
  intro other hother
  obtain rfl : step = other := Option.some.inj (hpending.symm.trans hother)
  exact ⟨plan, hplan, hstep⟩

theorem onPlan_of_not_pending (h : r.state.pending? = none) : r.OnPlan := by
  intro step hpending
  rw [h] at hpending
  cases hpending

theorem OnPlan.mem_ids (h : r.OnPlan) {result : Option Json.Value}
    (hstate : r.state = .awaitingApproval step result) (hplan : r.store.graph.plan = .ok plan) :
    step ∈ plan.ids := by
  obtain ⟨planned, hplanned, hstep⟩ := h step (congrArg RunState.pending? hstate)
  rw [hplan] at hplanned
  cases hplanned
  exact hstep

theorem OnCourse.append (hearlier : ∀ target, .unknownStep target ∉ earlier)
    (h : OnCourse graph after notices) : OnCourse graph after (earlier ++ notices) where
  graph_eq := h.graph_eq
  onPlan := h.onPlan
  no_unknown target hmem := (List.mem_append.1 hmem).elim (hearlier target) (h.no_unknown target)

theorem unknownStep_not_mem_alerts (r : Run) (registry : Option Registry) (target : String) :
    .unknownStep target ∉ r.alerts registry := by
  simp [alerts, Notice.unknownStep, Notice.warning]

/-! ### Operations on the run -/

theorem onCourse_halt {α : Type} (r : Run) (e : PlanError) :
    OnCourse r.store.graph (r.halt e : Moved α).run (r.halt e : Moved α).notices where
  graph_eq := rfl
  onPlan := onPlan_of_not_pending rfl
  no_unknown target := by simp [halt]

theorem onCourse_stay {α : Type} (hplan : r.store.graph.plan = .ok plan) (hstep : step ∈ plan.ids)
    (result : Option Json.Value) (scope : Scope) (e : RunError) :
    OnCourse r.store.graph (r.stay step result scope e : Moved α).run
      (r.stay step result scope e : Moved α).notices where
  graph_eq := rfl
  onPlan := onPlan_of_pending hplan hstep rfl
  no_unknown target := by simp [stay]

theorem onCourse_start (r : Run) (now : Timestamp) :
    OnCourse r.store.graph (r.start now).run (r.start now).notices := by
  unfold start
  split
  · exact onCourse_halt r _
  · next plan hplan =>
    split
    · exact onCourse_halt r _
    · next step hentry =>
      refine ⟨rfl, onPlan_of_pending hplan (entry_mem_ids hentry) rfl, fun target => ?_⟩
      simp

/-- The notice is given exactly if the step that the backend named is not planned. -/
theorem unknownStep_mem_advanceNotices_iff {target other : String} :
    .unknownStep other ∈ advanceNotices plan step target ↔
      other = target ∧ target ∉ plan.ids := by
  rw [← Plan.contains_iff]
  cases h : plan.contains target with
  | true => simp [advanceNotices, h]
  | false => simp [advanceNotices, h, Notice.unknownStep, Notice.warning, Notice.info]

theorem onCourse_advance {response : StepResponse} (hplan : r.store.graph.plan = .ok plan)
    (hnext : ∀ target, response.target? = some target → target ∈ plan.ids) :
    OnCourse r.store.graph (r.advance plan step response).run
      (r.advance plan step response).notices := by
  unfold advance
  split
  · refine ⟨rfl, onPlan_of_not_pending rfl, fun target => ?_⟩
    simp
  · next target htarget =>
    have hplanned := hnext target htarget
    exact ⟨rfl, onPlan_of_pending hplan hplanned rfl,
      fun _ hmem => (unknownStep_mem_advanceNotices_iff.1 hmem).2 hplanned⟩

/-- What a backend that heeds the suggestion for a planned step names is planned. -/
theorem mem_ids_of_heeded (hheeds : host.Heeds) (hplan : r.store.graph.plan = .ok plan)
    (htargets : ∀ e ∈ r.store.graph.edges, e.target ∈ nodeIds r.store.graph.nodes)
    (hstep : step ∈ plan.ids) {now : Timestamp} {response : StepResponse} {target : String}
    (hanswer : (host.execute (r.request host.settings plan step now) world).1 = .ok response)
    (htarget : response.target? = some target) : target ∈ plan.ids := by
  have hnamed := (Option.filter_eq_some_iff.1 htarget).1
  rw [hheeds _ _ _ hanswer] at hnamed
  exact Plan.mem_ids_of_candidate? hplan htargets hstep hnamed

theorem onCourse_approve (hheeds : host.Heeds)
    (htargets : ∀ e ∈ r.store.graph.edges, e.target ∈ nodeIds r.store.graph.nodes)
    (h : r.OnPlan) (now : Timestamp) (world : σ) :
    OnCourse r.store.graph (r.approve host now world).1.run
      (r.approve host now world).1.notices := by
  have hexit := approval host now r world
  generalize r.approve host now world = exit at hexit
  cases hexit with
  | refused => exact ⟨rfl, h, fun _ => List.not_mem_nil⟩
  | unsaved hstate =>
    obtain ⟨plan, hplan, hstep⟩ := h _ (congrArg RunState.pending? hstate)
    exact (onCourse_stay hplan hstep _ _ _).append (r.unknownStep_not_mem_alerts _)
  | unplanned hstate hsave hplan =>
    obtain ⟨plan, hplanned, -⟩ := h _ (congrArg RunState.pending? hstate)
    rw [graph_of_persist hsave, hplanned] at hplan
    cases hplan
  | @answered step result saved plan later last response hstate hsave hplan hanswer =>
    have hgraph := graph_of_persist hsave
    have hstep := h.mem_ids hstate (hgraph ▸ hplan)
    rw [← hgraph] at htargets ⊢
    have hadvance : OnCourse saved.store.graph
        ({ saved with state := .running step }.advance plan step response).run
        ({ saved with state := .running step }.advance plan step response).notices :=
      onCourse_advance hplan fun target htarget =>
        mem_ids_of_heeded hheeds hplan htargets hstep (congrArg Prod.fst hanswer) htarget
    exact hadvance.append (r.unknownStep_not_mem_alerts _)
  | @failed step result saved plan later last e hstate hsave hplan =>
    have hgraph := graph_of_persist hsave
    have hstep := h.mem_ids hstate (hgraph ▸ hplan)
    rw [← hgraph]
    exact OnCourse.append (r.unknownStep_not_mem_alerts _)
      (onCourse_stay (r := { saved with state := .running step }) hplan hstep _ _ _)

theorem onCourse_reject (h : r.OnPlan) (policy : RejectPolicy) :
    OnCourse r.store.graph (r.reject policy).run (r.reject policy).notices := by
  unfold reject
  split
  · exact ⟨rfl, h, fun _ => List.not_mem_nil⟩
  · exact ⟨rfl, h, fun target => by simp [hold]⟩
  · split
    · exact onCourse_halt r _
    · next plan hplan =>
      split
      · exact ⟨rfl, h, fun target => by simp [hold]⟩
      · next previous hprevious =>
        have hplanned := Plan.mem_ids_of_preceding? hprevious
        exact ⟨rfl, onPlan_of_pending hplan hplanned rfl,
          fun target => by simp [stepBack]⟩

/-! ### Runs -/

/-- A command that leaves the graph alone does not make a run leave the plan. -/
theorem onCourse_perform (hheeds : host.Heeds)
    (htargets : ∀ e ∈ r.store.graph.edges, e.target ∈ nodeIds r.store.graph.nodes)
    (h : r.OnPlan) (hkeeps : c.keepsGraph = true) (world : σ) :
    OnCourse r.store.graph (r.perform host world c).1.run (r.perform host world c).1.notices := by
  cases c with
  | start now => exact onCourse_start r now
  | approve now => exact onCourse_approve hheeds htargets h now world
  | reject => exact onCourse_reject h host.settings.policy
  | reset => exact ⟨rfl, onPlan_of_not_pending rfl, fun _ => List.not_mem_nil⟩
  | edit c =>
    obtain ⟨hgraph, hnotices⟩ := Store.edit_of_keepsGraph (s := r.store) hkeeps
    refine ⟨hgraph, ?_, ?_⟩
    · intro step hpending
      obtain ⟨plan, hplan, hstep⟩ := h step hpending
      exact ⟨plan, (congrArg Graph.plan hgraph).trans hplan, hstep⟩
    · simp [perform, ofEdited, hnotices]
  | reopen | fillGaps => cases hkeeps

theorem onCourse_performAll (hheeds : host.Heeds)
    (htargets : ∀ e ∈ r.store.graph.edges, e.target ∈ nodeIds r.store.graph.nodes)
    (h : r.OnPlan) (hkeeps : ∀ c ∈ commands, c.keepsGraph = true) (world : σ) :
    OnCourse r.store.graph (performAll host r world commands).1
      (published host r world commands) := by
  induction commands generalizing r world with
  | nil => exact ⟨rfl, h, fun _ => List.not_mem_nil⟩
  | cons c commands ih =>
    obtain ⟨hc, hcommands⟩ := List.forall_mem_cons.1 hkeeps
    have hfirst := onCourse_perform hheeds htargets h hc world
    rw [← hfirst.graph_eq] at htargets ⊢
    exact (ih htargets hfirst.onPlan hcommands _).append hfirst.no_unknown

/-- A run whose pending step is planned, on a graph without edges that end nowhere. An approval
makes one request if the flow can be saved. What it suggests to the backend is planned, and it
suggests nothing only if no edge leaves the step and the step is the last one of the plan. If the
backend names what is suggested whenever it answers, then no commands that leave the graph alone make
the run wait for a step that is not planned, and there is no notice of an unknown step. -/
theorem suggestions_stay_on_plan (host : Host σ) (r : Run) (world : σ)
    (htargets : ∀ e ∈ r.store.graph.edges, e.target ∈ nodeIds r.store.graph.nodes)
    (hplanned : r.OnPlan) :
    (∀ now step, r.state.pending? = some step → r.Saves host step world →
      ∃ x, r.exchanges host world (.approve now) = [x]) ∧
    (∀ now, ∀ x ∈ r.exchanges host world (.approve now), ∃ plan,
      r.store.graph.plan = .ok plan ∧ r.state.pending? = some x.request.stepId ∧
      (∀ next, x.request.candidate = some next → next ∈ plan.ids) ∧
      (x.request.candidate = none ↔
        (∀ e ∈ r.store.graph.edges, e.source ≠ x.request.stepId) ∧
          plan.ids.getLast? = some x.request.stepId)) ∧
    (host.Heeds → ∀ commands, (∀ c ∈ commands, c.keepsGraph = true) →
      let after := (performAll host r world commands).1
      after.store.graph = r.store.graph ∧ after.OnPlan ∧
        ∀ target, .unknownStep target ∉ published host r world commands) := by
  refine ⟨?_, ?_, ?_⟩
  · intro now step hpending hsaves
    obtain ⟨result, hstate⟩ := RunState.exists_of_pending? hpending
    obtain ⟨plan, hplan, -⟩ := hplanned step hpending
    exact exists_exchange now hstate hsaves hplan
  · intro now x hx
    obtain ⟨step, result, saved, later, plan, hstate, hsave, hplan, hrequest⟩ := of_mem_exchanges hx
    rw [graph_of_persist hsave] at hplan
    have hstep := hplanned.mem_ids hstate hplan
    rw [hrequest]
    exact ⟨plan, hplan, congrArg RunState.pending? hstate,
      fun next hnext => Plan.mem_ids_of_candidate? hplan htargets hstep hnext,
      Plan.candidate?_eq_none_iff hplan hstep⟩
  · intro hheeds commands hkeeps after
    have hcourse := onCourse_performAll hheeds htargets hplanned hkeeps world
    exact ⟨hcourse.graph_eq, hcourse.onPlan, hcourse.no_unknown⟩

/-- No edge leaves the pending step, but another step comes after it. -/
theorem suggestions_stay_on_plan_of_sibling :
    let graph : Graph :=
      ⟨[{ id := "a" }, { id := "b" }, { id := "c" }], [⟨"1", "a", "c", none⟩]⟩
    let r : Run := { store := .ofGraph graph, state := .awaitingApproval "c" none }
    let commands : List Command := [.approve .epoch, .edit (.record "b" .null), .approve .epoch]
    (∀ e ∈ graph.edges, e.target ∈ nodeIds graph.nodes) ∧ r.OnPlan ∧ Host.following.Heeds ∧
      (∀ c ∈ commands, c.keepsGraph = true) ∧
      (∃ x, r.exchanges .following () (.approve .epoch) = [x] ∧
        ∃ next ∈ ["a", "c", "b"], x.request.candidate = some next) ∧
      (performAll .following r () commands).1.OnPlan ∧
      ∀ target, .unknownStep target ∉ published .following r () commands := by
  intro graph r commands
  let plan : Plan := ⟨[0, 2, 1].filterMap fun i => (graph.steps[i]? : Option Step)⟩
  have hplan : r.store.graph.plan = .ok plan :=
    (linearize_eq_of_iterate_round graph.nodes graph.edges (by decide) 5 rfl).trans rfl
  have hids : plan.ids = ["a", "c", "b"] := rfl
  have htargets : ∀ e ∈ graph.edges, e.target ∈ nodeIds graph.nodes := by decide
  have hplanned : r.OnPlan := onPlan_of_pending hplan (by rw [hids]; decide) rfl
  have hheeds : Host.following.Heeds := Host.following_follows.heeds
  have hkeeps : ∀ c ∈ commands, c.keepsGraph = true := by
    simp [commands, Command.keepsGraph, Command.keepsFlow, Store.Command.keepsGraph]
  obtain ⟨hsent, hrequests, hcourse⟩ := suggestions_stay_on_plan .following r () htargets hplanned
  obtain ⟨-, hstays, hsilent⟩ := hcourse hheeds commands hkeeps
  refine ⟨htargets, hplanned, hheeds, hkeeps, ?_, hstays, hsilent⟩
  obtain ⟨x, hx⟩ := hsent .epoch "c" rfl (Host.following_saves r "c" ())
  obtain ⟨planned, hsame, hpending, hmem, hnone⟩ :=
    hrequests .epoch x (by rw [hx]; exact List.mem_singleton_self x)
  rw [hplan] at hsame
  cases hsame
  rw [hids] at hmem hnone
  rw [← Option.some.inj hpending] at hnone
  obtain ⟨next, hnext⟩ := Option.ne_none_iff_exists'.1 fun h => absurd (hnone.1 h).2 (by decide)
  exact ⟨x, hx, next, hmem next hnext, hnext⟩

end Run

end StepFlow
