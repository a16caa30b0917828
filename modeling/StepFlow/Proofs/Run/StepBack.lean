import StepFlow.Proofs.Run.Suggestion

/-!
# Walking back through the plan

A rejection may step back, and then the step before the pending one is pending. Rejections one after
the other walk back through the plan, place by place, until they come to its first step. There, and
at a step that is not planned, a rejection leaves the run as it is.

## Main definitions

* `Run.pendingAt`: a run with another pending step.

## Main statements

* `Run.reject_of_unpreceded`: a rejection where nothing comes before the pending step.
* `Run.reject_of_preceded`: a rejection one place further on.
* `Run.walk_back`: the run after several rejections.
* `Run.rejections_walk_back`: what rejections do under either policy.
-/

namespace StepFlow.Run

variable {σ : Type}

/-- The run with another pending step and what comes after it. The step is shown with the result
that is recorded for it. -/
def pendingAt (r : Run) (step : String) (next : Option String) : Run :=
  { r with
    store := r.store.setPointers ⟨some step, next⟩
    state := .awaitingApproval step (r.store.context.get? step) }

/-- Of several moves only the last one is seen. -/
theorem pendingAt_pendingAt (r : Run) (step later : String) (next following : Option String) :
    (r.pendingAt step next).pendingAt later following = r.pendingAt later following :=
  rfl

variable {host : Host σ} {r : Run} {world : σ} {plan : Plan} {step : String} {k : Nat}

/-- A rejection that leaves the run as it is. -/
theorem perform_reject_of_hold {message : String}
    (h : r.reject host.settings.policy = r.hold step message) :
    r.perform host world .reject =
      ({ answer := .ok (.step step), run := r, notices := [.info .execution message step] },
        world) := by
  simp only [perform, h]
  rfl

theorem reject_of_hold (hpending : r.state.pending? = some step) :
    r.reject .hold = r.hold step "step rejected, holding" := by
  simp only [reject, hpending]

/-- Where nothing comes before the pending step, there is nothing to step back to. -/
theorem reject_of_unpreceded (hpending : r.state.pending? = some step)
    (hplan : r.store.graph.plan = .ok plan) (hnone : plan.preceding? step = none) :
    r.reject .stepBack = r.hold step "step rejected at first step, holding" := by
  simp only [reject, hpending, hplan, hnone]

theorem reject_of_first (hpending : r.state.pending? = some step)
    (hplan : r.store.graph.plan = .ok plan) (hplace : plan.ids[0]? = some step) :
    r.reject .stepBack = r.hold step "step rejected at first step, holding" :=
  reject_of_unpreceded hpending hplan (Plan.preceding?_of_first (nodup_ids hplan) hplace)

/-- One place further on, a rejection steps back. -/
theorem reject_of_preceded (hpending : r.state.pending? = some step)
    (hplan : r.store.graph.plan = .ok plan) (hplace : plan.ids[k + 1]? = some step) :
    ∃ previous, plan.ids[k]? = some previous ∧ r.reject .stepBack =
      { answer := .ok previous
        run := r.pendingAt previous (some step)
        notices := [.info .execution s!"step {step} rejected, stepped back" previous] } := by
  have hlt : k < plan.ids.length :=
    Nat.lt_of_succ_lt (List.getElem?_eq_some_iff.1 hplace).1
  have hbefore := Plan.map_preceding?_of_getElem? (nodup_ids hplan) hplace
  rw [List.getElem?_eq_getElem hlt] at hbefore
  obtain ⟨previous, hprevious, hid⟩ := Option.map_eq_some_iff.1 hbefore
  refine ⟨previous.id, by rw [List.getElem?_eq_getElem hlt, hid], ?_⟩
  simp only [reject, hpending, hplan, hprevious]
  rfl

/-- A rejection of a planned step is told once, whether it steps back or not. -/
theorem notices_reject (hpending : r.state.pending? = some step)
    (hplan : r.store.graph.plan = .ok plan) (hplace : plan.ids[k]? = some step) :
    ∃ message told, (r.reject .stepBack).notices = [.info .execution message told] := by
  cases k with
  | zero => exact ⟨_, _, by rw [reject_of_first hpending hplan hplace]; rfl⟩
  | succ k =>
    obtain ⟨previous, -, hback⟩ := reject_of_preceded hpending hplan hplace
    exact ⟨_, _, by rw [hback]⟩

/-- The run after several rejections: it is as many places further back in the plan, or at the first
one. It has not changed at all if there was nothing to step back to. -/
theorem walk_back (hpolicy : host.settings.policy = .stepBack)
    (hpending : r.state.pending? = some step) (hplan : r.store.graph.plan = .ok plan)
    (hplace : plan.ids[k]? = some step) (world : σ) (n : Nat) :
    ∃ pending later, plan.ids[k - n]? = some pending ∧ later.state.pending? = some pending ∧
      later.store.graph.plan = .ok plan ∧
      performAll host r world (List.replicate n .reject) = (later, world) ∧
      ((n = 0 ∨ k = 0) ∧ later = r ∨
        0 < n ∧ 0 < k ∧ later = r.pendingAt pending plan.ids[k - n + 1]?) := by
  induction n with
  | zero => exact ⟨step, r, hplace, hpending, hplan, rfl, .inl ⟨.inl rfl, rfl⟩⟩
  | succ n ih =>
    obtain ⟨pending, later, hat, hlater, hplanned, hall, hcame⟩ := ih
    have hnext : performAll host r world (List.replicate (n + 1) .reject) =
        ((later.reject .stepBack).run, world) := by
      rw [List.replicate_succ', performAll_concat, hall, ← hpolicy]
      rfl
    cases hleft : k - n with
    | zero =>
      -- the first place was reached before, and the run stays there
      have hzero : k - (n + 1) = 0 := by omega
      rw [hleft] at hat
      rw [reject_of_first hlater hplanned hat] at hnext
      rw [hzero]
      refine ⟨pending, later, hat, hlater, hplanned, hnext, ?_⟩
      rcases hcame with ⟨hstart, hsame⟩ | ⟨-, hk, hmoved⟩
      · exact .inl ⟨.inr (by omega), hsame⟩
      · rw [hleft] at hmoved
        exact .inr ⟨Nat.succ_pos n, hk, hmoved⟩
    | succ i =>
      have hless : k - (n + 1) = i := by omega
      rw [hleft] at hat
      obtain ⟨previous, hprevious, hback⟩ := reject_of_preceded hlater hplanned hat
      rw [hback] at hnext
      rw [hless, hat]
      refine ⟨previous, later.pendingAt previous (some pending), hprevious, rfl, hplanned, hnext,
        .inr ⟨Nat.succ_pos n, by omega, ?_⟩⟩
      -- what an earlier rejection has set is set anew
      rcases hcame with ⟨-, rfl⟩ | ⟨-, -, rfl⟩
      · rfl
      · exact pendingAt_pendingAt ..

/-- What rejections do to a run with a pending step. If they hold, each leaves everything as it is
and is told once. If they step back and the graph has a plan, a step that is not planned stays
pending in the same way. From a place of the plan, several rejections lead as many places back, or
to the first place. The run shows the step there, what comes after it in the plan and the result
that is recorded for it, unless there was nothing to step back to; nothing else in it has changed.
Each rejection is told once, and at the first place a further one changes nothing. -/
theorem rejections_walk_back (host : Host σ) (r : Run) (world : σ) {step : String}
    {result : Option Json.Value} (hstate : r.state = .awaitingApproval step result) :
    (host.settings.policy = .hold → r.perform host world .reject =
      ({ answer := .ok (.step step), run := r
         notices := [.info .execution "step rejected, holding" step] }, world)) ∧
    (host.settings.policy = .stepBack → ∀ plan, r.store.graph.plan = .ok plan →
      (step ∉ plan.ids → r.perform host world .reject =
        ({ answer := .ok (.step step), run := r
           notices := [.info .execution "step rejected at first step, holding" step] }, world)) ∧
      ∀ k, plan.ids[k]? = some step → ∀ n, ∃ pending later,
        plan.ids[k - n]? = some pending ∧ later.state.pending? = some pending ∧
        performAll host r world (List.replicate n .reject) = (later, world) ∧
        (n = 0 ∨ k = 0 → later = r) ∧
        (0 < n → 0 < k → later = r.pendingAt pending plan.ids[k - n + 1]?) ∧
        (∃ message told, (later.perform host world .reject).1.notices =
          [.info .execution message told]) ∧
        (k ≤ n → later.perform host world .reject =
          ({ answer := .ok (.step pending), run := later
             notices := [.info .execution "step rejected at first step, holding" pending] },
            world))) := by
  have hpending : r.state.pending? = some step := congrArg RunState.pending? hstate
  constructor
  · intro hpolicy
    exact perform_reject_of_hold (hpolicy ▸ reject_of_hold hpending)
  · intro hpolicy plan hplan
    constructor
    · intro hout
      have hstays := reject_of_unpreceded hpending hplan (Plan.preceding?_of_not_mem hout)
      exact perform_reject_of_hold (hpolicy ▸ hstays)
    · intro k hplace n
      obtain ⟨pending, later, hat, hlater, hplanned, hall, hcame⟩ :=
        walk_back hpolicy hpending hplan hplace world n
      refine ⟨pending, later, hat, hlater, hall, ?_, ?_, ?_, ?_⟩
      · intro hstart
        rcases hcame with ⟨-, hsame⟩ | ⟨hn, hk, -⟩
        · exact hsame
        · omega
      · intro hn hk
        rcases hcame with ⟨hstart, -⟩ | ⟨-, -, hmoved⟩
        · omega
        · exact hmoved
      · have htold := notices_reject hlater hplanned hat
        rw [← hpolicy] at htold
        exact htold
      · intro hle
        rw [Nat.sub_eq_zero_of_le hle] at hat
        exact perform_reject_of_hold (hpolicy ▸ reject_of_first hlater hplanned hat)

/-- From the third place, two rejections lead to the first one, and three do as well. -/
theorem rejections_walk_back_to_recorded :
    let host : Host Unit := { Host.following with settings := { policy := .stepBack } }
    let graph : Graph := ⟨[{ id := "a" }, { id := "b" }, { id := "c" }],
      [⟨"1", "a", "b", none⟩, ⟨"2", "b", "c", none⟩]⟩
    let r : Run := {
      store := { Store.ofGraph graph with context := ⟨[⟨"a", .bool true⟩]⟩ }
      state := .awaitingApproval "c" none
      lastError := some "executing the step failed" }
    let moved : Run := { r with
      store := r.store.setPointers ⟨some "a", some "b"⟩
      state := .awaitingApproval "a" (some (.bool true)) }
    performAll host r () (List.replicate 2 .reject) = (moved, ()) ∧
      performAll host r () (List.replicate 3 .reject) = (moved, ()) ∧
      moved.perform host () .reject =
        ({ answer := .ok (.step "a"), run := moved
           notices := [.info .execution "step rejected at first step, holding" "a"] }, ()) := by
  intro host graph r moved
  let plan : Plan := ⟨graph.steps⟩
  have hplan : r.store.graph.plan = .ok plan :=
    (linearize_eq_of_iterate_round graph.nodes graph.edges (by decide) 4 rfl).trans rfl
  obtain ⟨-, hback⟩ := @rejections_walk_back _ host r () "c" _ rfl
  obtain ⟨-, hwalk⟩ := hback rfl plan hplan
  have hmoved : ∀ n, 2 ≤ n → performAll host r () (List.replicate n .reject) = (moved, ()) ∧
      moved.perform host () .reject =
        ({ answer := .ok (.step "a"), run := moved
           notices := [.info .execution "step rejected at first step, holding" "a"] }, ()) := by
    intro n hn
    obtain ⟨pending, later, hat, -, hall, -, hlater, -, hfirst⟩ := hwalk 2 rfl n
    rw [Nat.sub_eq_zero_of_le hn] at hat hlater
    cases hat
    have hsame : later = moved := hlater (by omega) (by decide)
    rw [hsame] at hall hfirst
    exact ⟨hall, hfirst hn⟩
  exact ⟨(hmoved 2 (by decide)).1, (hmoved 3 (by decide)).1, (hmoved 2 (by decide)).2⟩

end StepFlow.Run
