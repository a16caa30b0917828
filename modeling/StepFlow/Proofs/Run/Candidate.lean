import StepFlow.Proofs.Plan.Acyclic
import StepFlow.Proofs.Plan.FirstTarget
import StepFlow.Proofs.Run.Exchanges

/-!
# Runs that follow the suggestions

A backend may do what each request suggests: run the first target of the step next, or the successor
in the plan if the step has no target. Such a run goes through the plan place by place, until a step
has its first target at an earlier place. From there on it goes round for ever.

## Main definitions

* `Host.Follows`: a backend that does what is suggested.
* `Plan.visit`: the steps of a run that follows the suggestions.
* `Plan.LeadsBack`: the first target of a step does not stand after it.
* `Chronicle.Visiting`: how far such a run has come.

## Main statements

* `Plan.visit_of_not_leadsBack`, `Plan.visit_of_leadsBack`: on, or round for ever.
* `Chronicle.Visiting.performAll`: every approval is one step further.
* `Chronicle.follow_candidates`: when a run that follows the suggestions ends.
-/

namespace StepFlow

open Relation (TransGen)

variable {σ : Type}

/-- Whether the backend never fails and runs next what is suggested. -/
def Host.Follows (host : Host σ) : Prop :=
  ∀ request world, ∃ response,
    (host.execute request world).1 = .ok response ∧ response.next = request.candidate

/-- A host without storage whose backend only does what is suggested. -/
def Host.following : Host Unit where
  storage := none
  execute request world := (.ok { next := request.candidate }, world)
  registry := none
  settings := {}

theorem Host.following_follows : Host.following.Follows :=
  fun _ _ => ⟨_, rfl, rfl⟩

theorem Host.following_saves (r : Run) (step : String) (world : Unit) :
    r.Saves Host.following step world :=
  nofun

namespace Plan

/-- The steps of a run that starts with `entry` and follows the suggestions. An empty id ends it. -/
def visit (p : Plan) (entry : String) : Nat → Option String
  | 0 => some entry
  | n + 1 => (p.visit entry n).bind fun id => (Run.candidate? p id).filter fun next => next ≠ ""

/-- Whether the step at a place has its first target there or before. -/
def LeadsBack (p : Plan) (i : Nat) : Prop :=
  ∃ s target j, p.steps[i]? = some s ∧ s.next.candidate = some target ∧ j ≤ i ∧
    p.ids[j]? = some target

variable {p : Plan} {i first last : Nat} {id entry : String} {s : Step}

theorem visit_eq_none_of_le {n m : Nat} (h : p.visit entry n = none) (hle : n ≤ m) :
    p.visit entry m = none := by
  induction hle with
  | refl => exact h
  | step _ ih => rw [visit, ih, Option.bind_none]

theorem candidate?_of_getElem? (hnodup : p.ids.Nodup) (hs : p.steps[i]? = some s) :
    Run.candidate? p s.id = (s.next.candidate <|> p.ids[i + 1]?) := by
  have hid : p.ids[i]? = some s.id := by rw [getElem?_ids, hs, Option.map_some]
  rw [Run.candidate?, get?_of_getElem? hnodup hs, map_following?_of_getElem? hnodup hid]
  rfl

theorem exists_step (h : p.ids[i]? = some id) : ∃ s, p.steps[i]? = some s ∧ s.id = id := by
  rw [getElem?_ids] at h
  exact Option.map_eq_some_iff.1 h

section planned

variable {nodes : List Node} {edges : List Edge}

theorem joined_of_candidate (h : linearize nodes edges = .ok p) (hs : s ∈ p.steps)
    (htarget : s.next.candidate = some id) : Joined edges s.id id := by
  have hmem : id ∈ s.next.targets := List.mem_of_head? htarget
  rw [targets_of_mem_resolve (mem_resolve_of_mem_plan h hs)] at hmem
  exact mem_targetsFrom.1 hmem

theorem mem_nodeIds_of_candidate (h : linearize nodes edges = .ok p)
    (htargets : ∀ e ∈ edges, e.target ∈ nodeIds nodes) (hs : s ∈ p.steps)
    (htarget : s.next.candidate = some id) : id ∈ nodeIds nodes := by
  obtain ⟨e, he, -, rfl⟩ := joined_of_candidate h hs htarget
  exact htargets e he

/-- What is suggested for a step that does not lead back is the next step of the plan. -/
theorem candidate?_of_not_leadsBack (h : linearize nodes edges = .ok p)
    (htargets : ∀ e ∈ edges, e.target ∈ nodeIds nodes) (hid : p.ids[i]? = some id)
    (hforward : ¬p.LeadsBack i) : Run.candidate? p id = p.ids[i + 1]? := by
  obtain ⟨s, hs, rfl⟩ := exists_step hid
  rw [candidate?_of_getElem? (nodup_ids h) hs]
  cases htarget : s.next.candidate with
  | none => rfl
  | some target =>
    have hnode := mem_nodeIds_of_candidate h htargets (List.mem_of_getElem? hs) htarget
    rcases first_target_of_plan h hs htarget hnode with ⟨j, hj, hback⟩ | hnext
    · exact absurd ⟨s, target, j, hs, htarget, hj, hback⟩ hforward
    · rw [hnext]
      rfl

/-- As long as no step leads back, the steps are those of the plan in its order. -/
theorem visit_of_not_leadsBack (h : linearize nodes edges = .ok p)
    (htargets : ∀ e ∈ edges, e.target ∈ nodeIds nodes) (hentry : p.ids[first]? = some entry)
    (hforward : ∀ i ≥ first, ¬p.LeadsBack i) (n : Nat) (hvisit : p.visit entry n = some id) :
    p.ids[first + n]? = some id := by
  induction n generalizing id with
  | zero => exact hentry.trans hvisit
  | succ n ih =>
    obtain ⟨before, hbefore, hnext⟩ := Option.bind_eq_some_iff.1 hvisit
    have hstep := candidate?_of_not_leadsBack h htargets (ih hbefore) (hforward _ (by omega))
    rw [← Nat.add_assoc, ← hstep]
    exact (Option.filter_eq_some_iff.1 hnext).1

/-- No step beyond one that leads back is ever reached from a step before it. -/
theorem visit_of_leadsBack (h : linearize nodes edges = .ok p)
    (htargets : ∀ e ∈ edges, e.target ∈ nodeIds nodes) (hempty : "" ∉ nodeIds nodes)
    (hentry : p.ids[first]? = some entry) (hle : first ≤ last) (hback : p.LeadsBack last)
    (n : Nat) : ∃ i ≤ last, ∃ id, p.ids[i]? = some id ∧ p.visit entry n = some id := by
  induction n with
  | zero => exact ⟨first, hle, entry, hentry, rfl⟩
  | succ n ih =>
    obtain ⟨i, hi, id, hid, hvisit⟩ := ih
    obtain ⟨s, hs, rfl⟩ := exists_step hid
    -- from here the run goes back, or on to a place that is still not beyond the last one
    obtain ⟨k, hk, next, hnext, hcandidate⟩ : ∃ k ≤ last, ∃ next, p.ids[k]? = some next ∧
        Run.candidate? p s.id = some next := by
      by_cases hleads : p.LeadsBack i
      · obtain ⟨s', target, j, hs', htarget, hj, hplanned⟩ := hleads
        obtain rfl : s = s' := Option.some.inj (hs.symm.trans hs')
        refine ⟨j, hj.trans hi, target, hplanned, ?_⟩
        rw [candidate?_of_getElem? (nodup_ids h) hs, htarget]
        rfl
      · have hlt : i < last := lt_of_le_of_ne hi fun heq => hleads (heq ▸ hback)
        obtain ⟨step, target, -, hstep, -⟩ := hback
        have hlast : last < p.steps.length := (List.getElem?_eq_some_iff.1 hstep).1
        have hsome : i + 1 < p.ids.length := by rw [length_ids]; omega
        refine ⟨i + 1, hlt, _, List.getElem?_eq_getElem hsome, ?_⟩
        rw [candidate?_of_not_leadsBack h htargets hid hleads, List.getElem?_eq_getElem hsome]
    refine ⟨k, hk, next, hnext, ?_⟩
    have hnonempty : next ≠ "" := by
      rintro rfl
      exact hempty ((mem_ids_iff_reachable h).1 (List.mem_of_getElem? hnext)).mem_nodeIds
    rw [visit, hvisit, Option.bind_some, hcandidate]
    simp [hnonempty]

/-- Where every node is entered from one node at most, and triggers from none, no step leads
back. -/
theorem not_leadsBack_of_tree (h : linearize nodes edges = .ok p)
    (hsource : ∀ e ∈ edges, ∀ e' ∈ edges, e.target = e'.target → e.source = e'.source)
    (htrigger : ∀ n ∈ nodes, n.isTrigger → ∀ e ∈ edges, e.target ≠ n.id) (i : Nat) :
    ¬p.LeadsBack i := by
  rintro ⟨s, target, j, hs, htarget, hj, hplanned⟩
  obtain ⟨e, he, hleaves, henters⟩ := joined_of_candidate h (List.mem_of_getElem? hs) htarget
  have hroot : target ∉ roots nodes edges := by
    intro hroot
    obtain ⟨n, hn, hisRoot, rfl⟩ := mem_roots.1 hroot
    rcases hisRoot with hn' | hno
    · exact htrigger n hn hn' e he henters
    · exact hno e he henters
  -- the target has a source before it, but its only source is the step that leads back to it
  obtain ⟨k, hk, source, hsource', e', he', rfl, htarget'⟩ := source_before h hplanned hroot
  have hsame : e'.source = s.id := (hsource e' he' e he (htarget'.trans henters.symm)).trans hleaves
  have hsid : p.ids[i]? = some s.id := by rw [getElem?_ids, hs, Option.map_some]
  have hlt : k < p.ids.length := (List.getElem?_eq_some_iff.1 hsource').1
  have hki : k = i := (List.getElem?_inj hlt (nodup_ids h)).1 (by rw [hsource', hsame, hsid])
  omega

end planned

end Plan

theorem Run.entry_mem_ids {r : Run} {plan : Plan} {step : String}
    (h : r.entry? plan = some step) : step ∈ plan.ids := by
  rcases (Option.orElse_eq_some ..).1 h with hstored | ⟨-, hfirst⟩
  · exact Plan.contains_iff.1 (Option.filter_eq_some_iff.1 hstored).2
  · obtain ⟨s, hs, rfl⟩ := Option.map_eq_some_iff.1 hfirst
    exact List.mem_map_of_mem (List.mem_of_head? hs)

theorem Run.exists_entry (r : Run) {plan : Plan} (hne : plan.steps ≠ []) :
    ∃ (first : Nat) (entry : String), r.entry? plan = some entry ∧
      plan.ids[first]? = some entry := by
  cases hentry : r.entry? plan with
  | none =>
    obtain ⟨-, hfirst⟩ := (Option.orElse_eq_none ..).1 hentry
    exact absurd (List.head?_eq_none_iff.1 (Option.map_eq_none_iff.1 hfirst)) hne
  | some entry =>
    obtain ⟨first, hfirst⟩ := List.mem_iff_getElem?.1 (entry_mem_ids hentry)
    exact ⟨first, entry, rfl, hfirst⟩

namespace Chronicle

/-- The steps that the backend was asked to execute. -/
def sent (s : Chronicle σ) : List String :=
  s.exchanges.map (·.request.stepId)

/-- Whether a run that follows the suggestions has come to its step number `n`. -/
structure Visiting (plan : Plan) (entry : String) (n : Nat) (s : Chronicle σ) : Prop where
  planned : s.run.store.graph.plan = .ok plan
  sent : s.sent.map some = (List.range n).map (plan.visit entry)
  pending : ∀ id, plan.visit entry n = some id → ∃ result, s.run.state = .awaitingApproval id result
  complete : plan.visit entry n = none → s.run.state = .complete

variable {host : Host σ} {s : Chronicle σ} {plan : Plan} {entry : String} {n : Nat}

theorem visiting_start (hplan : s.run.store.graph.plan = .ok plan)
    (hentry : s.run.entry? plan = some entry) (hnone : s.exchanges = []) (now : Timestamp) :
    (s.perform host (.start now)).Visiting plan entry 0 := by
  rw [perform_start_of_entry host s now hplan hentry]
  refine ⟨hplan, ?_, ?_, nofun⟩
  · simp [Chronicle.sent, hnone]
  · rintro _ ⟨⟩
    exact ⟨none, rfl⟩

theorem Visiting.answer (h : s.Visiting plan entry n) (hfollows : host.Follows) (now : Timestamp)
    {id : String} (hvisit : plan.visit entry n = some id) {saved : Run} {later : σ}
    (hsave : s.run.persist host id s.world = (.ok saved, later)) :
    (s.perform host (.approve now)).Visiting plan entry (n + 1) := by
  obtain ⟨result, hstate⟩ := h.pending id hvisit
  have hplan : saved.store.graph.plan = .ok plan := by
    rw [Run.graph_of_persist hsave, h.planned]
  obtain ⟨response, hanswer, hnext⟩ :=
    hfollows (saved.request host.settings plan id now) later
  have hvisit' : plan.visit entry (n + 1) = response.target? := by
    rw [Plan.visit, hvisit, Option.bind_some, StepResponse.target?, hnext]
    rfl
  rw [perform_approve_of_answer host s now hstate hsave hplan (Prod.ext hanswer rfl)]
  have hsent : (s.sent ++ [id]).map some = (List.range (n + 1)).map (plan.visit entry) := by
    rw [List.map_append, h.sent, List.range_succ, List.map_append, List.map_singleton,
      List.map_singleton, hvisit]
  cases htarget : response.target? with
  | none =>
    rw [htarget] at hvisit'
    simp only [Run.advance, htarget]
    refine ⟨hplan, ?_, ?_, fun _ => rfl⟩
    · rw [Chronicle.sent, List.map_append]
      exact hsent
    · intro target hsome
      rw [hvisit'] at hsome
      cases hsome
  | some target =>
    rw [htarget] at hvisit'
    simp only [Run.advance, htarget]
    refine ⟨hplan, ?_, ?_, ?_⟩
    · rw [Chronicle.sent, List.map_append]
      exact hsent
    · intro other hsome
      obtain rfl : target = other := Option.some.inj (hvisit'.symm.trans hsome)
      exact ⟨_, rfl⟩
    · intro hnone
      rw [hvisit'] at hnone
      cases hnone

/-- An approval is one step further, unless the flow could not be saved or the run is complete. -/
theorem Visiting.approve (h : s.Visiting plan entry n) (hfollows : host.Follows) (now : Timestamp) :
    ∃ m, (s.perform host (.approve now)).Visiting plan entry m ∧ n ≤ m ∧ m ≤ n + 1 ∧
      ((∀ r step world, Run.Saves host r step world) → plan.visit entry n ≠ none → m = n + 1) := by
  cases hvisit : plan.visit entry n with
  | none =>
    have hrefused : s.run.state.pending? = none := by rw [h.complete hvisit]; rfl
    rw [perform_approve_of_refused host s now hrefused]
    exact ⟨n, h, Nat.le_refl n, Nat.le_succ n, fun _ hsome => absurd rfl hsome⟩
  | some id =>
    obtain ⟨result, hstate⟩ := h.pending id hvisit
    cases hsave : s.run.persist host id s.world with
    | mk answer later =>
      cases answer with
      | error e =>
        rw [perform_approve_of_unsaved host s now hstate hsave]
        refine ⟨n, ⟨h.planned, h.sent, ?_, ?_⟩, Nat.le_refl n, Nat.le_succ n, ?_⟩
        · intro other hsome
          obtain rfl : id = other := Option.some.inj (hvisit.symm.trans hsome)
          exact ⟨result, rfl⟩
        · intro hnone
          rw [hvisit] at hnone
          cases hnone
        · intro hsaves
          exact absurd (hsaves s.run id s.world) (Run.not_saves_of_persist hsave)
      | ok saved =>
        exact ⟨n + 1, h.answer hfollows now hvisit hsave, Nat.le_succ n, Nat.le_refl _,
          fun _ _ => rfl⟩

/-- Approvals are as many steps further at most; if the flow can always be saved, they are exactly
as many, or the run is complete. -/
theorem Visiting.performAll (h : s.Visiting plan entry n) (hfollows : host.Follows)
    (times : List Timestamp) :
    ∃ m ≤ n + times.length, (s.performAll host (times.map .approve)).Visiting plan entry m ∧
      ((∀ r step world, Run.Saves host r step world) →
        m = n + times.length ∨ plan.visit entry m = none) := by
  induction times generalizing s n with
  | nil => exact ⟨n, Nat.le_refl n, h, fun _ => .inl rfl⟩
  | cons now times ih =>
    obtain ⟨k, hk, hge, hle, hsaved⟩ := h.approve hfollows now
    obtain ⟨m, hm, hlast, hends⟩ := ih hk
    refine ⟨m, by rw [List.length_cons]; omega, hlast, fun hsaves => ?_⟩
    rcases hends hsaves with hall | hnone
    · -- a run that was complete before the first approval has not moved since
      by_cases hvisit : plan.visit entry n = none
      · exact .inr (Plan.visit_eq_none_of_le hvisit (by omega))
      · rw [hsaved hsaves hvisit] at hall
        exact .inl (by rw [List.length_cons]; omega)
    · exact .inr hnone

theorem Visiting.length_sent (h : s.Visiting plan entry n) : s.sent.length = n := by
  have hlength := congrArg List.length h.sent
  rwa [List.length_map, List.length_map, List.length_range] at hlength

theorem Visiting.visit_eq_sent (h : s.Visiting plan entry n) {k : Nat} {id : String}
    (hid : s.sent[k]? = some id) : plan.visit entry k = some id := by
  have hlt : k < n := h.length_sent ▸ (List.getElem?_eq_some_iff.1 hid).1
  have hvisit : (s.sent.map some)[k]? = some (some id) := by
    rw [List.getElem?_map, hid, Option.map_some]
  rw [h.sent, List.getElem?_map, List.getElem?_range hlt, Option.map_some] at hvisit
  exact Option.some.inj hvisit

section ending

variable {nodes : List Node} {edges : List Edge} {first last : Nat}

/-- If no step leads back, the steps are sent in plan order, and when there are none left the run is
complete. -/
theorem Visiting.forward (h : s.Visiting plan entry n) (hplan : linearize nodes edges = .ok plan)
    (htargets : ∀ e ∈ edges, e.target ∈ nodeIds nodes) (hentry : plan.ids[first]? = some entry)
    (hforward : ∀ i ≥ first, ¬plan.LeadsBack i) :
    s.sent <+: plan.ids.drop first ∧ s.sent.Nodup ∧
      (plan.ids.length ≤ n → s.run.state = .complete) := by
  have hinitial : s.sent <+: plan.ids.drop first := by
    rw [List.prefix_iff_getElem?]
    intro k hk
    rw [List.getElem?_drop]
    exact Plan.visit_of_not_leadsBack hplan htargets hentry hforward k
      (h.visit_eq_sent (List.getElem?_eq_getElem hk))
  refine ⟨hinitial, ?_, fun hlength => h.complete ?_⟩
  · exact ((nodup_ids hplan).sublist (List.drop_sublist first _)).sublist hinitial.sublist
  · refine Option.eq_none_iff_forall_ne_some.2 fun id hvisit => ?_
    have hid := Plan.visit_of_not_leadsBack hplan htargets hentry hforward n hvisit
    have hlt : first + n < plan.ids.length := (List.getElem?_eq_some_iff.1 hid).1
    omega

/-- If a step leads back, the run never gets beyond it: it is never complete, and after more steps
than there are in the plan one of them was sent twice. -/
theorem Visiting.loop (h : s.Visiting plan entry n) (hplan : linearize nodes edges = .ok plan)
    (htargets : ∀ e ∈ edges, e.target ∈ nodeIds nodes) (hempty : "" ∉ nodeIds nodes)
    (hentry : plan.ids[first]? = some entry) (hle : first ≤ last) (hback : plan.LeadsBack last) :
    s.run.state ≠ .complete ∧ (plan.ids.length < n → ¬s.sent.Nodup) := by
  have hvisit := Plan.visit_of_leadsBack hplan htargets hempty hentry hle hback
  constructor
  · obtain ⟨-, -, id, -, hid⟩ := hvisit n
    obtain ⟨result, hstate⟩ := h.pending id hid
    rw [hstate]
    exact nofun
  · -- different steps of the plan are no more than the plan has
    intro hlong hnodup
    have hsubset : s.sent ⊆ plan.ids := by
      intro id hid
      obtain ⟨k, hk⟩ := List.mem_iff_getElem?.1 hid
      obtain ⟨i, -, other, hplanned, hother⟩ := hvisit k
      obtain rfl : id = other := Option.some.inj ((h.visit_eq_sent hk).symm.trans hother)
      exact List.mem_of_getElem? hplanned
    have hshort := (hnodup.subperm hsubset).length_le
    rw [h.length_sent] at hshort
    omega

end ending

/-- The run of a new coordinator after a start and some approvals. -/
def approved (host : Host σ) (store : Store) (world : σ) (now : Timestamp)
    (times : List Timestamp) : Chronicle σ :=
  performAll host ⟨{ store }, world, []⟩ (.start now :: times.map .approve)

theorem visiting_approved {store : Store} (hfollows : host.Follows)
    (hplan : store.graph.plan = .ok plan) (hentry : Run.entry? { store } plan = some entry)
    (world : σ) (now : Timestamp) (times : List Timestamp) :
    ∃ m ≤ times.length, (approved host store world now times).Visiting plan entry m ∧
      ((∀ r step world, Run.Saves host r step world) →
        m = times.length ∨ plan.visit entry m = none) := by
  have hstart : (perform host ⟨{ store }, world, []⟩ (.start now)).Visiting plan entry 0 :=
    visiting_start hplan hentry rfl now
  obtain ⟨m, hle, hvisiting, hends⟩ := hstart.performAll hfollows times
  rw [Nat.zero_add] at hle hends
  exact ⟨m, hle, hvisiting, hends⟩

/-- A run that follows the suggestions, on a graph of nodes with different ids without cycles and
without edges that end nowhere. If no step from the first one on leads back in the plan, the steps
are executed in plan order, none of them twice, and the run is complete after as many approvals as
there are nodes, unless saving fails. If some step leads back, the run is never complete, and after
more approvals than there are nodes a step was executed twice. No step leads back if no node has
edges from two nodes and no trigger has any. -/
theorem follow_candidates {host : Host σ} (hfollows : host.Follows) (store : Store)
    (hne : store.graph.nodes ≠ []) (hnodup : (nodeIds store.graph.nodes).Nodup)
    (hends : ∀ e ∈ store.graph.edges,
      e.source ∈ nodeIds store.graph.nodes ∧ e.target ∈ nodeIds store.graph.nodes)
    (hacyclic : ∀ id, ¬TransGen (Joined store.graph.edges) id id) (world : σ) (now : Timestamp) :
    ∃ plan first entry, store.graph.plan = .ok plan ∧ plan.ids.Perm (nodeIds store.graph.nodes) ∧
      (Run.start { store } now).answer = .ok entry ∧ plan.ids[first]? = some entry ∧
      ((∀ i ≥ first, ¬plan.LeadsBack i) → ∀ times : List Timestamp,
        (approved host store world now times).sent <+: plan.ids.drop first ∧
        (approved host store world now times).sent.Nodup ∧
        ((∀ r step world, Run.Saves host r step world) →
          store.graph.nodes.length ≤ times.length →
          (approved host store world now times).run.state = .complete)) ∧
      ((∃ i ≥ first, plan.LeadsBack i) → "" ∉ nodeIds store.graph.nodes →
        (∀ r step world, Run.Saves host r step world) → ∀ times : List Timestamp,
        (approved host store world now times).run.state ≠ .complete ∧
        (store.graph.nodes.length < times.length →
          ¬(approved host store world now times).sent.Nodup)) ∧
      ((∀ e ∈ store.graph.edges, ∀ e' ∈ store.graph.edges,
          e.target = e'.target → e.source = e'.source) →
        (∀ n ∈ store.graph.nodes, n.isTrigger → ∀ e ∈ store.graph.edges, e.target ≠ n.id) →
        ∀ i, ¬plan.LeadsBack i) := by
  obtain ⟨plan, hplan, hperm⟩ :=
    exists_plan_of_acyclic (fun e he => (hends e he).1) hne hnodup hacyclic
  have htargets : ∀ e ∈ store.graph.edges, e.target ∈ nodeIds store.graph.nodes :=
    fun e he => (hends e he).2
  have hlength : plan.ids.length = store.graph.nodes.length := by
    rw [hperm.length_eq, nodeIds, List.length_map]
  have hsteps : plan.steps ≠ [] := by
    intro hnil
    rw [Plan.length_ids, hnil, List.length_nil] at hlength
    exact hne (List.eq_nil_of_length_eq_zero hlength.symm)
  obtain ⟨first, entry, hentry, hfirst⟩ := Run.exists_entry { store } hsteps
  refine ⟨plan, first, entry, hplan, hperm, ?_, hfirst, ?_, ?_, ?_⟩
  · have hplanned : ({ store } : Run).store.graph.plan = .ok plan := hplan
    simp only [Run.start, hplanned, hentry]
  · intro hforward times
    obtain ⟨m, -, hvisiting, hsaved⟩ := visiting_approved hfollows hplan hentry world now times
    obtain ⟨hinitial, hdistinct, hcomplete⟩ := hvisiting.forward hplan htargets hfirst hforward
    refine ⟨hinitial, hdistinct, fun hsaves hmany => ?_⟩
    rcases hsaved hsaves with rfl | hnone
    · exact hcomplete (hlength ▸ hmany)
    · exact hvisiting.complete hnone
  · rintro ⟨last, hle, hback⟩ hempty hsaves times
    obtain ⟨m, -, hvisiting, hsaved⟩ := visiting_approved hfollows hplan hentry world now times
    have hloop := hvisiting.loop hplan htargets hempty hfirst hle hback
    rcases hsaved hsaves with rfl | hnone
    · rwa [hlength] at hloop
    · exact absurd (hvisiting.complete hnone) hloop.1
  · exact fun hsource htrigger i => Plan.not_leadsBack_of_tree hplan hsource htrigger i

/-- Four steps, two of which follow the first one. -/
theorem follow_candidates_on_tree :
    let graph : Graph := ⟨[{ id := "a" }, { id := "b" }, { id := "c" }, { id := "d" }],
      [⟨"1", "a", "b", none⟩, ⟨"2", "a", "c", none⟩]⟩
    let s := approved .following (.ofGraph graph) () .epoch (.replicate 4 .epoch)
    s.sent.Nodup ∧ s.run.state = .complete := by
  intro graph
  obtain ⟨plan, first, entry, -, -, -, -, hforward, -, htree⟩ :=
    follow_candidates Host.following_follows (.ofGraph graph) nofun (by decide) (by decide)
      (acyclic_of_ascending (by decide)) () .epoch
  have hleads := htree (by decide) (by decide)
  obtain ⟨-, hnodup, hcomplete⟩ := hforward (fun i _ => hleads i) (.replicate 4 .epoch)
  have hdone := hcomplete Host.following_saves (by decide)
  exact ⟨hnodup, hdone⟩

/-- In a diamond the step at the bottom is executed after the left side and after the right side,
and then the right side again, for ever. -/
theorem diamond_executed_forever :
    let diamond : Graph := ⟨[{ id := "a" }, { id := "b" }, { id := "c" }, { id := "d" }],
      [⟨"1", "a", "b", none⟩, ⟨"2", "a", "c", none⟩, ⟨"3", "b", "d", none⟩, ⟨"4", "c", "d", none⟩]⟩
    Host.following.Follows ∧ (nodeIds diamond.nodes).Nodup ∧
      (∀ e ∈ diamond.edges, e.source ∈ nodeIds diamond.nodes ∧ e.target ∈ nodeIds diamond.nodes) ∧
      (∀ id, ¬TransGen (Joined diamond.edges) id id) ∧
      (approved .following (.ofGraph diamond) () .epoch (.replicate 5 .epoch)).sent =
        ["a", "b", "d", "c", "d"] ∧
      ∀ times, (approved .following (.ofGraph diamond) () .epoch times).run.state ≠ .complete := by
  intro diamond
  let plan : Plan := ⟨[0, 1, 3, 2].filterMap fun i => (diamond.steps[i]? : Option Step)⟩
  have hplan : diamond.plan = .ok plan :=
    (linearize_eq_of_iterate_round diamond.nodes diamond.edges (by decide) 5 rfl).trans rfl
  have hentry : Run.entry? { store := .ofGraph diamond } plan = some "a" := rfl
  have hfirst : plan.ids[0]? = some "a" := rfl
  have hback : plan.LeadsBack 3 := ⟨_, "d", 2, rfl, rfl, by decide, rfl⟩
  have hends : ∀ times,
      ∃ m, (approved .following (.ofGraph diamond) () .epoch times).Visiting plan "a" m ∧
        (approved .following (.ofGraph diamond) () .epoch times).run.state ≠ .complete ∧
        m = times.length := by
    intro times
    obtain ⟨m, -, hvisiting, hsaved⟩ :=
      visiting_approved Host.following_follows hplan hentry () .epoch times
    have hloop := hvisiting.loop hplan (by decide) (by decide) hfirst (Nat.zero_le 3) hback
    refine ⟨m, hvisiting, hloop.1, ?_⟩
    rcases hsaved Host.following_saves with hall | hnone
    · exact hall
    · exact absurd (hvisiting.complete hnone) hloop.1
  refine ⟨Host.following_follows, by decide, by decide, acyclic_of_ascending (by decide), ?_, ?_⟩
  · obtain ⟨m, hvisiting, -, rfl⟩ := hends (.replicate 5 .epoch)
    have hvisits : (List.range 5).map (plan.visit "a") =
        ["a", "b", "d", "c", "d"].map some := rfl
    exact List.map_injective_iff.2 (Option.some_injective String) (hvisiting.sent.trans hvisits)
  · intro times
    obtain ⟨-, -, hopen, -⟩ := hends times
    exact hopen

end Chronicle

end StepFlow
