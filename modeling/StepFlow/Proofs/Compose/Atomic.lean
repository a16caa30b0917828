import StepFlow.Proofs.Compose.Outcome
import StepFlow.Proofs.Store.Edits

/-!
# Compositions are all or nothing

A composition that fails tells so and leaves the store as it is. One that succeeds appends to the
graph what it counts, and changes nothing else. Composing all pending flows makes one such attempt
after the other, whatever is answered to each request. None of them depends on whether an earlier
one has failed.

## Main definitions

* `Store.Attempt`: one attempt to compose a flow below a node.
* `Store.Attempts`: one attempt after the other.
* `CompositionReport.Lists`: a report of attempts that were made one after the other.

## Main statements

* `Composer.attempt_compose`: a composition is an attempt.
* `Composer.foldl_addFragment`: all that is seen of a report is its store.
* `Composer.exists_outcomes`: composing flows makes one attempt for each, and those after one that
  failed do not notice it.
* `compositions_atomic`: one composition, and all pending ones.
-/

namespace StepFlow

namespace Store

/-- What an attempt to compose a flow below a node comes to: its result, the store afterwards and
the notices. It fails because of something about the node, or it appends nodes that are under the
node, and any edges. -/
inductive Attempt (s : Store) (p : String) :
    Except ComposeError MergeSummary → Store → List Notice → Prop
  | failed (e : ComposeError) (hparent : e.parent = p) :
    Attempt s p (.error e) s [.error .composition e.diagnostic.message (some p)]
  | merged (added : Graph) (hunder : ∀ n ∈ added.nodes, n.parent = some p) (message : String) :
    Attempt s p (.ok ⟨added.nodes.length, added.edges.length⟩) (s.withGraph (s.graph ++ added))
      [.info .composition message p]

/-- The node of an attempt and its result. -/
abbrev Outcome := String × Except ComposeError MergeSummary

/-- What attempts come to that are made one after the other: their outcomes, the store afterwards
and all the notices. -/
inductive Attempts : Store → List Outcome → Store → List Notice → Prop
  | nil (s : Store) : Attempts s [] s []
  | cons {s next last : Store} {p : String} {result : Except ComposeError MergeSummary}
    {outcomes : List Outcome} {notices later : List Notice}
    (hfirst : s.Attempt p result next notices) (hrest : Attempts next outcomes last later) :
    Attempts s ((p, result) :: outcomes) last (notices ++ later)

end Store

/-- The nodes for which attempts succeeded, and how much each attempt appended. -/
def successes (outcomes : List Store.Outcome) : List (String × MergeSummary) :=
  outcomes.filterMap fun (p, result) => result.toOption.map (p, ·)

/-- Why attempts failed. -/
def failures (outcomes : List Store.Outcome) : List ComposeError :=
  outcomes.filterMap fun (_, result) =>
    match result with
    | .error e => some e
    | .ok _ => none

namespace CompositionReport

/-- A report with what a later one adds to it. -/
def followedBy (r later : CompositionReport) : CompositionReport where
  composed := r.composed ++ later.composed
  failed := r.failed ++ later.failed
  store := later.store
  notices := r.notices ++ later.notices
  fetched := r.fetched ++ later.fetched

/-- Whether a report is one of attempts with the given outcomes that were made one after the other,
the first one in the given store. -/
structure Lists (r : CompositionReport) (s : Store) (outcomes : List Store.Outcome) : Prop where
  attempts : s.Attempts outcomes r.store r.notices
  composed : r.composed = successes outcomes
  failed : r.failed = failures outcomes

/-- The report of one attempt. -/
def single (outcome : Store.Outcome) (store : Store) (notice : Notice) (fetched : List String) :
    CompositionReport where
  composed := successes [outcome]
  failed := failures [outcome]
  store := store
  notices := [notice]
  fetched := fetched

theorem followedBy_assoc (r later last : CompositionReport) :
    (r.followedBy later).followedBy last = r.followedBy (later.followedBy last) := by
  simp only [followedBy, List.append_assoc]

theorem Lists.cons {r : CompositionReport} {s next : Store} {outcomes : List Store.Outcome}
    {p : String} {result : Except ComposeError MergeSummary} {notice : Notice}
    (h : r.Lists next outcomes) (hfirst : s.Attempt p result next [notice])
    (fetched : List String) :
    ((single (p, result) next notice fetched).followedBy r).Lists s ((p, result) :: outcomes) where
  attempts := .cons hfirst h.attempts
  composed := by
    simp only [followedBy, single, h.composed, successes, ← List.filterMap_append,
      List.singleton_append]
  failed := by
    simp only [followedBy, single, h.failed, failures, ← List.filterMap_append,
      List.singleton_append]

end CompositionReport

namespace Composer

variable {c : Composer} {s : Store} {p : String} {n : Node}

theorem parent_of_candidate_error {e : ComposeError} (h : candidate s p = .error e) :
    e.parent = p := by
  unfold candidate at h
  split at h
  · cases h
    rfl
  · split at h
    · cases h
      rfl
    · cases h

theorem parent_of_fetchFragment_error {e : ComposeError} (h : c.fetchFragment n = .error e) :
    e.parent = n.id := by
  unfold fetchFragment at h
  split at h
  · cases h
    rfl
  · split at h
    · cases h
      rfl
    · simp only at h
      split at h
      · cases h
        rfl
      · cases h

/-- An error about a node is an attempt that fails. -/
theorem attempt_error {e : ComposeError} (h : e.parent = p) :
    s.Attempt p (.error e) s [e.notice] := by
  rw [ComposeError.notice, h]
  exact .failed e h

/-- Merging nodes that are all under one node is an attempt that succeeds. -/
theorem attempt_merge {g : Graph} (hunder : ∀ m ∈ g.nodes, m.isUnder p) (message : String) :
    s.Attempt p (.ok (s.merge g).1) (s.merge g).2 [.info .composition message p] := by
  rw [s.merge_eq]
  refine .merged ⟨_, _⟩ (fun m hm => ?_) message
  exact of_decide_eq_true (hunder m (mem_of_mem_newcomers hm))

/-- A composition is an attempt. -/
theorem attempt_compose (c : Composer) (s : Store) (p : String) :
    s.Attempt p (c.compose s p).result (c.compose s p).store (c.compose s p).notices := by
  unfold compose
  split
  · next e he => exact attempt_error (parent_of_candidate_error he)
  · next n hn =>
    obtain ⟨hnode, -⟩ := of_candidate hn
    obtain ⟨-, rfl⟩ := Graph.of_node? hnode
    cases hf : c.fetchFragment n with
    | error e => exact attempt_error (parent_of_fetchFragment_error hf)
    | ok f =>
      obtain ⟨hparent, hunder⟩ := of_fetchFragment_isUnder hf
      simp only [merge, Fragment.notice, hparent]
      exact attempt_merge hunder _

/-- All that is seen of a report when fragments are added is its store. -/
theorem foldl_addFragment (fragments : List (Except ComposeError Fragment))
    (r : CompositionReport) :
    fragments.foldl addFragment r =
      r.followedBy (fragments.foldl addFragment { store := r.store }) := by
  induction fragments generalizing r with
  | nil => simp [CompositionReport.followedBy]
  | cons fragment fragments ih =>
    have hfirst : addFragment r fragment =
        r.followedBy (addFragment { store := r.store } fragment) := by
      cases fragment <;> simp [addFragment, CompositionReport.followedBy]
    rw [List.foldl_cons, List.foldl_cons, ih, hfirst, CompositionReport.followedBy_assoc,
      ih (addFragment { store := r.store } fragment)]
    rfl

/-- The fragment of a node, or the error that took its place, is an attempt. -/
theorem addFragment_fetchFragment (c : Composer) (s : Store) (n : Node) (fetched : List String) :
    ∃ result next notice, s.Attempt n.id result next [notice] ∧
      addFragment { store := s, fetched } (c.fetchFragment n) =
        .single (n.id, result) next notice fetched := by
  cases hf : c.fetchFragment n with
  | error e => exact ⟨_, _, _, attempt_error (parent_of_fetchFragment_error hf), rfl⟩
  | ok f =>
    obtain ⟨hparent, hunder⟩ := of_fetchFragment_isUnder hf
    rw [← hparent] at hunder ⊢
    exact ⟨_, _, _, attempt_merge hunder _, rfl⟩

/-- The later flows are composed in the store that the first one leaves. -/
theorem composeEach_cons {mode : GapMode} {source : Source} {first : CompositionReport}
    (h : addFragment { store := s, fetched := n.subflowId?.toList }
      (fetchFragment ⟨source, mode⟩ n) = first) (requests : List (Node × Source)) :
    composeEach mode s ((n, source) :: requests) =
      first.followedBy (composeEach mode first.store requests) := by
  let flow : Node × Source → Option String := fun r => r.1.subflowId?
  have hall : addFragment { store := s, fetched := ((n, source) :: requests).filterMap flow }
      (fetchFragment ⟨source, mode⟩ n) =
      first.followedBy { store := first.store, fetched := requests.filterMap flow } := by
    rw [← h, filterMap_cons_append]
    cases fetchFragment ⟨source, mode⟩ n <;> simp [addFragment, CompositionReport.followedBy, flow]
  rw [composeEach, List.map_cons, List.foldl_cons, hall, foldl_addFragment,
    CompositionReport.followedBy_assoc, composeEach, foldl_addFragment _ ⟨_, _, first.store, _, _⟩]
  rfl

/-- Composing flows makes one attempt for each request. An attempt that failed can be left out: the
others have the same outcomes and tell the same, and the store is the same. -/
theorem exists_outcomes (mode : GapMode) (s : Store) (requests : List (Node × Source)) :
    ∃ outcomes, outcomes.map (·.1) = requests.map (·.1.id) ∧
      (composeEach mode s requests).Lists s outcomes ∧
      ∀ i p e, outcomes[i]? = some (p, .error e) →
        let others := composeEach mode s (requests.eraseIdx i)
        others.Lists s (outcomes.eraseIdx i) ∧
          others.store = (composeEach mode s requests).store ∧
          others.notices = (composeEach mode s requests).notices.eraseIdx i := by
  induction requests generalizing s with
  | nil =>
    refine ⟨[], rfl, ⟨.nil s, rfl, rfl⟩, ?_⟩
    intro i p e h
    cases h
  | cons request requests ih =>
    obtain ⟨n, source⟩ := request
    obtain ⟨result, next, notice, hattempt, hfirst⟩ :=
      addFragment_fetchFragment ⟨source, mode⟩ s n n.subflowId?.toList
    have hcons : ∀ rest, composeEach mode s ((n, source) :: rest) =
        (CompositionReport.single (n.id, result) next notice n.subflowId?.toList).followedBy
          (composeEach mode next rest) :=
      composeEach_cons hfirst
    obtain ⟨outcomes, hids, hlists, hwithout⟩ := ih next
    refine ⟨(n.id, result) :: outcomes, by rw [List.map_cons, List.map_cons, hids], ?_, ?_⟩
    · rw [hcons]
      exact hlists.cons hattempt _
    · rintro (_ | i) p e herror
      · -- an attempt that failed has left the store to the next one
        cases Option.some.inj herror
        cases hattempt
        rw [hcons]
        exact ⟨hlists, rfl, rfl⟩
      · obtain ⟨hothers, hstore, hnotices⟩ := hwithout i p e herror
        simp only [List.eraseIdx_cons_succ, hcons]
        refine ⟨hothers.cons hattempt _, hstore, ?_⟩
        simp only [CompositionReport.followedBy, hnotices]
        rfl

theorem map_fst_requests (s : Store) (answers : Nat → Source) :
    (requests s answers).map Prod.fst = s.pendingSubflows := by
  refine List.ext_getElem? fun i => ?_
  rw [List.getElem?_map, requests, List.getElem?_mapIdx, Option.map_map]
  exact Option.map_id'

end Composer

/-- A composition is one attempt: it fails with an error about the node, leaves the store as it is
and gives one notice of the error, or it appends nodes that are under the node and any edges to the
graph, returns how many of both, changes nothing else and gives one notice of that. Composing all
pending flows makes one such attempt after the other, one for each node that waits, whatever the
source answers to each of the requests. The report lists those that succeeded and those that failed,
and it would have been the same without an attempt that failed, but for its error and its notice:
the store and what came of the other nodes do not depend on it. -/
theorem compositions_atomic (c : Composer) (s : Store) (p : String) (answers : Nat → Source) :
    s.Attempt p (c.compose s p).result (c.compose s p).store (c.compose s p).notices ∧
    let all := Composer.composePending c.mode answers s
    ∃ outcomes, outcomes.map (·.1) = s.pendingSubflows.map (·.id) ∧ all.Lists s outcomes ∧
      ∀ i q e, outcomes[i]? = some (q, .error e) →
        let others := Composer.composeEach c.mode s ((Composer.requests s answers).eraseIdx i)
        others.Lists s (outcomes.eraseIdx i) ∧ others.store = all.store ∧
          others.notices = all.notices.eraseIdx i := by
  refine ⟨c.attempt_compose s p, ?_⟩
  obtain ⟨outcomes, hids, hlists, hwithout⟩ :=
    Composer.exists_outcomes c.mode s (Composer.requests s answers)
  refine ⟨outcomes, ?_, hlists, hwithout⟩
  rw [hids, ← Composer.map_fst_requests s answers, List.map_map]
  rfl

/-- Two of three nodes that wait refer to one flow, which is not available when it is asked for the
first time. The last flow has no nodes. Without the first node the same nodes are appended and the
same is told of the last one. -/
theorem compositions_atomic_beside_errors :
    let flow : StoredFlow := .graph ⟨[{ id := "a" }, { id := "b" }], []⟩
    let answers : Nat → Source := fun i id =>
      if id = "g" then .ok (.graph {})
      else if i = 0 then .error (.unavailable "timeout")
      else .ok flow
    let composer : Composer := { source := answers 1 }
    let s : Store := .ofGraph ⟨[{ id := "p", config := [(subflowKey, .str "f")] },
      { id := "q", config := [(subflowKey, .str "f")] },
      { id := "r", config := [(subflowKey, .str "g")] }], []⟩
    let all := Composer.composePending composer.mode answers s
    let others := Composer.composeEach composer.mode s ((Composer.requests s answers).eraseIdx 0)
    all.fetched = ["f", "f", "g"] ∧
      all.failed = [.fetch "p" "f" (.unavailable "timeout"), .emptySubflow "r" "g"] ∧
      all.composed.map (·.1) = ["q"] ∧ all.store.graph.nodes.take 3 = s.graph.nodes ∧
      (all.store.graph.nodes.drop 3).map (fun n => (n.id, n.parent)) =
        [("q__a", some "q"), ("q__b", some "q")] ∧
      others.store = all.store ∧ others.notices = all.notices.tail := by
  intro flow answers composer s all others
  have hcomposed : all.composed.map (·.1) = ["q"] := rfl
  obtain ⟨-, outcomes, hids, hlists, hwithout⟩ := compositions_atomic composer s "p" answers
  have hfirst : ∃ e, outcomes[0]? = some ("p", .error e) := by
    obtain ⟨⟨_, result⟩, later, rfl, rfl, -⟩ := List.map_eq_cons_iff.1 hids
    cases result with
    | error e => exact ⟨e, rfl⟩
    | ok summary =>
      -- a first attempt that succeeded would come first in the report
      have hnodes := (congrArg (List.map Prod.fst) hlists.composed).symm.trans hcomposed
      have hsame : "p" = "q" := (List.cons.inj hnodes).1
      exact absurd hsame (by decide)
  obtain ⟨e, hfirst⟩ := hfirst
  obtain ⟨-, hstore, hnotices⟩ := hwithout 0 "p" e hfirst
  rw [List.eraseIdx_zero] at hnotices
  exact ⟨rfl, rfl, hcomposed, rfl, rfl, hstore, hnotices⟩

end StepFlow
