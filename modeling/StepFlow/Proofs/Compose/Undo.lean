import StepFlow.Proofs.Compose.Outcome
import StepFlow.Store.Command

/-!
# Undoing a composition

Composing flows under several nodes appends one graph for each of them, in the order in which they
were composed, and none of these graphs depends on the others. Removing what was composed under one
node takes out its graph and nothing else.

## Main definitions

* `Composer.addition`: what composing under a node appends.
* `Graph.Composable`: nodes under which flows can be composed without getting in each other's way.

## Main statements

* `Composer.compose_of_clear`: one composition.
* `Graph.Composable.editAll_compose`: compositions under several nodes.
* `Store.removeSubflow_of_beneath`: removing what was composed under a node.
* `removeSubflow_undoes_compose`: removing undoes one composition among others.
-/

namespace StepFlow

theorem eraseDups_of_nodup {α : Type} [BEq α] [LawfulBEq α] {l : List α} (h : l.Nodup) :
    l.eraseDups = l := by
  induction l with
  | nil => rfl
  | cons a l ih =>
    obtain ⟨hnot, hl⟩ := List.nodup_cons.1 h
    have hkept : l.filter (fun b => !b == a) = l := by
      refine List.filter_eq_self.2 fun b hb => ?_
      have hne : b ≠ a := fun heq => hnot (heq ▸ hb)
      simpa using hne
    rw [List.eraseDups_cons, hkept, ih hl]

namespace Graph

variable {g : Graph} {p : String}

theorem node?_append (h : g.hasNode p) (g' : Graph) : (g ++ g').node? p = g.node? p := by
  obtain ⟨n, hn⟩ := Option.isSome_iff_exists.1 h
  rw [hn, node?_append_of_eq_some hn]

end Graph

namespace Composer

variable {c : Composer} {s : Store} {g : Graph} {p : String} {n : Node}

/-- What composing under a node appends to a graph that is clear of the node: the distinct nodes and
edges of its fragment. -/
def addition (c : Composer) (g : Graph) (p : String) : Graph :=
  match g.node? p with
  | none => {}
  | some n =>
    match c.fetchFragment n with
    | .error _ => {}
    | .ok f => f.graph.distinct

theorem addition_cases (c : Composer) (g : Graph) (p : String) :
    c.addition g p = {} ∨ ∃ n flow stored, g.node? p = some n ∧ n.subflowId? = some flow ∧
      c.source flow = .ok stored ∧
      c.addition g p = (stored.fragment n flow c.mode).graph.distinct := by
  unfold addition
  split
  · exact .inl rfl
  · next n hn =>
    split
    · exact .inl rfl
    · next f hf =>
      obtain ⟨flow, stored, hflow, hstored, rfl⟩ := of_fetchFragment hf
      exact .inr ⟨n, flow, stored, hn, hflow, hstored, rfl⟩

theorem addition_of_fetchFragment {f : Fragment} (hn : g.node? p = some n)
    (hf : c.fetchFragment n = .ok f) : c.addition g p = f.graph.distinct := by
  simp only [addition, hn, hf]

theorem addition_beneath (c : Composer) (g : Graph) (p : String) :
    (c.addition g p).Beneath p := by
  rcases c.addition_cases g p with hnone | ⟨n, flow, stored, hn, -, -, hadded⟩
  · rw [hnone]
    exact Graph.beneath_empty p
  · rw [hadded, ← (Graph.of_node? hn).2]
    exact (stored.fragment_beneath n flow c.mode).distinct

theorem nodup_addition (c : Composer) (g : Graph) (p : String) :
    ((c.addition g p).nodes.map (·.id)).Nodup := by
  rcases c.addition_cases g p with hnone | ⟨n, flow, stored, -, -, -, hadded⟩
  · rw [hnone]
    exact List.nodup_nil
  · rw [hadded]
    exact Graph.nodup_distinct

theorem addition_attached
    (hflows : ∀ n flow stored, g.node? p = some n → n.subflowId? = some flow →
      c.source flow = .ok stored → stored.toGraph.Attached) : (c.addition g p).Attached := by
  rcases c.addition_cases g p with hnone | ⟨n, flow, stored, hn, hflow, hstored, hadded⟩
  · rw [hnone]
    exact nofun
  · rw [hadded]
    exact (StoredFlow.fragment_attached (hflows n flow stored hn hflow hstored) n flow
      c.mode).distinct

theorem addition_append (h : g.hasNode p) (g' : Graph) :
    c.addition (g ++ g') p = c.addition g p := by
  rw [addition, addition, Graph.node?_append h]

theorem hasSubflow_of_clear (h : s.graph.ClearOf p) : s.hasSubflow p = false :=
  List.any_eq_false.2 fun n hn => by simpa [Node.isUnder] using h.parent n hn

/-- Composing under a node of which the graph is clear appends its addition, and returns how many
nodes that has if it succeeds. -/
theorem compose_of_clear (c : Composer) (h : s.graph.ClearOf p) :
    (c.compose s p).store = { s with graph := s.graph ++ c.addition s.graph p } ∧
      ∀ summary, (c.compose s p).result = .ok summary →
        summary.nodesAdded = (c.addition s.graph p).nodes.length := by
  cases hn : s.graph.node? p with
  | none =>
    simp only [compose, candidate, hn, merge, addition, Graph.append_empty]
    refine ⟨trivial, ?_⟩
    rintro _ ⟨⟩
  | some n =>
    rw [c.compose_of_node (hasSubflow_of_clear h) hn]
    cases hf : c.fetchFragment n with
    | error e =>
      simp only [merge, addition, hn, hf, Graph.append_empty]
      refine ⟨trivial, ?_⟩
      rintro _ ⟨⟩
    | ok f =>
      obtain ⟨flow, stored, -, -, rfl⟩ := of_fetchFragment hf
      have hbeneath : (stored.fragment n flow c.mode).graph.Beneath p := by
        rw [← (Graph.of_node? hn).2]
        exact stored.fragment_beneath n flow c.mode
      simp only [merge, addition, hn, hf, h.merge hbeneath]
      refine ⟨trivial, ?_⟩
      rintro _ ⟨⟩
      rfl

theorem compose_succeeds (h : s.graph.ClearOf p) (hn : s.graph.node? p = some n) {flow : String}
    (hflow : n.subflowId? = some flow) {stored : StoredFlow} (hstored : c.source flow = .ok stored)
    (hne : stored.toGraph.nodes ≠ []) : ∃ summary, (c.compose s p).result = .ok summary :=
  c.exists_compose_ok (hasSubflow_of_clear h) hn hflow hstored hne

/-- What composing under several nodes appends. -/
def additions (c : Composer) (g : Graph) : List String → Graph
  | [] => {}
  | p :: parents => c.addition g p ++ c.additions g parents

theorem additions_append (c : Composer) (g : Graph) (before after : List String) :
    c.additions g (before ++ after) = c.additions g before ++ c.additions g after := by
  induction before with
  | nil => rfl
  | cons p before ih => rw [List.cons_append, additions, additions, ih, Graph.append_assoc]

end Composer

/-- Whether flows can be composed under some nodes without getting in each other's way: they are
different nodes of the graph, none of their ids goes on with the first character of the separator
where another one ends, and the graph is clear of each. -/
structure Graph.Composable (g : Graph) (parents : List String) : Prop where
  nodup : parents.Nodup
  present : ∀ p ∈ parents, g.hasNode p
  apart : ∀ p ∈ parents, ∀ q ∈ parents, p ≠ q → ∀ rest, q ≠ p ++ "_" ++ rest
  clear : ∀ p ∈ parents, g.ClearOf p

namespace Graph.Composable

variable {g : Graph} {c : Composer} {parents others before after : List String} {p q : String}

theorem sublist (h : g.Composable parents) (hsub : others.Sublist parents) :
    g.Composable others where
  nodup := h.nodup.sublist hsub
  present p hp := h.present p (hsub.mem hp)
  apart p hp q hq := h.apart p (hsub.mem hp) q (hsub.mem hq)
  clear p hp := h.clear p (hsub.mem hp)

theorem addition_clearOf (h : g.Composable parents) (c : Composer) (hp : p ∈ parents)
    (hq : q ∈ parents) (hne : p ≠ q) : (c.addition g p).ClearOf q := by
  have hout : ¬InNamespace q p := by
    obtain ⟨n, hn⟩ := Option.isSome_iff_exists.1 (h.present p hp)
    obtain ⟨hmem, rfl⟩ := Graph.of_node? hn
    exact (h.clear q hq).node n hmem
  exact (c.addition_beneath g p).clearOf hne (h.apart p hp q hq hne)
    (h.apart q hq p hp hne.symm) hout

theorem additions_clearOf (h : g.Composable parents) (c : Composer) (hq : q ∈ parents)
    (hsub : others ⊆ parents) (hne : q ∉ others) : (c.additions g others).ClearOf q := by
  induction others with
  | nil => exact Graph.clearOf_empty q
  | cons p others ih =>
    obtain ⟨hp, hothers⟩ := List.cons_subset.1 hsub
    have hpq : p ≠ q := fun heq => hne (heq ▸ List.mem_cons_self)
    refine (h.addition_clearOf c hp hq hpq).append (ih hothers fun hmem => hne ?_)
    exact List.mem_cons_of_mem _ hmem

theorem not_mem_others (h : g.Composable (before ++ p :: after)) : p ∉ before ∧ p ∉ after := by
  obtain ⟨-, htail, hdifferent⟩ := List.nodup_append.1 h.nodup
  refine ⟨fun hmem => ?_, (List.nodup_cons.1 htail).1⟩
  exact hdifferent p hmem p List.mem_cons_self rfl

/-- What is there when it is a node's turn is clear of the node. -/
theorem clearOf_earlier (h : g.Composable (before ++ p :: after)) (c : Composer) :
    (g ++ c.additions g before).ClearOf p := by
  have hp : p ∈ before ++ p :: after := List.mem_append_right _ List.mem_cons_self
  have hbefore : before ⊆ before ++ p :: after := List.subset_append_left ..
  exact (h.clear p hp).append (h.additions_clearOf c hp hbefore h.not_mem_others.1)

/-- Compositions under several nodes append the additions of the nodes in order. -/
theorem editAll_compose {s : Store} (h : s.graph.Composable parents) (c : Composer) :
    s.editAll (parents.map (.compose c)) =
      { s with graph := s.graph ++ c.additions s.graph parents } := by
  -- what was composed so far is clear of the nodes that are left
  have hfrom : ∀ (rest : List String) (sofar : Graph), rest.Sublist parents →
      (∀ p ∈ rest, sofar.ClearOf p) →
      { s with graph := s.graph ++ sofar }.editAll (rest.map (.compose c)) =
        { s with graph := s.graph ++ (sofar ++ c.additions s.graph rest) } := by
    intro rest
    induction rest with
    | nil =>
      intro sofar _ _
      rw [Composer.additions, Graph.append_empty]
      rfl
    | cons p rest ih =>
      intro sofar hsub hsofar
      have hp : p ∈ parents := hsub.mem List.mem_cons_self
      have hnot : p ∉ rest := (List.nodup_cons.1 (h.nodup.sublist hsub)).1
      have hclear : (s.graph ++ sofar).ClearOf p :=
        (h.clear p hp).append (hsofar p List.mem_cons_self)
      let composed : Store := { s with graph := s.graph ++ (sofar ++ c.addition s.graph p) }
      have hstep : (c.compose { s with graph := s.graph ++ sofar } p).store = composed := by
        rw [(c.compose_of_clear hclear).1, Composer.addition_append (h.present p hp),
          Graph.append_assoc]
      calc { s with graph := s.graph ++ sofar }.editAll ((p :: rest).map (.compose c))
        _ = (c.compose { s with graph := s.graph ++ sofar } p).store.editAll
              (rest.map (.compose c)) := rfl
        _ = composed.editAll (rest.map (.compose c)) := by rw [hstep]
        _ = { s with graph := s.graph ++ (sofar ++ c.additions s.graph (p :: rest)) } := by
            rw [ih _ ((List.sublist_cons_self p rest).trans hsub) ?_, Composer.additions,
              Graph.append_assoc]
            intro q hq
            have hpq : p ≠ q := fun heq => hnot (heq ▸ hq)
            exact (hsofar q (List.mem_cons_of_mem _ hq)).append
              (h.addition_clearOf c hp (hsub.mem (List.mem_cons_of_mem _ hq)) hpq)
  have hall := hfrom parents {} (.refl parents) fun p _ => Graph.clearOf_empty p
  rwa [Graph.append_empty, Graph.empty_append] at hall

end Graph.Composable

section removing

variable {g : Graph} {p : String} {removed : List String}

theorem Graph.ClearOf.filter_nodes (h : g.ClearOf p) (hin : ∀ id ∈ removed, InNamespace p id) :
    g.nodes.filter (fun n => !removed.contains n.id) = g.nodes := by
  refine List.filter_eq_self.2 fun n hn => ?_
  have hnot : n.id ∉ removed := fun hmem => h.node n hn (hin _ hmem)
  simpa using hnot

theorem Graph.ClearOf.filter_edges (h : g.ClearOf p) (hin : ∀ id ∈ removed, InNamespace p id) :
    g.edges.filter (fun e => !(removed.contains e.source || removed.contains e.target)) =
      g.edges := by
  refine List.filter_eq_self.2 fun e he => ?_
  obtain ⟨-, hsource, htarget⟩ := h.edge e he
  have hnot : e.source ∉ removed ∧ e.target ∉ removed :=
    ⟨fun hmem => hsource (hin _ hmem), fun hmem => htarget (hin _ hmem)⟩
  simpa using hnot

theorem Graph.filter_nodes_own (g : Graph) :
    g.nodes.filter (fun n => !(g.nodes.map (·.id)).contains n.id) = [] := by
  refine List.filter_eq_nil_iff.2 fun n hn => ?_
  simpa using ⟨n, hn, rfl⟩

theorem Graph.Attached.filter_edges_own (h : g.Attached) :
    g.edges.filter (fun e => !((g.nodes.map (·.id)).contains e.source ||
      (g.nodes.map (·.id)).contains e.target)) = [] := by
  refine List.filter_eq_nil_iff.2 fun e he => ?_
  obtain ⟨n, hn, htouches⟩ := h e he
  rcases Bool.or_eq_true_iff.1 htouches with hsource | htarget
  · have hmem : e.source ∈ g.nodes.map (·.id) :=
      of_decide_eq_true hsource ▸ List.mem_map_of_mem hn
    simp [hmem]
  · have hmem : e.target ∈ g.nodes.map (·.id) :=
      of_decide_eq_true htarget ▸ List.mem_map_of_mem hn
    simp [hmem]

variable {before added after : Graph} {s : Store}

theorem Store.subflowIds_of_beneath (hs : s.graph = before ++ (added ++ after))
    (hbefore : before.ClearOf p) (hadded : added.Beneath p)
    (hnodup : (added.nodes.map (·.id)).Nodup) (hafter : after.ClearOf p) :
    s.subflowIds p = added.nodes.map (·.id) := by
  have hnone : ∀ {g : Graph}, g.ClearOf p → g.nodes.filter (·.isUnder p) = [] := by
    intro g hg
    refine List.filter_eq_nil_iff.2 fun n hn => ?_
    simpa [Node.isUnder] using hg.parent n hn
  have hall : added.nodes.filter (·.isUnder p) = added.nodes := by
    refine List.filter_eq_self.2 fun n hn => ?_
    simpa [Node.isUnder] using (hadded.node n hn).2
  -- only the nodes that were added have the node as their parent
  have hunder : s.graph.nodes.filter (·.isUnder p) = added.nodes := by
    simp only [hs, Graph.nodes_append, List.filter_append, hnone hbefore, hall, hnone hafter,
      List.nil_append, List.append_nil]
  rw [subflowIds, hunder, eraseDups_of_nodup hnodup]

/-- Removing what was composed under a node takes out the graph that is beneath it. -/
theorem Store.removeSubflow_of_beneath (hs : s.graph = before ++ (added ++ after))
    (hbefore : before.ClearOf p) (hadded : added.Beneath p) (hattached : added.Attached)
    (hnodup : (added.nodes.map (·.id)).Nodup) (hafter : after.ClearOf p) :
    s.removeSubflow p = (added.nodes.length, { s with graph := before ++ after }) := by
  have hin : ∀ id ∈ added.nodes.map (·.id), InNamespace p id := by
    intro id hid
    obtain ⟨n, hn, rfl⟩ := List.mem_map.1 hid
    exact (hadded.node n hn).1
  simp only [removeSubflow, subflowIds_of_beneath hs hbefore hadded hnodup hafter, hs,
    Graph.nodes_append, Graph.edges_append, List.filter_append, hbefore.filter_nodes hin,
    hafter.filter_nodes hin, hbefore.filter_edges hin, hafter.filter_edges hin,
    added.filter_nodes_own, hattached.filter_edges_own, List.nil_append, List.length_map]
  rfl

end removing

/-- Removing what was composed under one of several nodes leaves what composing under the others
gives. -/
theorem Graph.Composable.removeSubflow_editAll {composer : Composer} {s : Store}
    {before after : List String} {p : String} (h : s.graph.Composable (before ++ p :: after))
    (hattached : (composer.addition s.graph p).Attached) :
    (s.editAll ((before ++ p :: after).map (.compose composer))).removeSubflow p =
      ((composer.addition s.graph p).nodes.length,
        s.editAll ((before ++ after).map (.compose composer))) := by
  have hp : p ∈ before ++ p :: after := List.mem_append_right _ List.mem_cons_self
  have hafter : after.Sublist (before ++ p :: after) :=
    (List.sublist_cons_self p after).trans (List.sublist_append_right ..)
  have hothers : (before ++ after).Sublist (before ++ p :: after) :=
    (List.Sublist.refl before).append (List.sublist_cons_self p after)
  let earlier := s.graph ++ composer.additions s.graph before
  have hlater : (composer.additions s.graph after).ClearOf p :=
    h.additions_clearOf composer hp hafter.subset h.not_mem_others.2
  have hall : s.editAll ((before ++ p :: after).map (.compose composer)) = { s with graph :=
      earlier ++ (composer.addition s.graph p ++ composer.additions s.graph after) } := by
    rw [h.editAll_compose composer, Composer.additions_append, ← Graph.append_assoc]
    rfl
  have hrest : s.editAll ((before ++ after).map (.compose composer)) =
      { s with graph := earlier ++ composer.additions s.graph after } := by
    rw [(h.sublist hothers).editAll_compose composer, Composer.additions_append,
      ← Graph.append_assoc]
  rw [hall, hrest]
  exact Store.removeSubflow_of_beneath rfl (h.clearOf_earlier composer)
    (composer.addition_beneath s.graph p) hattached (composer.nodup_addition s.graph p) hlater

/-- Flows are composed under several nodes, and then what was composed under one of them is removed:
the rest is what composing under the other nodes gives, and the number of removed nodes is the
number of those that were composed. Each composition succeeds whose node refers to a stored flow.
Composing under one node and removing gives back the store. -/
theorem removeSubflow_undoes_compose (composer : Composer) (s : Store) (before after : List String)
    (p : String) (hparents : s.graph.Composable (before ++ p :: after))
    (hflows : ∀ q ∈ before ++ p :: after, ∀ n flow stored, s.graph.node? q = some n →
      n.subflowId? = some flow → composer.source flow = .ok stored →
      stored.toGraph.nodes ≠ [] ∧ stored.toGraph.Attached) :
    let composition := composer.compose (s.editAll (before.map (.compose composer))) p
    let all := s.editAll ((before ++ p :: after).map (.compose composer))
    let others := s.editAll ((before ++ after).map (.compose composer))
    (all.removeSubflow p).2 = others ∧
    (∀ summary, composition.result = .ok summary →
      (all.removeSubflow p).1 = summary.nodesAdded) ∧
    (∀ n flow stored, s.graph.node? p = some n → n.subflowId? = some flow →
      composer.source flow = .ok stored → ∃ summary, composition.result = .ok summary) ∧
    ((composer.compose s p).store.removeSubflow p).2 = s := by
  intro composition all others
  have hp : p ∈ before ++ p :: after := List.mem_append_right _ List.mem_cons_self
  have hbefore : before.Sublist (before ++ p :: after) := List.sublist_append_left ..
  have hattached : (composer.addition s.graph p).Attached :=
    Composer.addition_attached fun n flow stored hn hflow hstored =>
      (hflows p hp n flow stored hn hflow hstored).2
  have hremoved : all.removeSubflow p = ((composer.addition s.graph p).nodes.length, others) :=
    hparents.removeSubflow_editAll hattached
  have hcomposed := (hparents.sublist hbefore).editAll_compose composer
  have hclear : (s.graph ++ composer.additions s.graph before).ClearOf p :=
    hparents.clearOf_earlier composer
  refine ⟨congrArg Prod.snd hremoved, ?_, ?_, ?_⟩
  · intro summary hsummary
    simp only [composition, hcomposed] at hsummary
    rw [hremoved, (composer.compose_of_clear hclear).2 summary hsummary,
      Composer.addition_append (hparents.present p hp)]
  · intro n flow stored hn hflow hstored
    simp only [composition, hcomposed]
    exact Composer.compose_succeeds hclear
      ((Graph.node?_append (hparents.present p hp) _).trans hn) hflow hstored
      (hflows p hp n flow stored hn hflow hstored).1
  · have hone : s.graph.Composable ([] ++ p :: []) :=
      hparents.sublist (List.singleton_sublist.2 hp)
    exact congrArg Prod.snd (hone.removeSubflow_editAll hattached)

/-- Two nodes that refer to one flow. -/
theorem removeSubflow_undoes_compose_of_two :
    let composer : Composer := {
      source := fun _ => .ok (.graph ⟨[{ id := "a" }, { id := "b" }], [⟨"1", "a", "b", none⟩]⟩) }
    let reference : Json.Object := [(subflowKey, .str "f")]
    let s : Store := .ofGraph ⟨[{ id := "p", config := reference },
      { id := "q", config := reference }], [⟨"2", "p", "q", none⟩]⟩
    let all := s.editAll [.compose composer "p", .compose composer "q"]
    (all.graph.nodes.drop 2).map (fun n => (n.id, n.parent)) =
        [("p__a", some "p"), ("p__b", some "p"), ("q__a", some "q"), ("q__b", some "q")] ∧
      (all.removeSubflow "p").2 = s.editAll [.compose composer "q"] ∧
      ∃ summary, (composer.compose s "p").result = .ok summary ∧
        (all.removeSubflow "p").1 = summary.nodesAdded := by
  intro composer reference s all
  have hclear : ∀ p ∈ ["p", "q"], s.graph.ClearOf p := by
    intro p hp
    have hlength : 1 ≤ p.length := by
      revert p
      decide
    have hout : ∀ id : String, id.length ≤ 1 → ¬InNamespace p id :=
      fun id hid => not_inNamespace_of_length_le (Nat.le_trans hid hlength)
    have hnodes : ∀ n ∈ s.graph.nodes, n.id.length ≤ 1 ∧ n.parent = none := by decide
    have hedges : ∀ e ∈ s.graph.edges,
        e.id.length ≤ 1 ∧ e.source.length ≤ 1 ∧ e.target.length ≤ 1 := by decide
    refine ⟨fun n hn => hout _ (hnodes n hn).1, fun n hn => ?_, fun e he => ?_⟩
    · rw [(hnodes n hn).2]
      exact nofun
    · obtain ⟨hid, hsource, htarget⟩ := hedges e he
      exact ⟨hout _ hid, hout _ hsource, hout _ htarget⟩
  have hparents : s.graph.Composable ([] ++ "p" :: ["q"]) := by
    have hlengths : ∀ p ∈ ["p", "q"], ∀ q ∈ ["p", "q"], q.length ≤ p.length := by decide
    refine ⟨by decide, by decide, fun p hp q hq _ => ?_, hclear⟩
    exact ne_append_of_length_le (hlengths p hp q hq) (by decide)
  have hflows : ∀ q ∈ [] ++ "p" :: ["q"], ∀ n flow stored, s.graph.node? q = some n →
      n.subflowId? = some flow → composer.source flow = .ok stored →
      stored.toGraph.nodes ≠ [] ∧ stored.toGraph.Attached := by
    rintro q - n flow stored - - ⟨⟩
    exact ⟨nofun, by simp [Graph.Attached, StoredFlow.toGraph, Edge.touches]⟩
  obtain ⟨hrest, hcount, hsucceeds, -⟩ :=
    removeSubflow_undoes_compose composer s [] ["q"] "p" hparents hflows
  obtain ⟨summary, hsummary⟩ := hsucceeds _ "f" _ rfl rfl rfl
  exact ⟨rfl, hrest, summary, hsummary, hcount summary hsummary⟩

end StepFlow
