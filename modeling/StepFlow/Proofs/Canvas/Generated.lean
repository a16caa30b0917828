import StepFlow.Canvas.Generated
import StepFlow.Proofs.Compose.Namespace
import StepFlow.Proofs.Keyed
import StepFlow.Proofs.Plan.Resolve

/-!
# Generated flows in a store

A generated flow names the successors of its nodes, and its graph has an edge for each of them. The
id of the edge joins the ids of its ends by a dash, which ids may have inside, so two successors can
share the id of their edges. A merge takes an edge by its id, and of such successors only the first
one is kept.

## Main definitions

* `successors`: the successors that a generated flow declares, in their order.
* `successorEdge`: the edge to such a successor.

## Main statements

* `edgeId_eq_iff`: when two successors share the id of their edges.
* `mem_merge_ofGenerated`: the edges that a store takes.
* `connects_merge_ofGenerated`: which successors are kept.
-/

namespace StepFlow

/-- Two texts joined by a dash are the same as two others if and only if they are the same one by
one, or one of the first texts goes on with a dash where the other one ends. -/
theorem append_dash_eq_iff {s t s' t' : String} : s ++ "-" ++ t = s' ++ "-" ++ t' ↔
    (s = s' ∧ t = t') ∨ (∃ rest, s' = s ++ "-" ++ rest ∧ t = rest ++ "-" ++ t') ∨
      ∃ rest, s = s' ++ "-" ++ rest ∧ t' = rest ++ "-" ++ t := by
  have hchars : ∀ a b : String, (a ++ "-" ++ b).toList = a.toList ++ '-' :: b.toList := by
    simp
  -- what is left of the longer text after the dash, and what that says of the second ones
  have hlonger : ∀ {a b x y : String} {rest : List Char}, (a ++ "-" ++ x).toList =
      (b ++ "-" ++ y).toList → b.toList = a.toList ++ '-' :: rest →
      ∃ rest, b = a ++ "-" ++ rest ∧ x = rest ++ "-" ++ y := by
    intro a b x y rest h hb
    refine ⟨String.ofList rest, String.toList_inj.1 ?_, String.toList_inj.1 ?_⟩
    · rw [hb, hchars, String.toList_ofList]
    · rw [hchars, hchars, hb, List.append_assoc] at h
      rw [hchars, String.toList_ofList]
      exact List.tail_eq_of_cons_eq (List.append_cancel_left h)
  constructor
  · intro h
    have hlist := congrArg String.toList h
    have hsplit := hlist
    rw [hchars, hchars] at hsplit
    rcases eq_or_continues hsplit with heq | ⟨rest, hrest⟩ | ⟨rest, hrest⟩
    · rw [heq] at hsplit
      have htail := List.tail_eq_of_cons_eq (List.append_cancel_left hsplit)
      exact .inl ⟨String.toList_inj.1 heq, String.toList_inj.1 htail⟩
    · exact .inr (.inl (hlonger hlist hrest))
    · exact .inr (.inr (hlonger hlist.symm hrest))
  · rintro (⟨rfl, rfl⟩ | ⟨rest, rfl, rfl⟩ | ⟨rest, rfl, rfl⟩)
    · rfl
    · simp only [String.append_assoc]
    · simp only [String.append_assoc]

namespace GeneratedNode

/-- Two successors share the id of their edges if and only if they are the same, or the id of one
node goes on with a dash where the other one ends and the rest of it leads the other target. -/
theorem edgeId_eq_iff {s t s' t' : String} : edgeId s t = edgeId s' t' ↔
    (s = s' ∧ t = t') ∨ (∃ rest, s' = s ++ "-" ++ rest ∧ t = rest ++ "-" ++ t') ∨
      ∃ rest, s = s' ++ "-" ++ rest ∧ t' = rest ++ "-" ++ t := by
  rw [← append_dash_eq_iff]
  have hchars : ∀ a b : String, (edgeId a b).toList = "e-".toList ++ (a ++ "-" ++ b).toList := by
    simp [edgeId]
  rw [← String.toList_inj, hchars, hchars, List.append_cancel_left_eq, String.toList_inj]

/-- The edge to a successor of a generated node. -/
def successorEdge (link : String × String) : Edge :=
  ⟨edgeId link.1 link.2, link.1, link.2, some .sequential⟩

/-- The successors that a generated flow declares in its order, each with its node. -/
def successors (flow : KeyMap GeneratedNode) : List (String × String) :=
  flow.entries.flatMap fun (id, n) => n.next.map fun target => (id, target)

variable {flow : KeyMap GeneratedNode} {id target : String} {n : GeneratedNode} {s : Store}

theorem mem_successors :
    (id, target) ∈ successors flow ↔ ∃ n, flow.get? id = some n ∧ target ∈ n.next := by
  simp only [successors, List.mem_flatMap, List.mem_map, Prod.mk.injEq, Prod.exists,
    KeyMap.get?, Keyed.get?_eq_some_iff flow.ordered.nodup_keys]
  constructor
  · rintro ⟨_, n, hn, _, htarget, rfl, rfl⟩
    exact ⟨n, hn, htarget⟩
  · rintro ⟨n, hn, htarget⟩
    exact ⟨id, n, hn, target, htarget, rfl, rfl⟩

theorem edges_ofGenerated (flow : KeyMap GeneratedNode) :
    (Graph.ofGenerated flow).edges = (successors flow).map successorEdge := by
  simp only [Graph.ofGenerated, edges, successors, List.map_flatMap, List.map_map]
  rfl

theorem nodeIds_ofGenerated (flow : KeyMap GeneratedNode) :
    nodeIds (Graph.ofGenerated flow).nodes = flow.entries.keys := by
  simp only [nodeIds, Graph.ofGenerated, List.map_map]
  rfl

theorem graph_merge_ofGenerated (hempty : s.graph = {}) :
    (s.merge (.ofGenerated flow)).2.graph = (Graph.ofGenerated flow).distinct := by
  rw [Store.graph_merge, hempty]
  rfl

/-- The edges to successors clash if and only if they share the id. -/
theorem successorEdge_clashes_iff {link link' : String × String} :
    (successorEdge link).clashes (successorEdge link') = true ↔
      (successorEdge link).id = (successorEdge link').id := by
  rw [Edge.clashes_iff]
  refine or_iff_left_of_imp fun hends => ?_
  have hlink : link = link' := hends
  rw [hlink]

/-- An empty store takes the edge of each successor that is the first one with its id. -/
theorem mem_merge_ofGenerated (hempty : s.graph = {}) {e : Edge} :
    e ∈ (s.merge (.ofGenerated flow)).2.graph.edges ↔ ∃ link,
      (successors flow).find? (fun d => edgeId d.1 d.2 = edgeId link.1 link.2) = some link ∧
        e = successorEdge link := by
  have hkey : ∀ b ∈ [] ++ (successors flow).map successorEdge,
      ∀ c ∈ (successors flow).map successorEdge, b.clashes c = true ↔ b.id = c.id := by
    intro b hb c hc
    obtain ⟨link, -, rfl⟩ := List.mem_map.1 hb
    obtain ⟨link', -, rfl⟩ := List.mem_map.1 hc
    exact successorEdge_clashes_iff
  rw [graph_merge_ofGenerated hempty, Graph.distinct, edges_ofGenerated, mem_newcomers_iff hkey,
    List.find?_map, Option.map_eq_some_iff]
  constructor
  · rintro ⟨-, link, hfind, rfl⟩
    exact ⟨link, hfind, rfl⟩
  · rintro ⟨link, hfind, rfl⟩
    exact ⟨fun _ hb => absurd hb List.not_mem_nil, link, hfind, rfl⟩

/-- A successor is kept if it is the first one with the id of its edge. -/
theorem connects_merge_ofGenerated (hempty : s.graph = {}) :
    (s.merge (.ofGenerated flow)).2.graph.connects id target = true ↔
      (successors flow).find? (fun d => edgeId d.1 d.2 = edgeId id target) = some (id, target) := by
  simp only [Graph.connects, List.any_eq_true, mem_merge_ofGenerated hempty, Bool.and_eq_true,
    decide_eq_true_eq]
  constructor
  · rintro ⟨_, ⟨link, hfind, rfl⟩, rfl, rfl⟩
    exact hfind
  · intro hfind
    exact ⟨successorEdge (id, target), ⟨(id, target), hfind, rfl⟩, rfl, rfl⟩

/-- All successors are kept if and only if no two of them share the id of their edges. -/
theorem forall_connects_iff (hempty : s.graph = {}) :
    (∀ link ∈ successors flow,
        (s.merge (.ofGenerated flow)).2.graph.connects link.1 link.2 = true) ↔
      ∀ link ∈ successors flow, ∀ link' ∈ successors flow,
        edgeId link.1 link.2 = edgeId link'.1 link'.2 → link = link' := by
  simp only [connects_merge_ofGenerated hempty]
  constructor
  · intro h link hlink link' hlink' hid
    have hfind := h link hlink
    rw [hid, h link' hlink'] at hfind
    exact (Option.some.inj hfind).symm
  · intro h link hlink
    have hsome : ((successors flow).find? fun d =>
        edgeId d.1 d.2 = edgeId link.1 link.2).isSome :=
      List.find?_isSome.2 ⟨link, hlink, decide_eq_true rfl⟩
    obtain ⟨first, hfirst⟩ := Option.isSome_iff_exists.1 hsome
    have hid : edgeId first.1 first.2 = edgeId link.1 link.2 :=
      of_decide_eq_true (List.find?_some hfirst :)
    rw [hfirst, h first (List.mem_of_find?_eq_some hfirst) link hlink hid]

/-- No two successors share the id of their edges if and only if no target repeats with a dash how
the id of one node goes on from that of another one. -/
theorem edgeId_apart_iff : (∀ link ∈ successors flow, ∀ link' ∈ successors flow,
      edgeId link.1 link.2 = edgeId link'.1 link'.2 → link = link') ↔
    ∀ id n rest n' target, flow.get? id = some n → flow.get? (id ++ "-" ++ rest) = some n' →
      target ∈ n'.next → rest ++ "-" ++ target ∉ n.next := by
  constructor
  · intro h id n rest n' target hn hn' htarget hlonger
    have hid : edgeId id (rest ++ "-" ++ target) = edgeId (id ++ "-" ++ rest) target :=
      edgeId_eq_iff.2 (.inr (.inl ⟨rest, rfl, rfl⟩))
    have hsame := h (id, rest ++ "-" ++ target) (mem_successors.2 ⟨n, hn, hlonger⟩)
      (id ++ "-" ++ rest, target) (mem_successors.2 ⟨n', hn', htarget⟩) hid
    exact ne_append_of_length_le (Nat.le_refl id.length) (by decide) rest (congrArg Prod.fst hsame)
  · rintro h ⟨id, target⟩ hlink ⟨id', target'⟩ hlink' hid
    obtain ⟨n, hn, htarget⟩ := mem_successors.1 hlink
    obtain ⟨n', hn', htarget'⟩ := mem_successors.1 hlink'
    have hid : edgeId id target = edgeId id' target' := hid
    rcases edgeId_eq_iff.1 hid with ⟨rfl, rfl⟩ | ⟨rest, rfl, rfl⟩ | ⟨rest, rfl, rfl⟩
    · rfl
    · exact absurd htarget (h id n rest n' target' hn hn' htarget')
    · exact absurd htarget' (h id' n' rest n target hn' hn htarget)

end GeneratedNode

open GeneratedNode in
/-- What an empty store holds after a generated flow was merged into it. It has one node for each
key, the one of the entry, and each of its edges leads to a declared successor. A declared successor
is kept if and only if it is the first one in the flow with the id of its edge. So all are kept if
and only if there are no two of them of which the id of one node goes on with a dash where the id of
the other one ends, and the rest of it leads the target of the shorter one up to the other
target. -/
theorem generated_successors_kept (flow : KeyMap GeneratedNode) (s : Store)
    (hempty : s.graph = {}) :
    let merged := (s.merge (.ofGenerated flow)).2.graph
    nodeIds merged.nodes = flow.entries.keys ∧
      merged.nodes = flow.entries.map (fun (id, n) => n.toNode id) ∧
      (∀ e ∈ merged.edges, (e.source, e.target) ∈ successors flow ∧
        e.id = edgeId e.source e.target) ∧
      (∀ id n target, flow.get? id = some n → target ∈ n.next →
        (merged.connects id target = true ↔
          (successors flow).find? (fun d => edgeId d.1 d.2 = edgeId id target) =
            some (id, target))) ∧
      ((∀ id n target, flow.get? id = some n → target ∈ n.next →
          merged.connects id target = true) ↔
        ∀ id n rest n' target, flow.get? id = some n →
          flow.get? (id ++ "-" ++ rest) = some n' → target ∈ n'.next →
          rest ++ "-" ++ target ∉ n.next) := by
  intro merged
  have hnodes : merged.nodes = flow.entries.map fun (id, n) => n.toNode id := by
    have hdistinct : (nodeIds (Graph.ofGenerated flow).nodes).Nodup :=
      nodeIds_ofGenerated flow ▸ flow.ordered.nodup_keys
    rw [show merged = _ from graph_merge_ofGenerated hempty,
      Graph.distinct_nodes_of_nodup hdistinct]
    rfl
  refine ⟨?_, hnodes, ?_, fun id n target hn htarget => connects_merge_ofGenerated hempty, ?_⟩
  · rw [hnodes]
    exact nodeIds_ofGenerated flow
  · intro e he
    obtain ⟨link, hfind, rfl⟩ := (mem_merge_ofGenerated hempty).1 he
    exact ⟨List.mem_of_find?_eq_some hfind, rfl⟩
  · rw [← edgeId_apart_iff, ← forall_connects_iff hempty]
    constructor
    · rintro h ⟨id, target⟩ hlink
      obtain ⟨n, hn, htarget⟩ := mem_successors.1 hlink
      exact h id n target hn htarget
    · exact fun h id n target hn htarget => h (id, target) (mem_successors.2 ⟨n, hn, htarget⟩)

/-- A flow whose ids have dashes, in which no two successors share the id of their edges. -/
theorem generated_successors_kept_of_dashed_ids :
    let flow : KeyMap GeneratedNode := ⟨[("ask", { next := ["ask-mail", "mail"] }),
      ("ask-mail", { next := ["mail"] }), ("mail", {})], by decide⟩
    let merged := (({} : Store).merge (.ofGenerated flow)).2.graph
    nodeIds merged.nodes = ["ask", "ask-mail", "mail"] ∧
      (∃ n, flow.get? "ask" = some n ∧ "ask-mail" ∈ n.next) ∧
      merged.connects "ask" "ask-mail" = true ∧ merged.connects "ask-mail" "mail" = true := by
  intro flow merged
  obtain ⟨hnodes, -, -, hkept, -⟩ := generated_successors_kept flow {} rfl
  exact ⟨hnodes, ⟨_, rfl, by decide⟩,
    (hkept "ask" _ "ask-mail" rfl (by decide)).2 (by decide +kernel),
    (hkept "ask-mail" _ "mail" rfl (by decide)).2 (by decide +kernel)⟩

/-- The successor `c` of `a-b` is lost, because the successor `b-c` of `a` has the same edge id. -/
theorem successor_lost_to_taken_id :
    let flow : KeyMap GeneratedNode := ⟨[("a", { next := ["b-c"] }), ("a-b", { next := ["c"] }),
      ("b-c", {}), ("c", {})], by decide⟩
    let merged := (({} : Store).merge (.ofGenerated flow)).2.graph
    (∃ n, flow.get? "a-b" = some n ∧ "c" ∈ n.next) ∧ merged.connects "a" "b-c" = true ∧
      merged.connects "a-b" "c" = false := by
  intro flow merged
  exact ⟨⟨_, rfl, by decide⟩, by decide +kernel, by decide +kernel⟩

end StepFlow
