import Mathlib.Data.List.Nodup
import StepFlow.Proofs.Store.Revision

/-!
# What stays unique in a store

Node ids and the ends of edges are kept apart by every edit: what is brought in is looked up first,
and a connection looks for an edge between its two nodes. The ids of edges are kept apart as well,
with one exception. The id of a connection is made from its two ends and is not looked up, so it may
be the id of an edge between other nodes, and whoever removes the edge by its id removes that one.

## Main definitions

* `Graph.Simple`: distinct node ids and distinct ends of edges.
* `Store.SimpleInput`, `Store.UntakenId`: what a command has to grant.

## Main statements

* `Graph.Simple.revision`: every edit keeps a graph simple.
* `simple_editAll`: and so do all commands.
* `Store.nodup_edgeIds_edit_iff`: which edits keep the ids of edges apart.
* `Store.removeEdge_connect_iff`: when the edge of a connection can be removed by its id.
* `edgeIds_editAll`: both in one statement.
-/

namespace StepFlow

/-- The ids of a list of edges. -/
def edgeIds (edges : List Edge) : List String :=
  edges.map (·.id)

namespace Graph

/-- Whether the ids of the nodes are distinct, and no two edges join the same nodes in the same
direction. -/
structure Simple (g : Graph) : Prop where
  nodes : (nodeIds g.nodes).Nodup
  edges : (g.edges.map Edge.ends).Nodup

instance (g : Graph) : Decidable g.Simple :=
  decidable_of_iff ((nodeIds g.nodes).Nodup ∧ (g.edges.map Edge.ends).Nodup)
    ⟨fun h => ⟨h.1, h.2⟩, fun h => ⟨h.nodes, h.edges⟩⟩

variable {g more : Graph}

/-- A merge keeps a graph simple, whatever is merged. -/
theorem Simple.merge (h : g.Simple) (more : Graph) : (g.merge more).Simple where
  nodes := (nodup_append_newcomers_iff (fun _ _ hid => decide_eq_true hid) _ _).2 h.nodes
  edges := (nodup_ends_append_newcomers_iff _ _).2 h.edges

theorem nodup_edgeIds_merge_iff :
    (edgeIds (g.merge more).edges).Nodup ↔ (edgeIds g.edges).Nodup :=
  nodup_ids_append_newcomers_iff _ _

theorem connects_eq_false_iff {source target : String} :
    g.connects source target = false ↔ (source, target) ∉ g.edges.map Edge.ends := by
  simp [connects, Edge.ends]

theorem hasEdge_eq_false_iff {id : String} : g.hasEdge id = false ↔ id ∉ edgeIds g.edges := by
  simp [hasEdge, edgeIds]

end Graph

/-- Behind the edges that were there, a new edge is found by its id exactly if none of them has
it. -/
theorem find?_id_append_iff {edges : List Edge} {e : Edge} (hends : e.ends ∉ edges.map Edge.ends) :
    (∃ found, (edges ++ [e]).find? (fun e' => e'.id = e.id) = some found ∧ found.ends = e.ends) ↔
      e.id ∉ edgeIds edges := by
  rw [List.find?_append]
  cases hfound : edges.find? fun e' => e'.id = e.id with
  | none =>
    have hfree : e.id ∉ edgeIds edges := by
      simpa [edgeIds] using List.find?_eq_none.1 hfound
    exact iff_of_true ⟨e, by simp, rfl⟩ hfree
  | some other =>
    have hmem : other ∈ edges := List.mem_of_find?_eq_some hfound
    have hid : other.id = e.id := of_decide_eq_true (List.find?_some hfound :)
    refine iff_of_false ?_ fun hfree => hfree (hid ▸ List.mem_map_of_mem hmem)
    rintro ⟨found, hsome, hsame⟩
    obtain rfl : other = found := by simpa using hsome
    exact hends (hsame ▸ List.mem_map_of_mem hmem)

namespace Store

/-- Whether a command takes a new id where it is free to choose one, and a flow that it loads is
simple. -/
def SimpleInput (s : Store) : Command → Prop
  | .addAgent id _ => id ∉ nodeIds s.graph.nodes
  | .load _ flow => flow.graph.Simple
  | _ => True

end Store

/-- Every edit keeps a graph simple. -/
theorem Graph.Simple.revision {s : Store} {c : Store.Command} {g : Graph} (h : s.graph.Simple)
    (hinput : s.SimpleInput c) (hrevision : s.Revision c g) : g.Simple := by
  cases hrevision with
  | merged _ => exact h.merge _
  | trimmed hnodes hedges _ =>
    exact ⟨(hnodes.map _).nodup h.nodes, (hedges.map _).nodup h.edges⟩
  | altered hids => exact ⟨hids ▸ h.nodes, h.edges⟩
  | agent id position =>
    refine ⟨?_, by simpa using h.edges⟩
    rw [nodes_append, nodeIds_append]
    exact List.concat_eq_append ▸ h.nodes.concat hinput
  | @joined source target _ hfree =>
    refine ⟨by simpa using h.nodes, ?_⟩
    rw [edges_append, List.map_append]
    exact List.concat_eq_append ▸ h.edges.concat (connects_eq_false_iff.1 hfree)
  | loaded flowId flow => exact Simple.merge hinput _

/-- Node ids and the ends of edges stay distinct under any commands, if new agents get new ids and
the flows that are loaded have distinct ones. The empty store may be the first one, and a loaded
flow the first command. -/
theorem simple_editAll {s : Store} {commands : List Store.Command} (h : s.graph.Simple)
    (hinput : s.Permits Store.SimpleInput commands) : (s.editAll commands).graph.Simple :=
  hinput.keeps (fun s c hs hc => hs.revision hc (s.revision_edit c)) h

/-- A flow is loaded, an agent added, an edge drawn twice, a flow composed and a graph merged that is
partly there. -/
theorem simple_editAll_of_session :
    let flow : PersistedFlow := {
      nodes := [{ id := "a" }, { id := "b", config := [(subflowKey, .str "f")] }]
      edges := [⟨"1", "b", "a", none⟩] }
    let composer : Composer := { source := fun _ => .ok (.graph ⟨[{ id := "a" }, { id := "a" }], []⟩) }
    let commands : List Store.Command := [.load "f" flow, .addAgent "x" {}, .connect "a" "x",
      .connect "a" "x", .compose composer "b", .merge ⟨[{ id := "a" }, { id := "c" }],
        [⟨"2", "b", "a", none⟩, ⟨"3", "c", "a", none⟩]⟩, .fillGaps .missingOutgoing]
    ({} : Store).graph.Simple ∧ ({} : Store).Permits Store.SimpleInput commands ∧
      (({} : Store).editAll commands).graph.Simple := by
  intro flow composer commands
  have hempty : ({} : Store).graph.Simple := ⟨.nil, .nil⟩
  have hflow : flow.graph.Simple := by decide
  have hagent : "x" ∉ nodeIds flow.nodes := by decide
  have hinput : ({} : Store).Permits Store.SimpleInput commands :=
    ⟨hflow, hagent, trivial, trivial, trivial, trivial, trivial, trivial⟩
  exact ⟨hempty, hinput, simple_editAll hempty hinput⟩

namespace Store

variable {s s' : Store} {c : Command} {g : Graph} {source target id : String}

/-- Whether the id is free that a command gives to a new edge without looking it up, and the edges
of a flow that it loads have distinct ids. -/
def UntakenId (s : Store) : Command → Prop
  | .connect source target => (Edge.sequential source target).Within s.graph.nodes →
    s.graph.connects source target = false → s.graph.hasEdge (sequentialId source target) = false
  | .load _ flow => (edgeIds flow.edges).Nodup
  | _ => True

theorem nodup_edgeIds_revision (h : (edgeIds s.graph.edges).Nodup) (hid : s.UntakenId c)
    (hrevision : s.Revision c g) : (edgeIds g.edges).Nodup := by
  cases hrevision with
  | merged _ => exact Graph.nodup_edgeIds_merge_iff.2 h
  | trimmed _ hedges _ => exact (hedges.map _).nodup h
  | altered _ => exact h
  | agent id position => simpa using h
  | @joined source target hwithin hfree =>
    rw [Graph.edges_append, edgeIds, List.map_append]
    exact List.concat_eq_append ▸ h.concat (Graph.hasEdge_eq_false_iff.1 (hid hwithin hfree))
  | loaded flowId flow => exact Graph.nodup_edgeIds_merge_iff.2 hid

/-- Of all edits only a connection whose id is taken and the loading of a flow with a repeated id
leave two edges with one id. -/
theorem nodup_edgeIds_edit_iff (h : (edgeIds s.graph.edges).Nodup) (c : Command) :
    (edgeIds (s.edit c).store.graph.edges).Nodup ↔ s.UntakenId c := by
  refine ⟨fun hnodup => ?_, fun hid => nodup_edgeIds_revision h hid (s.revision_edit c)⟩
  cases c with
  | connect source target =>
    intro hwithin hfree
    rw [edit, connect_of_within hwithin hfree] at hnodup
    have hconcat : ((edgeIds s.graph.edges).concat (sequentialId source target)).Nodup := by
      simpa [editedOr, Except.map, edited, withEdges, edgeIds, Edge.sequential] using hnodup
    exact Graph.hasEdge_eq_false_iff.2 ((List.nodup_concat _ _).1 hconcat).1
  | load flowId flow =>
    rw [edit, edited, graph_load] at hnodup
    exact Graph.nodup_edgeIds_merge_iff.1 hnodup
  | _ => trivial

/-- The first edge with the id of a connection joins the two nodes unless the id was taken. -/
theorem removeEdge_connect_iff (h : (edgeIds s.graph.edges).Nodup)
    (hconnect : s.connect source target = .ok (id, s')) :
    (∃ e, (s'.removeEdge id).1 = some e ∧ e.ends = (source, target)) ↔
      s.UntakenId (.connect source target) := by
  rcases s.connect_cases source target with ⟨e, hresult, -⟩ |
    ⟨e, he, rfl, rfl, hjoined, hresult⟩ | ⟨hwithin, hfree, hresult⟩
  · rw [hresult] at hconnect
    cases hconnect
  · rw [hresult] at hconnect
    cases hconnect
    refine iff_of_true ⟨e, find?_key_of_nodup h he, rfl⟩ fun _ hfree => ?_
    exact absurd (hfree.symm.trans hjoined) Bool.false_ne_true
  · rw [hresult] at hconnect
    cases hconnect
    have hends : (Edge.sequential source target).ends ∉ s.graph.edges.map Edge.ends :=
      Graph.connects_eq_false_iff.1 hfree
    refine (find?_id_append_iff hends).trans ?_
    rw [← Graph.hasEdge_eq_false_iff]
    exact ⟨fun huntaken _ _ => huntaken, fun huntaken => huntaken hwithin hfree⟩

end Store

/-- The ids of edges are distinct throughout a run of commands exactly if each connection that
appends an edge finds its id free, and loaded flows have distinct ones. Then the edge of a further
connection can be removed by its id exactly if that one finds its id free, too. -/
theorem edgeIds_editAll {s : Store} (h : (edgeIds s.graph.edges).Nodup)
    (commands : List Store.Command) :
    (s.Permits Store.UntakenId commands ↔
      ∀ earlier, earlier <+: commands → (edgeIds (s.editAll earlier).graph.edges).Nodup) ∧
    (s.Permits Store.UntakenId commands → ∀ source target id joined,
      (s.editAll commands).connect source target = .ok (id, joined) →
      ((∃ e, (joined.removeEdge id).1 = some e ∧ e.source = source ∧ e.target = target) ↔
        (s.editAll commands).UntakenId (.connect source target))) := by
  have hiff : s.Permits Store.UntakenId commands ↔
      ∀ earlier, earlier <+: commands → (edgeIds (s.editAll earlier).graph.edges).Nodup :=
    Store.permits_iff (I := fun g => (edgeIds g.edges).Nodup)
      (fun _ c hs => Store.nodup_edgeIds_edit_iff hs c) h
  refine ⟨hiff, fun hpermits source target id joined hconnect => ?_⟩
  have hnodup := hiff.1 hpermits commands (List.prefix_refl _)
  simpa only [Edge.ends, Prod.mk.injEq] using Store.removeEdge_connect_iff hnodup hconnect

/-- An edge is drawn under an id of its own, and connected again and backwards. -/
theorem edgeIds_editAll_of_drawn_edge :
    let commands : List Store.Command := [.addNode { id := "a" }, .addNode { id := "b" },
      .addEdge ⟨"drawn", "a", "b", none⟩, .connect "a" "b"]
    (edgeIds ({} : Store).graph.edges).Nodup ∧ ({} : Store).Permits Store.UntakenId commands ∧
      (edgeIds (({} : Store).editAll commands).graph.edges).Nodup ∧
      ∃ joined e, (({} : Store).editAll commands).connect "b" "a" = .ok ("b→a", joined) ∧
        (joined.removeEdge "b→a").1 = some e ∧ e.source = "b" ∧ e.target = "a" := by
  intro commands
  have hempty : (edgeIds ({} : Store).graph.edges).Nodup := .nil
  have huntaken : ({} : Store).Permits Store.UntakenId commands :=
    ⟨trivial, trivial, trivial, fun _ _ => rfl, trivial⟩
  obtain ⟨hiff, hremove⟩ := edgeIds_editAll hempty commands
  obtain ⟨joined, hconnect⟩ : ∃ joined,
      (({} : Store).editAll commands).connect "b" "a" = .ok ("b→a", joined) := ⟨_, rfl⟩
  obtain ⟨e, he, hsource, htarget⟩ := (hremove huntaken _ _ _ _ hconnect).2 fun _ _ => rfl
  exact ⟨hempty, huntaken, hiff.1 huntaken commands (List.prefix_refl _), joined, e, hconnect, he,
    hsource, htarget⟩

/-- An edge that kept its id when its end was moved to another node. The connection of the former
two nodes gets the same id, and removing it by that id removes the moved edge. -/
theorem connection_with_taken_id :
    let commands : List Store.Command := [.addNode { id := "a" }, .addNode { id := "b" },
      .addNode { id := "c" }, .addEdge ⟨"a→b", "a", "c", none⟩, .connect "a" "b"]
    let s := ({} : Store).editAll commands
    ¬(edgeIds s.graph.edges).Nodup ∧ s.connect "a" "b" = .ok ("a→b", s) ∧
      (s.removeEdge "a→b").1 = some ⟨"a→b", "a", "c", none⟩ := by
  intro commands s
  exact ⟨by decide, rfl, rfl⟩

end StepFlow
