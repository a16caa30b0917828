import StepFlow.Authoring.Registry
import StepFlow.Proofs.Wire.Graph
import StepFlow.Wire.Exchange
import StepFlow.Wire.Storage

/-!
# Stable JSON forms

Reading normalizes: what is missing is filled in, the spelling of a kind is settled, a blank next
step is dropped, and successors are sorted. Reading again what was read and written changes nothing
more.

## Main results

* `StepResponse.fromJson_toJson`: what is read from the form of any response.
* `formats_stable`: the JSON forms of flows, of stored flows and of what a run exchanges are stable,
  and so is the form of a step that a graph was resolved into.

## Design notes

A stored flow is read by trying two shapes. The form of a graph always has its nodes, so the first
shape fits, and the form of a list of steps has none, so only the second one does.
-/

namespace StepFlow

open Json

/-! ### Stored flows -/

namespace StoredFlow

/-- Every node of a graph is read back, and every step of a list is in normal form. -/
def Readable : StoredFlow → Prop
  | graph g => g.Readable
  | steps list => ∀ s ∈ list, s.Normal

theorem readable_of_graphFromObject {entries : Object} (hv : (Value.obj entries).isFinite = true)
    {flow : StoredFlow} (h : graphFromObject entries = .ok flow) : flow.Readable := by
  simp only [graphFromObject, bind_eq_ok] at h
  obtain ⟨-, -, nodes, hnodes, edges, -, h⟩ := h
  obtain rfl := Except.ok.inj h
  have hgiven : (Fields.named entries).isFinite = true := hv
  exact (Node.yields_list.field hgiven "nodes").required hnodes

theorem readable_of_stepsFromObject {entries : Object} (hv : (Value.obj entries).isFinite = true)
    {flow : StoredFlow} (h : stepsFromObject entries = .ok flow) : flow.Readable := by
  simp only [stepsFromObject, bind_eq_ok] at h
  obtain ⟨-, -, list, hlist, h⟩ := h
  obtain rfl := Except.ok.inj h
  have hgiven : (Fields.named entries).isFinite = true := hv
  exact (Step.yields_list.field hgiven "steps").required hlist

theorem yields_readable : StoredFlow.fromJson.Yields Readable := by
  intro v flow hv h
  cases v with
  | obj entries =>
    simp only [fromJson] at h
    split at h
    · next hgraph =>
      obtain rfl := Except.ok.inj h
      exact readable_of_graphFromObject hv hgraph
    · next hsteps =>
      obtain rfl := Except.ok.inj h
      exact readable_of_stepsFromObject hv hsteps
    · simp at h
  | _ => simp [fromJson] at h

theorem graphFromObject_toJson {g : Graph} (h : g.Readable) :
    graphFromObject [("edges", edgesToJson g.edges), ("nodes", nodesToJson g.nodes)] =
      .ok (.graph g) := by
  simp [graphFromObject, nodesFromJson_toJson h]

theorem graphFromObject_steps (list : List Step) :
    graphFromObject [("steps", stepsToJson list)] = .error (.missingField "nodes") := by
  simp [graphFromObject]
  rfl

theorem stepsFromObject_toJson {list : List Step} (h : ∀ s ∈ list, s.Normal) :
    stepsFromObject [("steps", stepsToJson list)] = .ok (.steps list) := by
  simp [stepsFromObject, stepsFromJson_toJson h]

theorem fromJson_toJson {flow : StoredFlow} (h : flow.Readable) :
    fromJson flow.toJson = .ok flow := by
  cases flow with
  | graph g => simp [toJson, Graph.toJson, fromJson, graphFromObject_toJson h]
  | steps list => simp [toJson, fromJson, graphFromObject_steps, stepsFromObject_toJson h]

end StoredFlow

namespace FlowRecord

theorem yields_readable : FlowRecord.fromJson.Yields fun r => ∀ n ∈ r.nodes, n.Readable := by
  intro v r hv h
  simp only [fromJson, bind_eq_ok] at h
  obtain ⟨given, hread, -, -, name, -, nodes, hnodes, edges, -, current, -, h⟩ := h
  obtain rfl := Except.ok.inj h
  have hgiven := Shape.isFinite_of_read hv hread
  exact (Node.yields_list.field hgiven "nodes").required hnodes

theorem fromJson_toJson {r : FlowRecord} (h : ∀ n ∈ r.nodes, n.Readable) :
    fromJson r.toJson = .ok r := by
  simp [fromJson, toJson, nodesFromJson_toJson h]

end FlowRecord

namespace PersistedFlow

theorem yields_readable : PersistedFlow.fromJson.Yields fun f => ∀ n ∈ f.nodes, n.Readable := by
  intro v f hv h
  simp only [fromJson, bind_eq_ok] at h
  obtain ⟨given, hread, -, -, name, -, nodes, hnodes, edges, -, current, -, next, -, h⟩ := h
  obtain rfl := Except.ok.inj h
  have hgiven := Shape.isFinite_of_read hv hread
  exact (Node.yields_list.field hgiven "nodes").orElse hnodes (by simp)

theorem fromJson_toJson {f : PersistedFlow} (h : ∀ n ∈ f.nodes, n.Readable) :
    fromJson f.toJson = .ok f := by
  simp [fromJson, toJson, nodesFromJson_toJson h]

end PersistedFlow

/-! ### What a run exchanges -/

theorem Pointers.fromJson_toJson (p : Pointers) : fromJson p.toJson = .ok p := by
  simp [fromJson, toJson]

theorem StepResult.fromJson_toJson (r : StepResult) : fromJson r.toJson = .ok r := by
  simp [fromJson, toJson]

theorem Context.fromJson_toJson (c : Context) : fromJson c.toJson = .ok c := by
  simp [fromJson, toJson, list_arr_map fun r _ => StepResult.fromJson_toJson r]

theorem RunMetadata.fromJson_toJson (m : RunMetadata) : fromJson m.toJson = .ok m := by
  simp [fromJson, toJson]

namespace FlowState

theorem yields_normal : FlowState.fromJson.Yields fun s => ∀ step ∈ s.steps, step.Normal := by
  intro v s hv h
  simp only [fromJson, bind_eq_ok] at h
  obtain ⟨given, hread, -, -, name, -, flowId, -, steps, hsteps, edges, -, current, -, h⟩ := h
  obtain rfl := Except.ok.inj h
  have hgiven := Shape.isFinite_of_read hv hread
  exact (Step.yields_list.field hgiven "nodes").required hsteps

theorem fromJson_toJson {s : FlowState} (h : ∀ step ∈ s.steps, step.Normal) :
    fromJson s.toJson = .ok s := by
  simp [fromJson, toJson, stepsFromJson_toJson h]

end FlowState

namespace StepRequest

/-- Every node of the request is read back, and every step is in normal form. -/
structure Readable (r : StepRequest) : Prop where
  nodes : ∀ n ∈ r.nodes, n.Readable
  steps : ∀ s ∈ r.steps, s.Normal
  current : ∀ s ∈ r.current, s.Normal
  flow : ∀ s ∈ r.flow.steps, s.Normal

theorem yields_readable : StepRequest.fromJson.Yields Readable := by
  intro v r hv h
  simp only [fromJson, bind_eq_ok] at h
  obtain ⟨given, hread, -, -, flowId, -, nodes, hnodes, steps, hsteps, current, hcurrent,
    flow, hflow, stepId, -, candidate, -, context, -, metadata, -, h⟩ := h
  obtain rfl := Except.ok.inj h
  have hgiven := Shape.isFinite_of_read hv hread
  exact
    { nodes := (Node.yields_list.field hgiven "nodes").required hnodes
      steps := (Step.yields_list.field hgiven "steps").required hsteps
      current := (Step.yields_normal.nullable.field hgiven "currentNode").namedOrNone hcurrent
      flow := (FlowState.yields_normal.field hgiven "prevFlowState").required hflow }

theorem fromJson_toJson {r : StepRequest} (h : r.Readable) : fromJson r.toJson = .ok r := by
  have hcurrent := nullable_getD_null (fun s hs => Step.fromJson_toJson (h.current s hs))
    (by simp [Step.toJson])
  simp [fromJson, toJson, hcurrent, nodesFromJson_toJson h.nodes, stepsFromJson_toJson h.steps,
    FlowState.fromJson_toJson h.flow, Context.fromJson_toJson, RunMetadata.fromJson_toJson]

end StepRequest

namespace StepResponse

/-- A response is read back but for a blank next step. -/
theorem fromJson_toJson (r : StepResponse) :
    fromJson r.toJson = .ok { r with next := nonBlank r.next } := by
  simp [fromJson, toJson]

theorem nonBlank_nonBlank (next : Option String) : nonBlank (nonBlank next) = nonBlank next := by
  simp [nonBlank, Option.filter_filter]

theorem stable : Stable fromJson toJson := by
  intro v r _ h
  simp only [fromJson, bind_eq_ok] at h
  obtain ⟨given, -, -, -, next, -, output, -, context, -, h⟩ := h
  obtain rfl := Except.ok.inj h
  rw [fromJson_toJson, nonBlank_nonBlank]

end StepResponse

/-! ### Arguments of handlers -/

namespace ArgSpec

theorem yields_default : ArgSpec.fromJson.Yields fun spec => ∀ v ∈ spec.default, v ≠ .null := by
  intro v spec hv h
  simp only [fromJson, bind_eq_ok] at h
  obtain ⟨given, hread, -, -, kind, -, required, -, default, hdefault, h⟩ := h
  obtain rfl := Except.ok.inj h
  have hgiven := Shape.isFinite_of_read hv hread
  exact (Decoder.Yields.nullable_any.field hgiven "default").orNone hdefault

theorem fromJson_toJson {spec : ArgSpec} (h : ∀ v ∈ spec.default, v ≠ .null) :
    fromJson spec.toJson = .ok spec := by
  have hdefault : Field.ofGiven (Decoder.nullable Decoder.any) (spec.default.map id) =
      .ok (spec.default.map some) :=
    Field.ofGiven_optional (fun _ _ => rfl) h
  simp only [Option.map_id, id_eq] at hdefault
  simp [fromJson, toJson, hdefault]

end ArgSpec

/-! ### The formats -/

/-- Each JSON form that the library reads and writes is stable: what is read from finite JSON, once
written, is read again. A stored flow so keeps its shape. The steps that a graph is resolved into
are read again as well. -/
theorem formats_stable :
    Stable Node.fromJson Node.toJson ∧
    Stable Edge.fromJson Edge.toJson ∧
    Stable Step.fromJson Step.toJson ∧
    Stable Graph.fromJson Graph.toJson ∧
    Stable StoredFlow.fromJson StoredFlow.toJson ∧
    Stable GeneratedNode.fromJson GeneratedNode.toJson ∧
    Stable FlowRecord.fromJson FlowRecord.toJson ∧
    Stable PersistedFlow.fromJson PersistedFlow.toJson ∧
    Stable Pointers.fromJson Pointers.toJson ∧
    Stable Context.fromJson Context.toJson ∧
    Stable StepRequest.fromJson StepRequest.toJson ∧
    Stable StepResponse.fromJson StepResponse.toJson ∧
    Stable ArgSpec.fromJson ArgSpec.toJson ∧
    ∀ ⦃v g⦄, v.isFinite = true → Graph.fromJson v = .ok g →
      ∀ s ∈ g.steps, Step.fromJson s.toJson = .ok s := by
  refine ⟨Node.yields_readable.stable fun _ => Node.fromJson_toJson,
    fun _ e _ _ => e.fromJson_toJson,
    Step.yields_normal.stable fun _ => Step.fromJson_toJson,
    Graph.yields_readable.stable fun _ => Graph.fromJson_toJson,
    StoredFlow.yields_readable.stable fun _ => StoredFlow.fromJson_toJson,
    GeneratedNode.yields_finite.stable fun _ => GeneratedNode.fromJson_toJson,
    FlowRecord.yields_readable.stable fun _ => FlowRecord.fromJson_toJson,
    PersistedFlow.yields_readable.stable fun _ => PersistedFlow.fromJson_toJson,
    fun _ p _ _ => p.fromJson_toJson,
    fun _ c _ _ => c.fromJson_toJson,
    StepRequest.yields_readable.stable fun _ => StepRequest.fromJson_toJson,
    StepResponse.stable,
    ArgSpec.yields_default.stable fun _ => ArgSpec.fromJson_toJson, ?_⟩
  intro v g hv hg s hs
  exact Step.fromJson_toJson ((Graph.yields_readable hv hg).normal_steps s hs)

/-- A graph given by place: its condition is spelled in capitals, has an empty label and stands at
an integer, and its other node has nothing but an id. -/
def placedGraph : Value :=
  .arr [
    .arr [
      .obj [("config", .obj [("condition", .str "x > 1")]), ("id", .str "a"), ("label", .str ""),
        ("position", .arr [.int 3]), ("type", .str "CONDITION")],
      .obj [("id", .str "b")]],
    .arr [.arr [.str "1", .str "a", .str "b", .null]]]

/-- A request without an id of its flow, whose current step has nothing but an id. -/
def bareRequest : Value :=
  .obj [
    ("candidateNextStep", .null), ("context", .arr [.arr [.str "a", .int 1]]),
    ("currentNode", .obj [("id", .str "b")]),
    ("metadata", .obj [("name", .str "f"), ("startedAt", .str "t")]), ("nodes", .arr []),
    ("prevFlowState", .arr [.str "f", .null, .arr [.obj [("id", .str "b")]], .arr [], .str "b"]),
    ("stepId", .str "b"), ("steps", .arr [.obj [("id", .str "b")]])]

/-- The graph is read, normalized, written and read again, as are its steps, a list of steps in
storage, the request, and a response with a blank next step. -/
theorem formats_stable_of_placed_graph :
    placedGraph.isFinite = true ∧
    (∃ g, Graph.fromJson placedGraph = .ok g ∧ Graph.fromJson g.toJson = .ok g ∧
      g.steps.map (·.label) = ["Unnamed", "Unnamed"] ∧
      g.steps.map (·.next) = [.branch ["b"] (some "x > 1"), .terminal] ∧
      ∀ s ∈ g.steps, Step.fromJson s.toJson = .ok s) ∧
    (∃ flow, StoredFlow.fromJson (.obj [("steps", .arr [.obj [("id", .str "s")]])]) = .ok flow ∧
      flow.isSteps = true ∧ StoredFlow.fromJson flow.toJson = .ok flow) ∧
    (∃ r, StepRequest.fromJson bareRequest = .ok r ∧ r.current.map (·.run) = some "noop" ∧
      StepRequest.fromJson r.toJson = .ok r) ∧
    ∃ r, StepResponse.fromJson (.obj [("next_step", .str " ")]) = .ok r ∧ r.next = none ∧
      StepResponse.fromJson r.toJson = .ok r := by
  obtain ⟨-, -, -, hgraph, hstored, -, -, -, -, -, hrequest, hresponse, -, hsteps⟩ :=
    formats_stable
  have hfinite : placedGraph.isFinite = true := by decide
  have hlist : (Value.obj [("steps", .arr [.obj [("id", .str "s")]])]).isFinite = true := by decide
  have hbare : bareRequest.isFinite = true := by decide
  have hblank : (Value.obj [("next_step", .str " ")]).isFinite = true := by decide
  exact ⟨hfinite, ⟨_, rfl, hgraph hfinite rfl, rfl, rfl, hsteps hfinite rfl⟩,
    ⟨_, rfl, rfl, hstored hlist rfl⟩, ⟨_, rfl, rfl, hrequest hbare rfl⟩,
    ⟨_, rfl, rfl, hresponse hblank rfl⟩⟩

end StepFlow
