import StepFlow.Plan.Resolve
import StepFlow.Proofs.Json.Records
import StepFlow.Wire.Graph

/-!
# Nodes, edges and steps read again

What is decoded is in normal form, and what is in normal form is read back from its JSON form.

## Main definitions

* `Node.Readable`: the kind and the place of a node are read back.
* `Step.Normal`: nothing is left of a step for decoding to fill in or to sort.

## Main results

* `Node.yields_readable`, `Node.fromJson_toJson`: the two halves for nodes.
* `Node.Readable.normal_toStep`: the step of such a node is in normal form, whatever follows it.
* `Step.fromJson_toJson`: a step in normal form is read back.

## Design notes

An edge is read back always. A node is read back unless its kind is spelled like a named one or its
place is not finite, which no decoded node is. A step is the step of a decoded node, whether it was
decoded itself or resolved from a graph, so both come under `Node.Readable.normal_toStep`.
-/

namespace StepFlow

open Json

/-! ### Kinds and places -/

namespace Kind

theorem decode_encode_decode (text : String) : decode (decode text).encode = decode text := by
  have hcases : decode text = other text ∨ decode (decode text).encode = decode text := by
    unfold decode
    split <;> simp [encode] <;> decide
  rcases hcases with hother | h
  · rw [hother, encode, hother]
  · exact h

theorem fromJson_generic : fromJson (toJson generic) = .ok generic := rfl

@[simp] theorem toJson_ne_null (k : Kind) : k.toJson ≠ .null := by
  simp [toJson]

theorem yields_spelled : Kind.fromJson.Yields fun k => Kind.fromJson k.toJson = .ok k := by
  intro v k _ hk
  obtain ⟨text, -, rfl⟩ := map_eq_ok.1 hk
  simp [fromJson, toJson, decode_encode_decode]

end Kind

namespace Position

/-- The coordinates are finite. -/
def Finite (p : Position) : Prop :=
  Decimal.isFinite p.x = true ∧ Decimal.isFinite p.y = true

theorem yields_number : Decoder.number.Yields fun x => Decimal.isFinite x = true := by
  intro v x hv hx
  cases v <;> simp only [Decoder.number, Decoder.wrongType, Except.ok.injEq, reduceCtorEq] at hx
  · exact hx ▸ Decimal.isFinite_ofInt _
  · simpa [hx, Value.isFinite] using hv

theorem yields_finite : Position.fromJson.Yields Position.Finite := by
  intro v p hv h
  simp only [fromJson, bind_eq_ok] at h
  obtain ⟨given, hread, -, -, x, hx, y, hy, h⟩ := h
  obtain rfl : Position.mk x y = p := Except.ok.inj h
  have hgiven := Shape.isFinite_of_read hv hread
  exact ⟨(yields_number.field hgiven "x").orElse hx (by decide),
    (yields_number.field hgiven "y").orElse hy (by decide)⟩

theorem fromJson_toJson {p : Position} (h : p.Finite) : fromJson p.toJson = .ok p := by
  obtain ⟨hx, hy⟩ := h
  simp [fromJson, toJson, numberToJson, hx, hy, Decoder.number]

theorem finite_default : Finite {} := ⟨by decide, by decide⟩

end Position

/-! ### Nodes -/

namespace Node

/-- The kind and the place of the node are read back. -/
structure Readable (n : Node) : Prop where
  kind : ∀ k ∈ n.kind, Kind.fromJson k.toJson = .ok k
  position : n.position.Finite

theorem readable_of_fields {shape : Shape} {given : Fields} (hgiven : given.isFinite = true)
    {n : Node}
    (hkind : (shape.field given "type" (Decoder.nullable Kind.fromJson)).orNone = .ok n.kind)
    (hposition : (shape.field given "position" Position.fromJson).orElse {} = .ok n.position) :
    n.Readable where
  kind := (Kind.yields_spelled.nullable.field hgiven "type").orNone hkind
  position := (Position.yields_finite.field hgiven "position").orElse hposition
    Position.finite_default

theorem yields_readable : Node.fromJson.Yields Readable := by
  intro v n hv h
  simp only [fromJson, bind_eq_ok] at h
  obtain ⟨given, hread, -, -, id, -, kind, hkind, label, -, run, -, args, -, argsSchema, -,
    config, -, position, hposition, parent, -, h⟩ := h
  obtain rfl := Except.ok.inj h
  exact readable_of_fields (Shape.isFinite_of_read hv hread) hkind hposition

theorem fromJson_toJson {n : Node} (h : n.Readable) : fromJson n.toJson = .ok n := by
  have hkind := Field.ofGiven_optional h.kind fun k _ => k.toJson_ne_null
  have hposition := Position.fromJson_toJson h.position
  simp [fromJson, toJson, hkind, hposition]

end Node

/-! ### Edges -/

theorem Marker.fromJson_toJson (m : Marker) : fromJson m.toJson = .ok m := by
  simp [fromJson, toJson]

theorem EdgeStyle.fromJson_toJson (s : EdgeStyle) : fromJson s.toJson = .ok s := by
  simp [fromJson, toJson, Marker.fromJson_toJson]

theorem Edge.fromJson_toJson (e : Edge) : fromJson e.toJson = .ok e := by
  have hstyle := Field.ofGiven_optional (fun s (_ : s ∈ e.style) => EdgeStyle.fromJson_toJson s)
    (by simp [EdgeStyle.toJson])
  simp [fromJson, toJson, hstyle]

/-! ### Steps -/

/-- Nothing is left of the step to fill in or to sort. -/
structure Step.Normal (s : Step) : Prop where
  kind : Kind.fromJson s.kind.toJson = .ok s.kind
  label : filled (some s.label) defaultLabel = s.label
  run : filled (some s.run) defaultRun = s.run
  position : s.position.Finite
  next : Successors.ofTargets s.next.targets s.next.condition = s.next

/-- The step of a readable node is in normal form, whatever follows it. -/
theorem Node.Readable.normal_toStep {n : Node} (h : n.Readable) (targets : List String)
    (condition : Option String) : (n.toStep (.ofTargets targets condition)).Normal where
  kind := by
    cases hkind : n.kind with
    | none => simpa [toStep, hkind] using Kind.fromJson_generic
    | some k => simpa [toStep, hkind] using h.kind k hkind
  label := filled_filled n.label defaultLabel
  run := filled_filled n.run defaultRun
  position := h.position
  next := Successors.ofTargets_ofTargets targets condition

namespace Step

theorem yields_normal : Step.fromJson.Yields Normal := by
  intro v s hv h
  simp only [fromJson, bind_eq_ok] at h
  obtain ⟨given, hread, -, -, id, -, kind, hkind, label, -, run, -, args, -, argsSchema, -,
    config, -, position, hposition, next, -, condition, -, h⟩ := h
  obtain rfl := Except.ok.inj h
  refine Node.Readable.normal_toStep ?_ next condition
  exact Node.readable_of_fields (Shape.isFinite_of_read hv hread) hkind hposition

theorem fromJson_toJson {s : Step} (h : s.Normal) : fromJson s.toJson = .ok s := by
  have hposition := Position.fromJson_toJson h.position
  simp [fromJson, toJson, Node.toStep, h.kind, h.label, h.run, h.next, hposition]

end Step

/-! ### Graphs -/

theorem Node.yields_list : nodesFromJson.Yields fun nodes => ∀ n ∈ nodes, n.Readable :=
  yields_readable.list

theorem Step.yields_list : stepsFromJson.Yields fun steps => ∀ s ∈ steps, s.Normal :=
  yields_normal.list

theorem nodesFromJson_toJson {nodes : List Node} (h : ∀ n ∈ nodes, n.Readable) :
    nodesFromJson (nodesToJson nodes) = .ok nodes :=
  list_arr_map fun n hn => Node.fromJson_toJson (h n hn)

@[simp] theorem edgesFromJson_toJson (edges : List Edge) :
    edgesFromJson (edgesToJson edges) = .ok edges :=
  list_arr_map fun e _ => Edge.fromJson_toJson e

theorem stepsFromJson_toJson {steps : List Step} (h : ∀ s ∈ steps, s.Normal) :
    stepsFromJson (stepsToJson steps) = .ok steps :=
  list_arr_map fun s hs => Step.fromJson_toJson (h s hs)

namespace Graph

/-- Every node of the graph is read back. -/
def Readable (g : Graph) : Prop :=
  ∀ n ∈ g.nodes, n.Readable

theorem yields_readable : Graph.fromJson.Yields Readable := by
  intro v g hv h
  simp only [fromJson, bind_eq_ok] at h
  obtain ⟨given, hread, -, -, nodes, hnodes, edges, -, h⟩ := h
  obtain rfl := Except.ok.inj h
  have hgiven := Shape.isFinite_of_read hv hread
  exact (Node.yields_list.field hgiven "nodes").orElse hnodes (by simp)

theorem fromJson_toJson {g : Graph} (h : g.Readable) : fromJson g.toJson = .ok g := by
  simp [fromJson, toJson, nodesFromJson_toJson h]

/-- The steps of a graph that is read back are in normal form. -/
theorem Readable.normal_steps {g : Graph} (h : g.Readable) : ∀ s ∈ g.steps, s.Normal := by
  intro s hs
  obtain ⟨n, hn, rfl⟩ := List.mem_map.1 hs
  exact (h n hn).normal_toStep _ _

end Graph

namespace GeneratedNode

theorem yields_finite :
    GeneratedNode.fromJson.Yields fun n => ∀ p ∈ n.position, p.Finite := by
  intro v n hv h
  simp only [fromJson, bind_eq_ok] at h
  obtain ⟨given, hread, -, -, kind, -, position, hposition, next, -, data, -, h⟩ := h
  obtain rfl := Except.ok.inj h
  have hgiven := Shape.isFinite_of_read hv hread
  exact (Position.yields_finite.nullable.field hgiven "position").orNone hposition

theorem fromJson_toJson {n : GeneratedNode} (h : ∀ p ∈ n.position, p.Finite) :
    fromJson n.toJson = .ok n := by
  have hposition := nullable_getD_null (fun p hp => Position.fromJson_toJson (h p hp))
    (by simp [Position.toJson])
  simp [fromJson, toJson, hposition]

end GeneratedNode

end StepFlow
